import Calculator.Proofs.Agreement

/-!
# Workings are faithful

The detailed call has a value exactly if the plain call has, although it reads all tokens before it
converts them: a converted text is read to its end.

Its workings are lines of text, tokens with spaces between them. No token has a space in its text,
and each token can be read from its own text, so a line can be read back: split at its spaces, each
piece is one token, and it is the only line for these tokens (`Token.readsBack_iff`).

Main result: `evaluateDetailed_eq_ok_iff`.
-/

namespace Calculator

/-! ## Lines of tokens -/

namespace Token

/-- The pieces of a line between its spaces. -/
def pieces (line : String) : List String :=
  (line.toList.splitOn ' ').map String.ofList

/-- The pieces of a line are read as the tokens, each piece as one. -/
def ReadsBack (line : String) (tokens : List Token) : Prop :=
  List.Forall₂ (fun t piece => (Lexer.ofString piece).scan.result = .ok [t]) tokens (pieces line)

@[simp] theorem concat_singleton (t : Token) : concat [t] = t.text := by
  simp [concat]

theorem readable_singleton {t : Token} : Readable [t] ↔ t.isWritable := by
  refine ⟨fun h => (readable_cons.1 h).1, fun h => readable_cons.2 ⟨h, by simp, readable_nil⟩⟩

theorem scan_result_eq_singleton_iff {piece : String} {t : Token} :
    (Lexer.ofString piece).scan.result = .ok [t] ↔ t.isWritable ∧ piece = t.text := by
  rw [Lexer.scan_result_eq_ok_iff, readable_singleton, concat_singleton]

theorem not_mem_text_of_isWritable {t : Token} (h : t.isWritable) : ' ' ∉ t.text.toList := by
  intro hmem
  exact absurd ((text_of_isWritable h).2 ' ' hmem) (by decide)

theorem intercalate_pieces (line : String) : " ".intercalate (pieces line) = line := by
  refine String.toList_inj.1 ?_
  rw [String.toList_intercalate, pieces, List.map_map]
  simp [Function.comp_def]

theorem pieces_listing {tokens : List Token} (hne : tokens ≠ [])
    (hwritable : ∀ t ∈ tokens, t.isWritable) : pieces (listing tokens) = tokens.map text := by
  have hspace : ∀ cs ∈ tokens.map fun t => t.text.toList, ' ' ∉ cs := by
    intro cs hcs
    obtain ⟨t, ht, rfl⟩ := List.mem_map.1 hcs
    exact not_mem_text_of_isWritable (hwritable t ht)
  have hsplit := List.splitOn_intercalate ' ' hspace (by simpa using hne)
  rw [pieces, listing, String.toList_intercalate, List.map_map]
  show (List.splitOn ' ' ([' '].intercalate (tokens.map fun t => t.text.toList))).map _ = _
  rw [hsplit, List.map_map]
  simp [Function.comp_def]

/-- **A line that is read back is a listing.** -/
theorem readsBack_iff {line : String} {tokens : List Token} :
    ReadsBack line tokens ↔
      tokens ≠ [] ∧ (∀ t ∈ tokens, t.isWritable) ∧ line = listing tokens := by
  have hpieces : ReadsBack line tokens ↔
      (∀ t ∈ tokens, t.isWritable) ∧ pieces line = tokens.map text := by
    simp only [ReadsBack, scan_result_eq_singleton_iff, List.forall₂_and_left]
    refine and_congr_right fun _ => ?_
    rw [eq_comm, ← List.forall₂_eq_eq_eq, List.forall₂_map_left_iff]
    simp only [eq_comm]
  rw [hpieces]
  constructor
  · rintro ⟨hwritable, htexts⟩
    refine ⟨?_, hwritable, ?_⟩
    · rintro rfl
      exact List.splitOn_ne_nil ' ' line.toList (List.map_eq_nil_iff.1 htexts)
    · rw [listing, ← htexts, intercalate_pieces]
  · rintro ⟨hne, hwritable, rfl⟩
    exact ⟨hwritable, pieces_listing hne hwritable⟩

end Token

/-! ## The detailed call -/

/-- The workings of an expression with this value: its compact text, the tokens of this text, and
its listing, which has the value. The lines of tokens and listing are read back, and the pieces of
the line of tokens are those of the compact text. -/
structure Workings.Faithful (w : Workings) (expression : String) (v : Binary64) : Prop where
  compact_eq : w.compact = withoutBlanks expression
  pieces_ne_empty : ∀ piece ∈ Token.pieces w.tokens, piece ≠ ""
  join_pieces : String.join (Token.pieces w.tokens) = w.compact
  tokens_readsBack : ∃ tokens, (Lexer.ofString w.compact).scan.result = .ok tokens ∧
    Token.ReadsBack w.tokens tokens
  postorder_readsBack : ∃ listing, toPostorder w.compact = .ok listing ∧
    Token.ReadsBack w.postorder listing ∧ Postorder.value listing = .ok v

theorem exists_scan_result_of_toPostorder {text : String} {listing : List Token}
    (h : toPostorder text = .ok listing) :
    ∃ tokens, (Lexer.ofString text).scan.result = .ok tokens := by
  obtain ⟨tokens, hread, htext, -⟩ := exists_tokens_of_toPostorder h
  exact ⟨tokens, Lexer.scan_result_eq_ok_iff.2 ⟨hread, htext⟩⟩

namespace Settings

variable {settings : Settings} {expression : String} {v : Binary64}

theorem result_evaluateDetailed_eq_ok_iff_stages {w : Workings} :
    (settings.evaluateDetailed expression).result = .ok (v, w) ↔
      settings.checkLength expression = .ok () ∧ ∃ text, compact expression = .ok text ∧
        ∃ tokens, (Lexer.ofString text).scan.result = .ok tokens ∧
          ∃ listing, toPostorder text = .ok listing ∧ Postorder.value listing = .ok v ∧
            w = ⟨text, Token.listing tokens, Token.listing listing⟩ := by
  rw [result_evaluateDetailed]
  simp only [bind_eq_ok_iff]
  constructor
  · rintro ⟨⟨⟩, hlength, text, hcompact, tokens, htokens, listing, hlisting, u, hu, hreturn⟩
    cases hreturn
    exact ⟨hlength, text, hcompact, tokens, htokens, listing, hlisting, hu, rfl⟩
  · rintro ⟨hlength, text, hcompact, tokens, htokens, listing, hlisting, hv, rfl⟩
    exact ⟨(), hlength, text, hcompact, tokens, htokens, listing, hlisting, v, hv, rfl⟩

theorem faithful_of_stages {text : String} {tokens listing : List Token}
    (hcompact : compact expression = .ok text)
    (htokens : (Lexer.ofString text).scan.result = .ok tokens)
    (hlisting : toPostorder text = .ok listing) (hv : Postorder.value listing = .ok v) :
    Workings.Faithful ⟨text, Token.listing tokens, Token.listing listing⟩ expression v := by
  obtain ⟨htext, htextne, -⟩ := compact_eq_ok_iff.1 hcompact
  obtain ⟨hread, hconcat⟩ := Lexer.scan_result_eq_ok_iff.1 htokens
  have hne : tokens ≠ [] := by
    rintro rfl
    exact htextne (by rw [hconcat]; rfl)
  have hlistne : listing ≠ [] := by
    rintro rfl
    cases hv
  have hpieces := Token.pieces_listing hne hread.writable
  refine ⟨htext, ?_, ?_, ⟨tokens, htokens, ?_⟩, ⟨listing, hlisting, ?_, hv⟩⟩
  · intro piece hpiece
    rw [hpieces] at hpiece
    obtain ⟨t, ht, rfl⟩ := List.mem_map.1 hpiece
    intro hempty
    exact (Token.text_of_isWritable (hread.writable t ht)).1 (by rw [hempty]; rfl)
  · rw [hpieces, hconcat]
    rfl
  · exact Token.readsBack_iff.2 ⟨hne, hread.writable, rfl⟩
  · exact Token.readsBack_iff.2
      ⟨hlistne, fun t ht => (writable_of_toPostorder hlisting t ht).1, rfl⟩

theorem exists_stages_of_faithful {w : Workings} {text : String}
    (h : w.Faithful expression v) (hcompact : compact expression = .ok text) :
    ∃ tokens, (Lexer.ofString text).scan.result = .ok tokens ∧
      ∃ listing, toPostorder text = .ok listing ∧ Postorder.value listing = .ok v ∧
        w = ⟨text, Token.listing tokens, Token.listing listing⟩ := by
  obtain ⟨htext, -, -⟩ := compact_eq_ok_iff.1 hcompact
  obtain ⟨tokens, htokens, htokensLine⟩ := h.tokens_readsBack
  obtain ⟨listing, hlisting, hlistingLine, hv⟩ := h.postorder_readsBack
  have hw : w.compact = text := h.compact_eq.trans htext.symm
  rw [hw] at htokens hlisting
  refine ⟨tokens, htokens, listing, hlisting, hv, ?_⟩
  obtain ⟨-, -, htokensEq⟩ := Token.readsBack_iff.1 htokensLine
  obtain ⟨-, -, hlistingEq⟩ := Token.readsBack_iff.1 hlistingLine
  rw [← hw, ← htokensEq, ← hlistingEq]

end Settings

/-- **Workings are faithful.** The detailed call has a value exactly if the plain call has the same
one, and its workings are the only ones that are faithful to the expression and this value. -/
theorem evaluateDetailed_eq_ok_iff (settings : Settings) (expression : String) (v : Binary64) :
    ((∃ w, (settings.evaluateDetailed expression).result = .ok (v, w)) ↔
        (settings.evaluate expression).result = .ok v) ∧
      ∀ w, (settings.evaluateDetailed expression).result = .ok (v, w) ↔
        (settings.evaluate expression).result = .ok v ∧ w.Faithful expression v := by
  rw [Settings.evaluate]
  constructor
  · rw [Settings.result_evaluateIn_eq_ok_iff_stages]
    simp only [Settings.result_evaluateDetailed_eq_ok_iff_stages]
    constructor
    · rintro ⟨-, hlength, text, hcompact, -, -, listing, hlisting, hv, -⟩
      exact ⟨hlength, text, hcompact, listing, hlisting, hv⟩
    · rintro ⟨hlength, text, hcompact, listing, hlisting, hv⟩
      obtain ⟨tokens, htokens⟩ := exists_scan_result_of_toPostorder hlisting
      exact ⟨_, hlength, text, hcompact, tokens, htokens, listing, hlisting, hv, rfl⟩
  · intro w
    rw [Settings.result_evaluateIn_eq_ok_iff_stages,
      Settings.result_evaluateDetailed_eq_ok_iff_stages]
    constructor
    · rintro ⟨hlength, text, hcompact, tokens, htokens, listing, hlisting, hv, rfl⟩
      exact ⟨⟨hlength, text, hcompact, listing, hlisting, hv⟩,
        Settings.faithful_of_stages hcompact htokens hlisting hv⟩
    · rintro ⟨⟨hlength, text, hcompact, -⟩, hfaithful⟩
      exact ⟨hlength, text, hcompact, Settings.exists_stages_of_faithful hfaithful hcompact⟩

/-- The blanks of an expression are gone, and there is one space between two tokens. -/
example : ((({} : Settings).evaluateDetailed " 2+3 *4").result.toOption.map Prod.snd) =
    some ⟨"2+3*4", "2 + 3 * 4", "2 3 4 * +"⟩ := by
  decide +kernel

end Calculator
