import Calculator.Proofs.Composition
import Calculator.Proofs.Separation

/-!
# Groups of one value can be exchanged

An expression in parentheses may stand in any text, also in a malformed one. The text depends on it
only through its value: two groups of the same value can be exchanged, and the result of the whole,
value or error, stays the same.

A group is read independently of the text around it, and the yard puts out its listing and is
otherwise unchanged. So the output before and behind the group does not depend on it
(`exists_context`), and the machine runs its listing to one more value on the stack.

Main result: `evaluate_group_congr`.
-/

namespace Calculator

/-! ## Converting around a group -/

namespace Yard

theorem convert_same {scan scan' : Lexer.Scan} (h : scan.Same scan') (yard : Yard) :
    yard.convert scan = yard.convert scan' := by
  rw [convert, convert, h.1, h.2]

theorem convert_append (yard : Yard) (tokens : List Token) (scan : Lexer.Scan) :
    yard.convert { scan with tokens := tokens ++ scan.tokens } =
      yard.steps tokens >>= fun next => next.convert scan := by
  rw [convert, steps_append]
  cases yard.steps tokens <;> rfl

theorem exists_error_of_convert {scan : Lexer.Scan} {e : EvalError} (h : scan.error? = some e)
    (yard : Yard) : ∃ e', yard.convert scan = .error e' := by
  rw [convert, h]
  cases yard.steps scan.tokens with
  | error e' => exact ⟨e', rfl⟩
  | ok next => exact ⟨e, rfl⟩

theorem convert_within_nil (yard : Yard) (output : List Token) (scan : Lexer.Scan) :
    (yard.within output []).convert scan =
      (fun listing => output.reverse ++ listing) <$> yard.convert scan := by
  rw [convert, convert, steps_within_nil]
  cases yard.steps scan.tokens with
  | error e => rfl
  | ok next =>
    cases scan.error? with
    | some e => rfl
    | none => exact next.finish_within_nil output

/-- After a group the conversion continues with its listing put out. -/
theorem convert_group {tokens listing : List Token}
    (h : (steps {} tokens >>= finish) = .ok listing) (yard : Yard) (scan : Lexer.Scan) :
    (yard.steps (.lparen :: (tokens ++ [.rparen])) >>= fun next => next.convert scan) =
      (fun last => yard.output.reverse ++ listing ++ last) <$>
        convert { yard with output := [] } scan := by
  have hnext : ({ yard with output := listing.reverse ++ yard.output } : Yard) =
      within { yard with output := [] } (listing.reverse ++ yard.output) [] := by
    simp [within]
  rw [steps_group h, hnext]
  show convert _ scan = _
  rw [convert_within_nil, List.reverse_append, List.reverse_reverse]

end Yard

/-- **The output around a group does not depend on it.** The text around the group is wrong for
every group, or the listing of the whole is that of the group between two fixed lists of tokens. -/
theorem exists_context (before behind : String) (hbehind : ∀ c ∈ behind.toList, isAccepted c) :
    ∃ context : Except EvalError (List Token × List Token), ∀ text listing,
      toPostorder text = .ok listing →
        toPostorder (before ++ "(" ++ text ++ ")" ++ behind) =
          (fun (first, last) => first ++ listing ++ last) <$> context := by
  cases herror : (Lexer.ofString before).scan.error? with
  | some e =>
    -- The text is wrong before the group, so what follows is not read.
    obtain ⟨e', he'⟩ := Yard.exists_error_of_convert herror {}
    refine ⟨.error e', fun text listing _ => ?_⟩
    have htext : Lexer.ofString (before ++ "(" ++ text ++ ")" ++ behind) =
        (Lexer.ofString before).extend ('(' :: (text.toList ++ ')' :: behind.toList)) := by
      simp [Lexer.ofString, Lexer.extend]
    have hscan := Lexer.scan_extend_of_error (by decide : ¬isNumeral '(') herror
      (text.toList ++ ')' :: behind.toList)
    rw [Yard.toPostorder_eq_convert, htext, Yard.convert_same hscan, he']
    rfl
  | none =>
    obtain ⟨tokens, hread, rfl⟩ : ∃ tokens, Token.Readable tokens ∧ before = Token.concat tokens :=
      ⟨_, Lexer.eq_concat_of_scan herror⟩
    refine ⟨Yard.steps {} tokens >>= fun yard => (fun last => (yard.output.reverse, last)) <$>
      Yard.convert { yard with output := [] } (Lexer.ofString behind).scan,
      fun text listing hlisting => ?_⟩
    obtain ⟨inner, hinner, rfl, hsteps⟩ := exists_tokens_of_toPostorder hlisting
    rw [Yard.toPostorder_eq_convert, Yard.convert_same (Lexer.scan_group hread hinner hbehind),
      Yard.convert_append, Yard.steps_append]
    cases Yard.steps {} tokens with
    | error e => rfl
    | ok yard =>
      show (yard.steps (.lparen :: (inner ++ [.rparen])) >>= _) = _ <$> _ <$> _
      rw [Yard.convert_group hsteps]
      cases Yard.convert { yard with output := [] } (Lexer.ofString behind).scan <;> rfl

/-! ## Values around a group -/

namespace Postorder

variable {α : Type} [Operand α]

theorem steps_of_value {listing : List Token} {v : α} (h : value listing = .ok v)
    (stack : List α) (rest : List Token) :
    steps stack (listing ++ rest) = steps (v :: stack) rest := by
  obtain ⟨tree, rfl, htree⟩ := exists_tree_of_value h
  rw [Expression.steps_postorder, htree]
  rfl

/-- Listings of one value can be exchanged inside a listing. -/
theorem value_congr {listing listing' : List Token} {v : α} (h : value listing = .ok v)
    (h' : value listing' = .ok v) (first last : List Token) :
    (value (first ++ listing ++ last) : Except EvalError α) =
      value (first ++ listing' ++ last) := by
  rw [value, value, List.append_assoc, List.append_assoc, steps_append, steps_append]
  simp only [steps_of_value h, steps_of_value h']

end Postorder

namespace Settings

variable {α : Type} [Operand α] {settings : Settings}

theorem result_group_congr (hlimit : settings.maxLength = none) {before behind s t : String}
    (hbefore : Admissible before) (hbehind : Admissible behind) {v : α}
    (hs : (settings.evaluateIn α s).result = .ok v)
    (ht : (settings.evaluateIn α t).result = .ok v) :
    (settings.evaluateIn α (before ++ "(" ++ s ++ ")" ++ behind)).result =
      (settings.evaluateIn α (before ++ "(" ++ t ++ ")" ++ behind)).result := by
  obtain ⟨context, hcontext⟩ :=
    exists_context (withoutBlanks before) (withoutBlanks behind) (admissible_iff.1 hbehind)
  have hwhole {text : String} {listing : List Token} (htext : Admissible text)
      (hlisting : toPostorder (withoutBlanks text) = .ok listing) :
      (settings.evaluateIn α (before ++ "(" ++ text ++ ")" ++ behind)).result =
        context >>= fun (first, last) => Postorder.value (first ++ listing ++ last) := by
    have hadmissible : Admissible (before ++ "(" ++ text ++ ")" ++ behind) := by
      simp only [admissible_append]
      exact ⟨⟨⟨⟨hbefore, by decide⟩, htext⟩, by decide⟩, hbehind⟩
    have hparts : withoutBlanks (before ++ "(" ++ text ++ ")" ++ behind) =
        withoutBlanks before ++ "(" ++ withoutBlanks text ++ ")" ++ withoutBlanks behind := by
      simp only [withoutBlanks_append]
      rfl
    rw [result_of_admissible hlimit hadmissible (by rw [hparts]; simp), hparts,
      hcontext _ _ hlisting]
    cases context <;> rfl
  obtain ⟨listing, hadmissible, hlisting, hvalue⟩ := exists_listing_of_result hs
  obtain ⟨listing', hadmissible', hlisting', hvalue'⟩ := exists_listing_of_result ht
  rw [hwhole hadmissible hlisting, hwhole hadmissible' hlisting']
  simp only [Postorder.value_congr hvalue hvalue']

end Settings

/-- **Groups of one value can be exchanged.** The text around them is any in which no character is
refused. The result of the whole is the same, value or error. -/
theorem evaluate_group_congr {settings : Settings} (hlimit : settings.maxLength = none)
    {before behind : String} (hbefore : Admissible before) (hbehind : Admissible behind)
    (s t : String) :
    (∀ v, (settings.evaluate s).result = .ok v → (settings.evaluate t).result = .ok v →
      (settings.evaluate (before ++ "(" ++ s ++ ")" ++ behind)).result =
        (settings.evaluate (before ++ "(" ++ t ++ ")" ++ behind)).result) ∧
    ∀ v, (settings.evaluateExact s).result = .ok v → (settings.evaluateExact t).result = .ok v →
      (settings.evaluateExact (before ++ "(" ++ s ++ ")" ++ behind)).result =
        (settings.evaluateExact (before ++ "(" ++ t ++ ")" ++ behind)).result := by
  constructor
  · intro v hs ht
    exact Settings.result_group_congr hlimit hbefore hbehind hs ht
  · intro v hs ht
    exact Settings.result_group_congr hlimit hbefore hbehind hs ht

/-- A sum and a quotient of the same value, before a malformed number and before an unmatched
parenthesis. -/
theorem evaluate_group_congr_three :
    (({} : Settings).evaluate "7 %(1+2) - .").result =
        (({} : Settings).evaluate "7 %(6 / 2) - .").result ∧
      (({} : Settings).evaluateExact "2 -(1+2))").result =
        (({} : Settings).evaluateExact "2 -(6 / 2))").result := by
  have hlimit : ({} : Settings).maxLength = none := rfl
  have hsum : (({} : Settings).evaluate "1+2").result =
      .ok (.finite false ⟨0x4008000000000000, by decide⟩) := by decide +kernel
  have hquotient : (({} : Settings).evaluate "6 / 2").result =
      .ok (.finite false ⟨0x4008000000000000, by decide⟩) := by decide +kernel
  have hexactSum : (({} : Settings).evaluateExact "1+2").result = .ok 3 := by decide +kernel
  have hexactQuotient : (({} : Settings).evaluateExact "6 / 2").result = .ok 3 := by
    decide +kernel
  have hremainder : Admissible "7 %" := by decide
  have hpoint : Admissible " - ." := by decide
  have hminus : Admissible "2 -" := by decide
  have hparenthesis : Admissible ")" := by decide
  exact ⟨(evaluate_group_congr hlimit hremainder hpoint "1+2" "6 / 2").1 _ hsum hquotient,
    (evaluate_group_congr hlimit hminus hparenthesis "1+2" "6 / 2").2 _ hexactSum hexactQuotient⟩

end Calculator
