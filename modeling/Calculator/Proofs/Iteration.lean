import Calculator.Proofs.Lexing

/-!
# What a lexer yields

A lexer is read item by item until nothing is left. The items, including the error that may be the
last one, are those of a scan (`Lexer.yields_iff`).

Main result: `Lexer.yields_ok_iff`, reading and writing tokens are inverse. A text yields exactly
the readable tokens that it is written with, and an error if there are none.
-/

namespace Calculator.Lexer

/-- The items of a lexer from its place to the end of the text. -/
inductive Yields : Lexer → List (Except EvalError Token) → Prop
  | done {lexer : Lexer} (hend : lexer.next? = none) : Yields lexer []
  | item {lexer after : Lexer} {item : Except EvalError Token}
      {items : List (Except EvalError Token)} (hread : lexer.next? = some (item, after))
      (hrest : Yields after items) : Yields lexer (item :: items)

theorem Yields.unique {lexer : Lexer} {items others : List (Except EvalError Token)}
    (h : lexer.Yields items) (hothers : lexer.Yields others) : items = others := by
  induction h generalizing others with
  | done hend =>
    cases hothers with
    | done _ => rfl
    | item hread _ =>
      rw [hend] at hread
      cases hread
  | item hread _ ih =>
    cases hothers with
    | done hend =>
      rw [hend] at hread
      cases hread
    | item hread' hrest =>
      rw [hread] at hread'
      cases hread'
      rw [ih hrest]

/-- The items of a scan: its tokens, then its error. -/
def Scan.items (scan : Scan) : List (Except EvalError Token) :=
  scan.tokens.map .ok ++ (scan.error?.map .error).toList

/-- **A lexer yields the items of its scan.** -/
theorem yields_iff {lexer : Lexer} {items : List (Except EvalError Token)} :
    lexer.Yields items ↔ items = lexer.scan.items := by
  -- What a scan collects is yielded, and nothing else can be.
  have hscan : lexer.Yields lexer.scan.items := by
    induction lexer using scan_induction with
    | none lexer h =>
      rw [scan_of_none h]
      exact .done h
    | error lexer e after h =>
      rw [scan_of_error h]
      exact .item h (.done (next?_eq_none_iff.2 (rest_eq_nil_of_error h)))
    | ok lexer t after h ih =>
      rw [scan_of_ok h]
      exact .item h ih
  constructor
  · intro h
    exact h.unique hscan
  · intro h
    rw [h]
    exact hscan

theorem Scan.items_eq_map_ok_iff {scan : Scan} {tokens : List Token} :
    tokens.map .ok = scan.items ↔ scan.error? = none ∧ scan.tokens = tokens := by
  have hinj : Function.Injective (Except.ok : Token → Except EvalError Token) := by
    intro t u h
    exact Except.ok.inj h
  cases h : scan.error? with
  | none => simp [items, h, hinj.list_map.eq_iff, eq_comm]
  | some e =>
    constructor
    · intro heq
      have hmem : Except.error e ∈ tokens.map (Except.ok : Token → Except EvalError Token) := by
        rw [heq]
        simp [items, h]
      obtain ⟨t, -, ht⟩ := List.mem_map.1 hmem
      cases ht
    · intro hnone
      cases hnone.1

/-- **Reading and writing are inverse.** A text yields tokens and no error exactly if these tokens
are readable, each number a literal and no two numbers adjacent, and the text is their
concatenation. -/
theorem yields_ok_iff (text : String) (tokens : List Token) :
    (ofString text).Yields (tokens.map .ok) ↔
      Token.concat tokens = text ∧ Token.Readable tokens := by
  rw [yields_iff, Scan.items_eq_map_ok_iff]
  constructor
  · intro h
    obtain ⟨hnone, rfl⟩ := h
    obtain ⟨hread, bad, hrest, hbad⟩ := scan_spec (ofString text)
    rw [hbad.1 hnone, List.append_nil] at hrest
    exact ⟨(String.toList_inj.1 hrest).symm, hread⟩
  · intro h
    obtain ⟨rfl, hread⟩ := h
    rw [scan_concat hread]
    exact ⟨rfl, rfl⟩

end Calculator.Lexer
