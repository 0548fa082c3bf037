import Calculator.Error
import Calculator.Token.Basic

/-!
# Reading tokens

A `Lexer` is a place in a text. It reads one token at a time: a maximal run of digits and points is
a number, every other token is one character. A run that is no literal, or a character that no
expression holds, is an error, and the lexer is then at the end of the text. Each reading shortens
the rest (`Lexer.length_rest_lt`), so `Lexer.scan` terminates.

`Lexer.scan` reads as long as there are tokens. Its three equations are `scan_of_none`, `scan_of_ok`
and `scan_of_error`.
-/

namespace Calculator

/-- A place in a text: the number of characters before it, and those that follow. -/
structure Lexer where
  position : Nat
  rest : List Char
  deriving DecidableEq

namespace Lexer

/-- The start of a text. -/
def ofString (text : String) : Lexer :=
  ⟨0, text.toList⟩

/-- The end of the text. -/
def toEnd (lexer : Lexer) : Lexer :=
  ⟨lexer.position + lexer.rest.length, []⟩

/-- The maximal run of digits and points that starts here. -/
def run (lexer : Lexer) : List Char :=
  lexer.rest.takeWhile isNumeral

/-- The place behind that run. -/
def afterRun (lexer : Lexer) : Lexer :=
  ⟨lexer.position + lexer.run.length, lexer.rest.dropWhile isNumeral⟩

/-- The next token or error, and the place behind it; `none` at the end of the text. -/
def next? (lexer : Lexer) : Option (Except EvalError Token × Lexer) :=
  match lexer.rest with
  | [] => none
  | c :: rest =>
    some <|
      if isNumeral c then
        let text := String.ofList lexer.run
        if isLiteral lexer.run then (.ok (.num text), lexer.afterRun)
        else (.error (.invalidNumber text), lexer.toEnd)
      else match Token.ofChar? c with
        | some token => (.ok token, ⟨lexer.position + 1, rest⟩)
        | none => (.error (.invalidCharacter c lexer.position), lexer.toEnd)

@[simp] theorem rest_toEnd (lexer : Lexer) : lexer.toEnd.rest = [] := rfl

theorem next?_eq_none_iff {lexer : Lexer} : lexer.next? = none ↔ lexer.rest = [] := by
  unfold next?
  split <;> simp_all

theorem run_append_rest_afterRun (lexer : Lexer) :
    lexer.run ++ lexer.afterRun.rest = lexer.rest :=
  List.takeWhile_append_dropWhile

theorem rest_eq_nil_of_error {lexer after : Lexer} {e : EvalError}
    (h : lexer.next? = some (.error e, after)) : after.rest = [] := by
  unfold next? at h
  split at h
  · cases h
  · dsimp only at h
    split at h
    · split at h <;> cases h
      rfl
    · split at h <;> cases h
      rfl

/-- Each reading shortens the rest. -/
theorem length_rest_lt {lexer after : Lexer} {item : Except EvalError Token}
    (h : lexer.next? = some (item, after)) : after.rest.length < lexer.rest.length := by
  unfold next? at h
  split at h
  · cases h
  · next c rest hrest =>
    have hpos : 0 < lexer.rest.length := by simp [hrest]
    have hrun : isNumeral c → (lexer.rest.dropWhile isNumeral).length < lexer.rest.length := by
      intro hc
      have hsum := congrArg List.length lexer.run_append_rest_afterRun
      have hlong : 0 < lexer.run.length := by simp [run, hrest, hc]
      simp only [List.length_append, afterRun] at hsum
      omega
    dsimp only at h
    split at h
    · next hc =>
      split at h <;> cases h
      · exact hrun hc
      · exact hpos
    · split at h <;> cases h
      · simp [hrest]
      · exact hpos

/-! ## Scanning a text -/

/-- The outcome of a scan: the tokens before the first error, that error if there is one, and
the place where the scan stopped. -/
structure Scan where
  tokens : List Token
  error? : Option EvalError
  stop : Lexer

/-- The scan with the tokens read so far, newest first. -/
def scanOnto (read : List Token) (lexer : Lexer) : Scan :=
  match _ : lexer.next? with
  | none => ⟨read.reverse, none, lexer⟩
  | some (.ok token, after) => scanOnto (token :: read) after
  | some (.error e, after) => ⟨read.reverse, some e, after⟩
termination_by lexer.rest.length
decreasing_by exact length_rest_lt ‹_›

/-- The tokens from a place on, up to the first error. -/
def scan (lexer : Lexer) : Scan :=
  scanOnto [] lexer

theorem scanOnto_eq (read : List Token) (lexer : Lexer) :
    scanOnto read lexer =
      { lexer.scan with tokens := read.reverse ++ lexer.scan.tokens } := by
  generalize hn : lexer.rest.length = n
  induction n using Nat.strongRecOn generalizing read lexer with
  | ind n ih =>
    unfold scan
    rw [scanOnto.eq_def read, scanOnto.eq_def []]
    split
    · simp
    · next token after h =>
      have hlt := hn ▸ length_rest_lt h
      rw [ih _ hlt (token :: read) after rfl, ih _ hlt [token] after rfl]
      simp
    · simp

theorem scan_of_none {lexer : Lexer} (h : lexer.next? = none) :
    lexer.scan = ⟨[], none, lexer⟩ := by
  rw [scan, scanOnto.eq_def]
  split <;> simp_all

theorem scan_of_ok {lexer after : Lexer} {token : Token}
    (h : lexer.next? = some (.ok token, after)) :
    lexer.scan = { after.scan with tokens := token :: after.scan.tokens } := by
  rw [scan, scanOnto.eq_def]
  split <;> simp_all [scanOnto_eq [token]]

theorem scan_of_error {lexer after : Lexer} {e : EvalError}
    (h : lexer.next? = some (.error e, after)) : lexer.scan = ⟨[], some e, after⟩ := by
  rw [scan, scanOnto.eq_def]
  split <;> simp_all

/-- All tokens of a scan that met no error. -/
def Scan.result (scan : Scan) : Except EvalError (List Token) :=
  match scan.error? with
  | some e => .error e
  | none => .ok scan.tokens

end Lexer

end Calculator
