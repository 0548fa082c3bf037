import Calculator.Token.Lexer

/-!
# Reading tokens in bytes

A text is stored in bytes, one to four for a character, and a place in it is a number of bytes. A
slice can be taken only between character boundaries.

A `Cursor` reads the same tokens as a `Lexer` from the stored text. It is called for one item after
the other, also after the last one. Each call takes slices of the text, and is `none` where a slice
cannot be taken.
-/

namespace Calculator

/-! ## Slices -/

/-- The text from a byte on. -/
def sliceFrom? (text : String) (start : Nat) : Option String :=
  if h : String.Pos.Raw.IsValid text ⟨start⟩ then some (text.sliceFrom ⟨⟨start⟩, h⟩).copy else none

/-- The text up to a byte. -/
def sliceTo? (text : String) (stop : Nat) : Option String :=
  if h : String.Pos.Raw.IsValid text ⟨stop⟩ then some (text.sliceTo ⟨⟨stop⟩, h⟩).copy else none

/-- The text from a byte on up to another. -/
def slice? (text : String) (start stop : Nat) : Option String := do
  sliceFrom? (← sliceTo? text stop) start

section

variable {text before rest : String}

theorem isValid_append (before rest : String) :
    String.Pos.Raw.IsValid (before ++ rest) ⟨before.utf8ByteSize⟩ :=
  String.Pos.Raw.isValid_iff_exists_append.2 ⟨before, rest, rfl, rfl⟩

theorem splits_append (before rest : String) :
    (⟨_, isValid_append before rest⟩ : String.Pos (before ++ rest)).Splits before rest :=
  ⟨rfl, rfl⟩

/-- A suffix can be taken exactly at the size of a prefix. -/
theorem sliceFrom?_eq_some_iff {start : Nat} :
    sliceFrom? text start = some rest ↔
      ∃ before, text = before ++ rest ∧ start = before.utf8ByteSize := by
  constructor
  · intro h
    unfold sliceFrom? at h
    split at h <;> cases h
    next hvalid =>
    have hsplits := String.Pos.splits (⟨⟨start⟩, hvalid⟩ : text.Pos)
    exact ⟨_, hsplits.eq_append, congrArg String.Pos.Raw.byteIdx hsplits.offset_eq_rawEndPos⟩
  · rintro ⟨before, rfl, rfl⟩
    rw [sliceFrom?, dif_pos (isValid_append before rest),
      (splits_append before rest).copy_sliceFrom_eq]

theorem sliceTo?_eq_some_iff {stop : Nat} :
    sliceTo? text stop = some before ↔
      ∃ rest, text = before ++ rest ∧ stop = before.utf8ByteSize := by
  constructor
  · intro h
    unfold sliceTo? at h
    split at h <;> cases h
    next hvalid =>
    have hsplits := String.Pos.splits (⟨⟨stop⟩, hvalid⟩ : text.Pos)
    exact ⟨_, hsplits.eq_append, congrArg String.Pos.Raw.byteIdx hsplits.offset_eq_rawEndPos⟩
  · rintro ⟨rest, rfl, rfl⟩
    rw [sliceTo?, dif_pos (isValid_append before rest), (splits_append before rest).copy_sliceTo_eq]

theorem slice?_append (before middle rest : String) :
    slice? (before ++ middle ++ rest) before.utf8ByteSize (before ++ middle).utf8ByteSize =
      some middle := by
  rw [slice?, sliceTo?_eq_some_iff.2 ⟨rest, rfl, rfl⟩, Option.bind_eq_bind, Option.bind_some,
    sliceFrom?_eq_some_iff.2 ⟨before, rfl, rfl⟩]

end

/-! ## Calls -/

/-- The byte at which the first character with a property starts. -/
def findByte? (p : Char → Bool) : List Char → Option Nat
  | [] => none
  | c :: cs => if p c then some 0 else (findByte? p cs).map (c.utf8Size + ·)

/-- The longest run of digits and points that starts at a byte, and the byte behind it. -/
def readRun? (text : String) (start : Nat) : Option (String × Nat) := do
  let rest ← sliceFrom? text start
  let stop := (findByte? (fun c => !isNumeral c) rest.toList).elim text.utf8ByteSize (start + ·)
  return (← slice? text start stop, stop)

/-- A place in a text: the number of bytes before it. -/
structure Cursor where
  text : String
  offset : Nat
  deriving DecidableEq

namespace Cursor

/-- The start of a text. -/
def ofString (text : String) : Cursor :=
  ⟨text, 0⟩

/-- The answer of a failed call: the error, with the cursor at the end of the text. -/
def fail (cursor : Cursor) (e : EvalError) : Option (Except EvalError Token) × Cursor :=
  (some (.error e), { cursor with offset := cursor.text.utf8ByteSize })

/-- A call answers with the next item, or with `none` at the end of the text. -/
def call (cursor : Cursor) : Option (Option (Except EvalError Token) × Cursor) := do
  let rest ← sliceFrom? cursor.text cursor.offset
  match rest.toList.head? with
  | none => return (none, cursor)
  | some c =>
    if isNumeral c then
      let (run, stop) ← readRun? cursor.text cursor.offset
      if isLiteral run.toList then return (some (.ok (.num run)), { cursor with offset := stop })
      else return cursor.fail (.invalidNumber run)
    else match Token.ofChar? c with
      | some token =>
        return (some (.ok token), { cursor with offset := cursor.offset + c.utf8Size })
      | none =>
        let before ← sliceTo? cursor.text cursor.offset
        return cursor.fail (.invalidCharacter c before.length)

/-- The answers of this many calls in a row. -/
def calls : Nat → Cursor → Option (List (Option (Except EvalError Token)) × Cursor)
  | 0, cursor => some ([], cursor)
  | n + 1, cursor => do
    let (answer, next) ← cursor.call
    let (answers, last) ← calls n next
    return (answer :: answers, last)

end Cursor

end Calculator
