import Calculator.Proofs.StageErrors
import Calculator.Walk

/-!
# The compact text is a filter

The walk over an expression drops every blank, and an expression is empty if nothing is left between
the blanks at its ends. Both use the same property of characters, so an expression that is not empty
has characters to keep.

Apart from the position of a refused character, the walk treats each character independently. So a
compact text is its own compact text, and that of two expressions in a row is composed of those of
the two.

Main results: `compact_eq_walk`, the walk with its count, and `compact_isFilter`, its result.
-/

namespace Calculator

/-! ## The walk -/

theorem trimmed_eq_nil_iff {cs : List Char} : trimmed cs = [] ↔ ∀ c ∈ cs, isBlank c := by
  have hfront : ∀ c ∈ cs.takeWhile isBlank, isBlank c := fun c hc => List.mem_takeWhile_imp hc
  rw [trimmed, List.rdropWhile_eq_nil_iff]
  conv_rhs => rw [← List.takeWhile_append_dropWhile (p := isBlank) (l := cs)]
  rw [List.forall_mem_append]
  exact ⟨fun h => ⟨hfront, h⟩, fun h => h.2⟩

theorem Walk.step_eq (walk : Walk) (c : Char) :
    walk.step c = (compactChar (c, walk.passed)).map fun left =>
      ⟨walk.passed + 1, walk.kept ++ left.toList⟩ := by
  simp only [step, compactChar]
  split
  · rw [Except.map, Option.toList_none, List.append_nil]
  · split <;> rfl

/-- **The walk appends what the filter keeps.** -/
theorem Walk.foldlM_step (walk : Walk) (cs : List Char) :
    cs.foldlM step walk =
      ((cs.zipIdx walk.passed).filterMapM compactChar).map fun left =>
        ⟨walk.passed + cs.length, walk.kept ++ left⟩ := by
  induction cs generalizing walk with
  | nil =>
    show Except.ok walk = .ok ⟨walk.passed + 0, walk.kept ++ []⟩
    rw [Nat.add_zero, List.append_nil]
  | cons c cs ih =>
    rw [List.foldlM_cons, List.zipIdx_cons, List.filterMapM_cons, step_eq, List.length_cons]
    cases compactChar (c, walk.passed) with
    | error e => rfl
    | ok left =>
      show cs.foldlM step ⟨walk.passed + 1, walk.kept ++ left.toList⟩ = _
      rw [ih]
      have hpassed : walk.passed + 1 + cs.length = walk.passed + (cs.length + 1) := by omega
      cases left <;> cases (cs.zipIdx (walk.passed + 1)).filterMapM compactChar <;>
        simp [Except.map, bind, Except.bind, pure, Except.pure, hpassed]

theorem compact_eq_walk (expression : String) : compact expression = walk expression := by
  unfold compact walk
  rw [Walk.foldlM_step]
  simp only [trimmed_eq_nil_iff, List.all_eq_true]
  split
  · rfl
  · show Except.map _ _ = _
    cases (expression.toList.zipIdx).filterMapM compactChar <;> rfl

/-! ## The result of the walk -/

theorem compact_eq_emptyExpression_iff {expression : String} :
    compact expression = .error .emptyExpression ↔ ∀ c ∈ expression.toList, isBlank c := by
  have hempty : (withoutBlanks expression).toList = [] ↔ ∀ c ∈ expression.toList, isBlank c := by
    simp [withoutBlanks]
  rw [compact_eq_match, ← hempty]
  constructor
  · intro h
    split at h
    · next hnil => exact hnil
    · split at h <;> cases h
  · intro h
    rw [if_pos h]

/-- The first character that is neither a blank nor in the alphabet stands at this position. -/
structure FirstForeign (expression : String) (c : Char) (position : Nat) : Prop where
  getElem?_eq : expression.toList[position]? = some c
  not_isBlank : ¬isBlank c
  not_mem_alphabet : c ∉ alphabet
  before : ∀ d ∈ expression.toList.take position, isBlank d ∨ d ∈ alphabet

theorem exists_firstRefused_iff {expression : String} {c : Char} {position : Nat} :
    (∃ rank, FirstRefused expression rank c position) ↔ FirstForeign expression c position := by
  constructor
  · intro h
    obtain ⟨rank, h⟩ := h
    exact ⟨h.getElem?_eq, h.not_isBlank, mt isAccepted_iff_mem_alphabet.2 h.not_isAccepted,
      fun d hd => (h.before d hd).imp_right isAccepted_iff_mem_alphabet.1⟩
  · intro h
    exact ⟨_, h.getElem?_eq, rfl, h.not_isBlank,
      mt isAccepted_iff_mem_alphabet.1 h.not_mem_alphabet,
      fun d hd => (h.before d hd).imp_right isAccepted_iff_mem_alphabet.2⟩

theorem compact_eq_ok_iff_alphabet {expression text : String} :
    compact expression = .ok text ↔
      (∃ c ∈ expression.toList, ¬isBlank c) ∧
        (∀ c ∈ expression.toList, isBlank c ∨ c ∈ alphabet) ∧ text = withoutBlanks expression := by
  have hsome : (withoutBlanks expression).toList ≠ [] ↔ ∃ c ∈ expression.toList, ¬isBlank c := by
    simp [withoutBlanks]
  have hall : (∀ c ∈ (withoutBlanks expression).toList, isAccepted c) ↔
      ∀ c ∈ expression.toList, isBlank c ∨ c ∈ alphabet := by
    rw [← admissible_iff]
    exact forall₂_congr fun c _ => or_congr_right isAccepted_iff_mem_alphabet
  rw [compact_eq_ok_iff, ← hsome, ← hall]
  constructor
  · rintro ⟨rfl, hne, haccepted⟩
    exact ⟨hne, haccepted, rfl⟩
  · rintro ⟨hne, haccepted, rfl⟩
    exact ⟨rfl, hne, haccepted⟩

/-- The result of the filter: an error if there are only blanks, an error at the first foreign
character, and otherwise the text without its blanks. -/
structure IsFilter (expression : String) (result : Except EvalError String) : Prop where
  eq_walk : result = walk expression
  empty_iff : result = .error .emptyExpression ↔ ∀ c ∈ expression.toList, isBlank c
  foreign_iff : ∀ c position, result = .error (.invalidCharacter c position) ↔
    FirstForeign expression c position
  ok_iff : ∀ text, result = .ok text ↔ (∃ c ∈ expression.toList, ¬isBlank c) ∧
    (∀ c ∈ expression.toList, isBlank c ∨ c ∈ alphabet) ∧
    text = String.ofList (expression.toList.filter fun c => !isBlank c)

theorem compact_idempotent {expression text : String} (h : compact expression = .ok text) :
    compact text = .ok text := by
  obtain ⟨-, hne, haccepted⟩ := compact_eq_ok_iff.1 h
  exact compact_eq_ok_iff.2 ⟨(withoutBlanks_eq_self haccepted).symm, hne, haccepted⟩

theorem compact_append {left right leftText rightText : String}
    (hleft : compact left = .ok leftText) (hright : compact right = .ok rightText) :
    compact (left ++ right) = .ok (leftText ++ rightText) := by
  obtain ⟨rfl, hne, haccepted⟩ := compact_eq_ok_iff.1 hleft
  obtain ⟨rfl, -, haccepted'⟩ := compact_eq_ok_iff.1 hright
  refine compact_eq_ok_iff.2 ⟨(withoutBlanks_append left right).symm, ?_, ?_⟩
  · rw [String.toList_append]
    exact List.append_ne_nil_of_left_ne_nil hne _
  · rw [String.toList_append]
    exact List.forall_mem_append.2 ⟨haccepted, haccepted'⟩

/-- **The compact text is a filter** that stops at the first foreign character. It is not empty and
lies in the alphabet, it is its own compact text, and it is compatible with concatenation. -/
theorem compact_isFilter (expression : String) :
    IsFilter expression (compact expression) ∧
      ∀ text, compact expression = .ok text →
        text ≠ "" ∧ (∀ c ∈ text.toList, c ∈ alphabet) ∧ compact text = .ok text ∧
          ∀ other otherText, compact other = .ok otherText →
            compact (expression ++ other) = .ok (text ++ otherText) := by
  constructor
  · constructor
    case eq_walk => exact compact_eq_walk expression
    case empty_iff => exact compact_eq_emptyExpression_iff
    case foreign_iff =>
      intro c position
      rw [compact_eq_invalidCharacter_iff, exists_firstRefused_iff]
    case ok_iff => exact fun _ => compact_eq_ok_iff_alphabet
  · intro text h
    obtain ⟨-, hne, haccepted⟩ := compact_eq_ok_iff.1 h
    refine ⟨?_, fun c hc => isAccepted_iff_mem_alphabet.1 (haccepted c hc), compact_idempotent h,
      fun other otherText hother => compact_append h hother⟩
    rintro rfl
    exact hne rfl

/-- Blanks of several bytes before and behind a foreign character, and between the digits of a
number. -/
theorem compact_isFilter_in_halves :
    FirstForeign "\u3000 1\u00a0é2 " 'é' 4 ∧ compact "\u3000 1\u00a02 " = .ok "12" := by
  obtain ⟨hforeign, -⟩ := compact_isFilter "\u3000 1\u00a0é2 "
  obtain ⟨-, hhalves⟩ := compact_isFilter "\u3000 1\u00a0"
  have hleft : compact "\u3000 1\u00a0" = .ok "1" := by decide +kernel
  have hright : compact "2 " = .ok "2" := by decide +kernel
  obtain ⟨-, -, -, happend⟩ := hhalves _ hleft
  exact ⟨(hforeign.foreign_iff _ _).1 (by decide +kernel), happend _ _ hright⟩

end Calculator
