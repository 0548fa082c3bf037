import Calculator.Proofs.StructuralErrors

/-!
# Blanks make no difference

Two expressions that are equal without their blanks have the same outcome, wherever blanks are
inserted or removed, also inside numbers. All stages but the first depend on the compact text only.
The first one reports a refused character at its position in the expression as given, and this
position is all that blanks can change: the refused character is the same, and so is its rank among
the characters that are not blanks (`FirstRefused.agree`).

Main result: `evaluate_respaced`.
-/

namespace Calculator

/-! ## The first refused character -/

/-- The first refused character stands at this position, and `rank` characters that are not blanks
stand before it. -/
structure FirstRefused (expression : String) (rank : Nat) (c : Char) (position : Nat) : Prop where
  getElem?_eq : expression.toList[position]? = some c
  rank_eq : ((expression.toList.take position).filter fun d => !isBlank d).length = rank
  not_isBlank : ¬isBlank c
  not_isAccepted : ¬isAccepted c
  before : ∀ d ∈ expression.toList.take position, isBlank d ∨ isAccepted d

theorem exists_firstRefused_of_find? {expression : String} {c : Char} {position : Nat}
    (h : expression.toList.zipIdx.find? isRefused = some (c, position)) :
    ∃ rank, FirstRefused expression rank c position := by
  obtain ⟨hrefused, i, hi, hget, hpassed⟩ := List.find?_eq_some_iff_getElem.1 h
  rw [List.length_zipIdx] at hi
  rw [List.getElem_zipIdx, Nat.zero_add] at hget
  cases hget
  obtain ⟨hblank, haccepted⟩ := Bool.and_eq_true_iff.1 hrefused
  refine ⟨_, List.getElem?_eq_getElem hi, rfl, by simpa using hblank, by simpa using haccepted,
    fun d hd => ?_⟩
  obtain ⟨j, hj, rfl⟩ := List.mem_take_iff_getElem.1 hd
  have hbefore := hpassed j (by omega)
  rw [List.getElem_zipIdx] at hbefore
  simpa [isRefused, Decidable.or_iff_not_imp_left] using hbefore

namespace FirstRefused

variable {s t : String} {c d : Char} {rank rank' p q : Nat}

theorem find?_eq (h : FirstRefused s rank c p) :
    s.toList.zipIdx.find? isRefused = some (c, p) := by
  obtain ⟨hp, rfl⟩ := List.getElem?_eq_some_iff.1 h.getElem?_eq
  refine List.find?_eq_some_iff_getElem.2 ⟨?_, p, by rwa [List.length_zipIdx], ?_, fun j hj => ?_⟩
  · simp [isRefused, h.not_isBlank, h.not_isAccepted]
  · rw [List.getElem_zipIdx, Nat.zero_add]
  · have hbefore := h.before _ (List.mem_take_iff_getElem.2 ⟨j, by omega, rfl⟩)
    rw [List.getElem_zipIdx]
    simpa [isRefused, Decidable.or_iff_not_imp_left] using hbefore

/-- Without blanks, the refused character comes directly after `rank` accepted ones. -/
theorem exists_withoutBlanks (h : FirstRefused s rank c p) :
    ∃ before after, (withoutBlanks s).toList = before ++ c :: after ∧ before.length = rank ∧
      ∀ d ∈ before, isAccepted d := by
  obtain ⟨hp, rfl⟩ := List.getElem?_eq_some_iff.1 h.getElem?_eq
  refine ⟨_, (s.toList.drop (p + 1)).filter fun d => !isBlank d, ?_, h.rank_eq, fun d hd => ?_⟩
  · rw [withoutBlanks, String.toList_ofList]
    conv_lhs => rw [← List.take_append_drop p s.toList, List.drop_eq_getElem_cons hp]
    rw [List.filter_append, List.filter_cons_of_pos (by simp [h.not_isBlank])]
  · obtain ⟨hmem, hblank⟩ := List.mem_filter.1 hd
    exact (h.before d hmem).resolve_left (by simpa using hblank)

theorem rank_eq_findIdx (h : FirstRefused s rank c p) :
    (withoutBlanks s).toList.findIdx (fun d => !isAccepted d) = rank ∧
      (withoutBlanks s).toList[rank]? = some c := by
  obtain ⟨before, after, hsplit, rfl, haccepted⟩ := h.exists_withoutBlanks
  have hnone : before.findIdx (fun d => !isAccepted d) = before.length :=
    List.findIdx_eq_length_of_false fun d hd => by simp [haccepted d hd]
  rw [hsplit]
  refine ⟨?_, by simp⟩
  rw [List.findIdx_append, hnone, if_neg (Nat.lt_irrefl _), List.findIdx_cons]
  simp [h.not_isAccepted]

/-- **The refused character and its rank do not depend on blanks.** -/
theorem agree (hs : FirstRefused s rank c p) (ht : FirstRefused t rank' d q)
    (h : withoutBlanks s = withoutBlanks t) : rank = rank' ∧ c = d := by
  obtain ⟨hrank, hchar⟩ := hs.rank_eq_findIdx
  obtain ⟨hrank', hchar'⟩ := ht.rank_eq_findIdx
  rw [h, hrank'] at hrank
  rw [h, ← hrank, hchar'] at hchar
  exact ⟨hrank.symm, (Option.some_inj.1 hchar).symm⟩

end FirstRefused

/-! ## The same outcome -/

/-- Results for two expressions with the same outcome: they are equal, or both refuse the same
character, each at its position in its own expression. -/
inductive SameOutcome (s t : String) {α : Type} : Except EvalError α → Except EvalError α → Prop
  | same {result : Except EvalError α} (h : FailsOnlyWith (·.kind ≠ .invalidCharacter) result) :
      SameOutcome s t result result
  | refused {rank : Nat} {c : Char} {p q : Nat} (hs : FirstRefused s rank c p)
      (ht : FirstRefused t rank c q) :
      SameOutcome s t (.error (.invalidCharacter c p)) (.error (.invalidCharacter c q))

theorem SameOutcome.bind {s t : String} {α β : Type} {x y : Except EvalError α}
    {next : α → Except EvalError β} (h : SameOutcome s t x y)
    (hnext : ∀ a, x = .ok a → FailsOnlyWith (·.isStructural) (next a)) :
    SameOutcome s t (x >>= next) (y >>= next) := by
  cases h with
  | same hx =>
    exact .same (hx.bind fun a ha => (hnext a ha).mono fun _ he =>
      (EvalError.kind_ne_of_isStructural he).1)
  | refused hs ht => exact .refused hs ht

/-! ## The stages -/

/-- Up to the position of a refused character, the compact text does not depend on blanks. -/
theorem sameOutcome_compact {s t : String} (h : withoutBlanks s = withoutBlanks t) :
    SameOutcome s t (compact s) (compact t) := by
  have hnone : s.toList.zipIdx.find? isRefused = none ↔ t.toList.zipIdx.find? isRefused = none := by
    rw [find?_isRefused_eq_none_iff, find?_isRefused_eq_none_iff, String.ofList_injective h]
  rw [compact_eq_match, compact_eq_match, h]
  by_cases hempty : (withoutBlanks t).toList = []
  · rw [if_pos hempty, if_pos hempty]
    exact .same (.error (by decide))
  · rw [if_neg hempty, if_neg hempty]
    cases hs : s.toList.zipIdx.find? isRefused with
    | none =>
      rw [hnone.1 hs]
      exact .same (.ok _)
    | some refusedLeft =>
      cases ht : t.toList.zipIdx.find? isRefused with
      | none =>
        rw [hnone.2 ht] at hs
        cases hs
      | some refusedRight =>
        obtain ⟨c, p⟩ := refusedLeft
        obtain ⟨d, q⟩ := refusedRight
        obtain ⟨rank, hs⟩ := exists_firstRefused_of_find? hs
        obtain ⟨rank', ht⟩ := exists_firstRefused_of_find? ht
        obtain ⟨rfl, rfl⟩ := hs.agree ht h
        exact .refused hs ht

/-! ## The calls -/

namespace Settings

variable {settings : Settings} {s t : String}

theorem sameOutcome_evaluateIn {α : Type} [Operand α] [ReadsLiterals α]
    (hlimit : settings.maxLength = none) (h : withoutBlanks s = withoutBlanks t) :
    SameOutcome s t (settings.evaluateIn α s).result (settings.evaluateIn α t).result := by
  rw [result_evaluateIn, result_evaluateIn, checkLength_of_none hlimit, checkLength_of_none hlimit]
  exact (sameOutcome_compact h).bind fun _ h => failsStructurally_of_compact h

theorem sameOutcome_evaluateDetailed (hlimit : settings.maxLength = none)
    (h : withoutBlanks s = withoutBlanks t) :
    SameOutcome s t (settings.evaluateDetailed s).result (settings.evaluateDetailed t).result := by
  rw [result_evaluateDetailed, result_evaluateDetailed, checkLength_of_none hlimit,
    checkLength_of_none hlimit]
  exact (sameOutcome_compact h).bind fun _ => failsStructurally_of_compact_detailed

end Settings

/-- **Blanks make no difference.** Without a limit on the length, expressions that are equal without
their blanks have the same outcome in every call. -/
theorem evaluate_respaced {settings : Settings} (hlimit : settings.maxLength = none)
    {s t : String} (h : withoutBlanks s = withoutBlanks t) :
    SameOutcome s t (settings.evaluate s).result (settings.evaluate t).result ∧
      SameOutcome s t (settings.evaluateExact s).result (settings.evaluateExact t).result ∧
      SameOutcome s t (settings.evaluateDetailed s).result (settings.evaluateDetailed t).result :=
  ⟨Settings.sameOutcome_evaluateIn hlimit h, Settings.sameOutcome_evaluateIn hlimit h,
    Settings.sameOutcome_evaluateDetailed hlimit h⟩

/-- Blanks of one byte and of two change the position of the refused character. -/
theorem evaluate_respaced_refused :
    ({} : Settings).maxLength = none ∧
      withoutBlanks " 1\u00a02 + é" = withoutBlanks "12+é\t" ∧
      ∃ rank, FirstRefused " 1\u00a02 + é" rank 'é' 7 ∧ FirstRefused "12+é\t" rank 'é' 3 := by
  have hlimit : ({} : Settings).maxLength = none := rfl
  have hblanks : withoutBlanks " 1\u00a02 + é" = withoutBlanks "12+é\t" := by decide
  have hleft : (({} : Settings).evaluate " 1\u00a02 + é").result =
      .error (.invalidCharacter 'é' 7) := by decide +kernel
  have hright : (({} : Settings).evaluate "12+é\t").result =
      .error (.invalidCharacter 'é' 3) := by decide +kernel
  obtain ⟨hsame, -, -⟩ := evaluate_respaced hlimit hblanks
  rw [hleft, hright] at hsame
  refine ⟨hlimit, hblanks, ?_⟩
  cases hsame with
  | refused hs ht => exact ⟨_, hs, ht⟩

/-- A blank does not end a number. -/
example : (({} : Settings).evaluateExact "1 2 + 3").result = .ok 15 := by
  decide +kernel

end Calculator
