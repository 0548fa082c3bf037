import Calculator.Proofs.Acceptance
import Calculator.Proofs.Release
import Mathlib.Data.List.Sort

/-!
# The order of a listing

A listing has the tokens of an expression without its parentheses, in the order in which they are
released: a number at its own place, an operator at its release point, and operators with one
release point from the newest to the oldest (`Token.inReleaseOrder`). This holds of every text that
is converted, also where operands and operators do not alternate and there is no tree.

Sorted by release, the places form groups, one for each release point
(`Token.releaseOrder_eq_flatMap`). A yard that has taken the tokens up to a place has put out the
groups before it, and its waiting operators are, scope by scope, those that wait there
(`Yard.Follows`). An operator releases from the top of its scope while the precedence is high
enough. As the precedences decrease from the top, this selects all that are high enough.

Main result: `toPostorder_eq_ok_iff_inReleaseOrder`.
-/

namespace Calculator

/-! ## Lists -/

/-- `takeWhile` is `filter` if no element behind one without the property has it. -/
theorem takeWhile_eq_filter_of_pairwise {α : Type} {p : α → Bool} {l : List α}
    (h : l.Pairwise fun a b => p b → p a) : l.takeWhile p = l.filter p := by
  induction l with
  | nil => rfl
  | cons a l ih =>
    obtain ⟨ha, hl⟩ := List.pairwise_cons.1 h
    by_cases hp : p a
    · rw [List.takeWhile_cons_of_pos hp, List.filter_cons_of_pos hp, ih hl]
    · have hnone : l.filter p = [] :=
        List.filter_eq_nil_iff.2 fun b hb hpb => hp (ha b hb hpb)
      rw [List.takeWhile_cons_of_neg hp, List.filter_cons_of_neg hp, hnone]

theorem dropWhile_eq_filter_of_pairwise {α : Type} {p : α → Bool} {l : List α}
    (h : l.Pairwise fun a b => p b → p a) : l.dropWhile p = l.filter fun a => !p a := by
  induction l with
  | nil => rfl
  | cons a l ih =>
    obtain ⟨ha, hl⟩ := List.pairwise_cons.1 h
    by_cases hp : p a
    · rw [List.dropWhile_cons_of_pos hp, List.filter_cons_of_neg (by simp [hp]), ih hl]
    · have hall : l.filter (fun b => !p b) = l :=
        List.filter_eq_self.2 fun b hb => by simpa using fun hpb => hp (ha b hb hpb)
      rw [List.dropWhile_cons_of_neg hp, List.filter_cons_of_pos (by simpa using hp), hall]

theorem filterMap_filter_of_forall {α β : Type} {f : α → Option β} {p : β → Bool} {q : α → Bool}
    (h : ∀ a b, f a = some b → q a = p b) (l : List α) :
    (l.filter q).filterMap f = (l.filterMap f).filter p := by
  rw [List.filterMap_filter, List.filter_filterMap]
  refine List.filterMap_congr fun a _ => ?_
  cases hb : f a with
  | none => simp
  | some b => simp [h a b hb, Option.filter]

theorem filterMap_getElem?_range {α : Type} (l : List α) :
    (List.range l.length).filterMap (fun i => l[i]?) = l := by
  induction l using List.reverseRecOn with
  | nil => rfl
  | append_singleton l a ih =>
    have hsame : (List.range l.length).filterMap (fun i => (l ++ [a])[i]?) = l := by
      conv_rhs => rw [← ih]
      refine List.filterMap_congr fun i hi => ?_
      exact List.getElem?_append_left (List.mem_range.1 hi)
    rw [List.length_append, List.length_singleton, List.range_succ, List.filterMap_append, hsame]
    simp

namespace Token

/-! ## The order of release -/

/-- The place at which a token is released: that of the releasing token for an operator, and its own
for a number. -/
def releaseKey (tokens : List Token) (i : Nat) : Nat :=
  if (operatorAt? tokens i).isSome then releasePoint tokens i else i

/-- Whether there is a number or an operator at a place. -/
def isKeptAt (tokens : List Token) (i : Nat) : Bool :=
  tokens[i]?.any fun t => !t.isParenthesis

/-- Whether a place is released before another; of places with one release point, the last goes
first. -/
def leavesBefore (tokens : List Token) (i j : Nat) : Bool :=
  releaseKey tokens i < releaseKey tokens j ∨ (releaseKey tokens i = releaseKey tokens j ∧ j ≤ i)

/-- The places of numbers and operators, sorted by release. -/
def releaseOrder (tokens : List Token) : List Nat :=
  ((List.range tokens.length).filter (isKeptAt tokens)).mergeSort (leavesBefore tokens)

/-- Numbers and operators in the order in which they are released. -/
def inReleaseOrder (tokens : List Token) : List Token :=
  (releaseOrder tokens).filterMap fun i => tokens[i]?

/-! ## Groups -/

/-- The places that are released at a given one, the last first. -/
def leaving (tokens : List Token) (m : Nat) : List Nat :=
  (List.range tokens.length).reverse.filter fun i => isKeptAt tokens i && releaseKey tokens i == m

/-- The places that wait at a given one in the scope this far out, the last first. -/
def waitingAt (tokens : List Token) (m depth : Nat) : List Nat :=
  (List.range m).reverse.filter fun i => Waits tokens m depth i

variable {tokens : List Token} {m i : Nat} {t : Token}

theorem pairwise_gt_leaving (tokens : List Token) (m : Nat) :
    (leaving tokens m).Pairwise (· > ·) :=
  (List.pairwise_reverse.2 List.pairwise_lt_range).filter _

theorem pairwise_gt_waitingAt (tokens : List Token) (m depth : Nat) :
    (waitingAt tokens m depth).Pairwise (· > ·) :=
  (List.pairwise_reverse.2 List.pairwise_lt_range).filter _

theorem mem_leaving : i ∈ leaving tokens m ↔
    i < tokens.length ∧ isKeptAt tokens i ∧ releaseKey tokens i = m := by
  simp [leaving]

theorem mem_waitingAt {depth : Nat} : i ∈ waitingAt tokens m depth ↔ Waits tokens m depth i := by
  simp only [waitingAt, List.mem_filter, List.mem_reverse, List.mem_range, decide_eq_true_eq]
  exact ⟨fun h => h.2, fun h => ⟨h.1, h⟩⟩

/-- A place is released before another, or together with it and stands behind it. -/
def Precedes (tokens : List Token) (i j : Nat) : Prop :=
  releaseKey tokens i < releaseKey tokens j ∨ (releaseKey tokens i = releaseKey tokens j ∧ j < i)

theorem releaseKey_le (hi : i < tokens.length) : releaseKey tokens i ≤ tokens.length := by
  unfold releaseKey
  split
  · exact releasePoint_le tokens i
  · exact hi.le

theorem pairwise_precedes_flatMap (tokens : List Token) (n : Nat) :
    ((List.range n).flatMap (leaving tokens)).Pairwise (Precedes tokens) := by
  refine List.pairwise_flatMap.2 ⟨fun m _ => ?_, ?_⟩
  · refine (pairwise_gt_leaving tokens m).imp_of_mem fun hi hj hlt => ?_
    exact .inr ⟨(mem_leaving.1 hi).2.2.trans (mem_leaving.1 hj).2.2.symm, hlt⟩
  · refine List.pairwise_lt_range.imp fun hlt i hi j hj => ?_
    rw [Precedes, (mem_leaving.1 hi).2.2, (mem_leaving.1 hj).2.2]
    exact .inl hlt

theorem Precedes.ne {i j : Nat} (h : Precedes tokens i j) : i ≠ j := by
  unfold Precedes at h
  rintro rfl
  omega

theorem pairwise_releaseOrder (tokens : List Token) :
    (releaseOrder tokens).Pairwise fun i j => leavesBefore tokens i j := by
  refine List.pairwise_mergeSort ?_ ?_ _
  · intro i j k
    simp only [leavesBefore, decide_eq_true_eq]
    omega
  · intro i j
    simp only [leavesBefore, Bool.or_eq_true, decide_eq_true_eq]
    omega

theorem releaseOrder_perm_flatMap (tokens : List Token) :
    (releaseOrder tokens).Perm ((List.range (tokens.length + 1)).flatMap (leaving tokens)) := by
  refine (List.mergeSort_perm _ _).trans ((List.perm_ext_iff_of_nodup ?_ ?_).2 fun i => ?_)
  · exact List.nodup_range.filter _
  · exact (pairwise_precedes_flatMap tokens _).imp Precedes.ne
  · simp only [List.mem_filter, List.mem_range, List.mem_flatMap, mem_leaving]
    constructor
    · rintro ⟨hi, hkept⟩
      exact ⟨_, Nat.lt_succ_of_le (releaseKey_le hi), hi, hkept, rfl⟩
    · rintro ⟨_, -, hi, hkept, -⟩
      exact ⟨hi, hkept⟩

/-- **Sorted by release, the places form groups by release point.** -/
theorem releaseOrder_eq_flatMap (tokens : List Token) :
    releaseOrder tokens = (List.range (tokens.length + 1)).flatMap (leaving tokens) := by
  refine List.Perm.eq_of_pairwise ?_ (pairwise_releaseOrder tokens)
    ((pairwise_precedes_flatMap tokens _).imp ?_) (releaseOrder_perm_flatMap tokens)
  · intro i j _ _
    simp only [leavesBefore, decide_eq_true_eq]
    omega
  · intro i j
    simp only [leavesBefore, Precedes, decide_eq_true_eq]
    omega

theorem perm_inReleaseOrder (tokens : List Token) :
    (inReleaseOrder tokens).Perm (tokens.filter fun t => !t.isParenthesis) := by
  refine ((List.mergeSort_perm _ _).filterMap _).trans ?_
  rw [filterMap_filter_of_forall (p := fun t => !t.isParenthesis)
    (fun i t ht => by rw [isKeptAt, ht, Option.any_some]), filterMap_getElem?_range]

/-- Whether there is a number at a place. -/
def isNumberAt (tokens : List Token) (i : Nat) : Bool :=
  tokens[i]?.any isNumber

theorem releaseKey_of_isNumberAt (h : isNumberAt tokens i) :
    isKeptAt tokens i ∧ releaseKey tokens i = i := by
  obtain ⟨t, ht, hnumber⟩ := (Option.any_eq_true _ _).1 h
  rw [isKeptAt, releaseKey, operatorAt?, ht]
  cases t <;> cases hnumber
  exact ⟨rfl, rfl⟩

theorem filter_isNumberAt_releaseOrder (tokens : List Token) :
    (releaseOrder tokens).filter (isNumberAt tokens) =
      (List.range tokens.length).filter (isNumberAt tokens) := by
  refine List.Pairwise.eq_of_mem_iff (r := (· < ·)) ?_ (List.pairwise_lt_range.filter _) ?_
  · rw [releaseOrder_eq_flatMap]
    refine ((pairwise_precedes_flatMap tokens _).filter _).imp_of_mem fun hi hj hbefore => ?_
    rw [Precedes, (releaseKey_of_isNumberAt (List.mem_filter.1 hi).2).2,
      (releaseKey_of_isNumberAt (List.mem_filter.1 hj).2).2] at hbefore
    omega
  · intro i
    simp only [releaseOrder, List.mem_filter, List.mem_mergeSort]
    exact ⟨fun h => ⟨h.1.1, h.2⟩, fun h => ⟨⟨h.1, (releaseKey_of_isNumberAt h.2).1⟩, h.2⟩⟩

theorem filter_isNumber_inReleaseOrder (tokens : List Token) :
    (inReleaseOrder tokens).filter isNumber = tokens.filter isNumber := by
  have hplaces (places : List Nat) : (places.filterMap fun i => tokens[i]?).filter isNumber =
      (places.filter (isNumberAt tokens)).filterMap fun i => tokens[i]? :=
    (filterMap_filter_of_forall (fun i t ht => by rw [isNumberAt, ht, Option.any_some]) places).symm
  rw [inReleaseOrder, hplaces, filter_isNumberAt_releaseOrder, ← hplaces, filterMap_getElem?_range]

/-! ## Operators released by a token -/

theorem isKeptAt_eq (ht : tokens[i]? = some t) : isKeptAt tokens i = !t.isParenthesis := by
  rw [isKeptAt, ht, Option.any_some]

theorem isKeptAt_of_operatorAt? {o : Operator} (ho : operatorAt? tokens i = some o) :
    isKeptAt tokens i := by
  rw [isKeptAt_eq (getElem?_eq_op ho)]
  rfl

/-- A number is released at its own place, an operator by the token that ends its wait. -/
theorem mem_leaving_iff (ht : tokens[m]? = some t) :
    i ∈ leaving tokens m ↔ (i = m ∧ t.isNumber) ∨
      (Waits tokens m 0 i ∧ ∃ o ∈ operatorAt? tokens i, endsWait o t) := by
  have hm := lt_length_of_getElem? ht
  rw [mem_leaving, releaseKey]
  cases ho : operatorAt? tokens i with
  | none =>
    simp only [Option.isSome_none, Bool.false_eq_true, if_false, Option.mem_def, reduceCtorEq,
      false_and, exists_false, and_false, or_false]
    constructor
    · rintro ⟨-, hkept, rfl⟩
      rw [operatorAt?_eq ht] at ho
      rw [isKeptAt_eq ht] at hkept
      cases t <;> simp_all [isParenthesis, isNumber, operator?]
    · rintro ⟨rfl, hnumber⟩
      rw [isKeptAt_eq ht]
      cases t <;> simp_all [isParenthesis, isNumber]
  | some o =>
    have hnumber : ¬(i = m ∧ t.isNumber) := by
      rintro ⟨rfl, hnumber⟩
      rw [getElem?_eq_op ho] at ht
      cases ht
      cases hnumber
    have hlt := lt_length_of_getElem? (getElem?_eq_op ho)
    rw [Option.isSome_some, if_pos rfl, releasePoint_eq_iff hm, releases_iff ht, ho,
      or_iff_right hnumber, and_iff_right hlt, and_iff_right (isKeptAt_of_operatorAt? ho)]

theorem mem_leaving_length_iff (h : Balanced tokens) :
    i ∈ leaving tokens tokens.length ↔ Waits tokens tokens.length 0 i := by
  rw [mem_leaving, waits_length_iff h, releaseKey]
  cases ho : operatorAt? tokens i with
  | none =>
    simp only [Option.isSome_none, Bool.false_eq_true, if_false, false_and, iff_false]
    rintro ⟨hlt, -, heq⟩
    exact hlt.ne heq
  | some o =>
    have hlt := lt_length_of_getElem? (getElem?_eq_op ho)
    rw [Option.isSome_some, if_pos rfl, releasePoint_eq_length_iff, and_iff_right hlt,
      and_iff_right (isKeptAt_of_operatorAt? ho), and_iff_right rfl]

theorem leaving_num {text : String} (ht : tokens[m]? = some (.num text)) :
    leaving tokens m = [m] := by
  refine (pairwise_gt_leaving tokens m).eq_of_mem_iff (List.pairwise_singleton _ _) fun i => ?_
  simp [mem_leaving_iff ht, isNumber, endsWait]

theorem leaving_lparen (ht : tokens[m]? = some .lparen) : leaving tokens m = [] := by
  refine List.eq_nil_iff_forall_not_mem.2 fun i => ?_
  simp [mem_leaving_iff ht, isNumber, endsWait]

theorem leaving_rparen (ht : tokens[m]? = some .rparen) :
    leaving tokens m = waitingAt tokens m 0 := by
  refine (pairwise_gt_leaving tokens m).eq_of_mem_iff (pairwise_gt_waitingAt tokens m 0) fun i => ?_
  rw [mem_leaving_iff ht, mem_waitingAt]
  constructor
  · rintro (⟨-, hnumber⟩ | ⟨hwaits, -⟩)
    · cases hnumber
    · exact hwaits
  · intro hwaits
    obtain ⟨o, ho⟩ := Option.isSome_iff_exists.1 hwaits.2.1
    exact .inr ⟨hwaits, o, ho, rfl⟩

theorem leaving_op {p : Operator} (ht : tokens[m]? = some (.op p)) :
    leaving tokens m = (waitingAt tokens m 0).filter fun i =>
      (operatorAt? tokens i).any (Yard.releases p) := by
  refine (pairwise_gt_leaving tokens m).eq_of_mem_iff
    ((pairwise_gt_waitingAt tokens m 0).filter _) fun i => ?_
  rw [mem_leaving_iff ht, List.mem_filter, mem_waitingAt, Option.any_eq_true]
  refine or_iff_right ?_
  rintro ⟨-, hnumber⟩
  cases hnumber

theorem leaving_length (h : Balanced tokens) :
    leaving tokens tokens.length = waitingAt tokens tokens.length 0 :=
  (pairwise_gt_leaving _ _).eq_of_mem_iff (pairwise_gt_waitingAt _ _ _) fun _ =>
    (mem_leaving_length_iff h).trans mem_waitingAt.symm

/-! ## Operators waiting behind a token -/

section

variable {depth depth' m' : Nat}

theorem waitingAt_congr (h : ∀ i, Waits tokens m depth i ↔ Waits tokens m' depth' i) :
    waitingAt tokens m depth = waitingAt tokens m' depth' :=
  (pairwise_gt_waitingAt _ _ _).eq_of_mem_iff (pairwise_gt_waitingAt _ _ _) fun i => by
    rw [mem_waitingAt, mem_waitingAt, h]

theorem waitingAt_succ_num {text : String} (ht : tokens[m]? = some (.num text)) :
    waitingAt tokens (m + 1) depth = waitingAt tokens m depth :=
  waitingAt_congr fun _ => waits_succ_num ht

theorem waitingAt_succ_lparen_zero (ht : tokens[m]? = some .lparen) :
    waitingAt tokens (m + 1) 0 = [] := by
  refine List.eq_nil_iff_forall_not_mem.2 fun i => ?_
  simp [mem_waitingAt, waits_succ_lparen ht]

theorem waitingAt_succ_lparen_succ (ht : tokens[m]? = some .lparen) :
    waitingAt tokens (m + 1) (depth + 1) = waitingAt tokens m depth :=
  waitingAt_congr fun _ => by simp [waits_succ_lparen ht]

theorem waitingAt_succ_rparen (ht : tokens[m]? = some .rparen) :
    waitingAt tokens (m + 1) depth = waitingAt tokens m (depth + 1) :=
  waitingAt_congr fun _ => waits_succ_rparen ht

theorem waitingAt_succ_op_zero {p : Operator} (ht : tokens[m]? = some (.op p)) :
    waitingAt tokens (m + 1) 0 = m :: (waitingAt tokens m 0).filter fun i =>
      !(operatorAt? tokens i).any (Yard.releases p) := by
  refine (pairwise_gt_waitingAt _ _ _).eq_of_mem_iff ?_ fun i => ?_
  · refine List.pairwise_cons.2 ⟨fun i hi => ?_, (pairwise_gt_waitingAt _ _ _).filter _⟩
    exact (mem_waitingAt.1 (List.mem_of_mem_filter hi)).1
  · rw [List.mem_cons, List.mem_filter, mem_waitingAt, mem_waitingAt, waits_succ_op ht]
    refine or_congr (by simp) (and_congr_right fun hwaits => ?_)
    obtain ⟨o, ho⟩ := Option.isSome_iff_exists.1 hwaits.2.1
    simp [ho, Yard.releases]

theorem waitingAt_succ_op_succ {p : Operator} (ht : tokens[m]? = some (.op p)) :
    waitingAt tokens (m + 1) (depth + 1) = waitingAt tokens m (depth + 1) :=
  waitingAt_congr fun _ => by simp [waits_succ_op ht]

end

/-! ## Operators at places -/

/-- The operators that wait at a place in the scope this far out, the last first. -/
def operatorsAt (tokens : List Token) (m depth : Nat) : List Operator :=
  (waitingAt tokens m depth).filterMap (operatorAt? tokens)

theorem filterMap_getElem?_of_operators {places : List Nat}
    (h : ∀ i ∈ places, (operatorAt? tokens i).isSome) :
    places.filterMap (fun i => tokens[i]?) = (places.filterMap (operatorAt? tokens)).map .op := by
  rw [List.map_filterMap]
  refine List.filterMap_congr fun i hi => ?_
  obtain ⟨o, ho⟩ := Option.isSome_iff_exists.1 (h i hi)
  rw [getElem?_eq_op ho, ho, Option.map_some]

theorem filterMap_waitingAt (tokens : List Token) (m depth : Nat) :
    (waitingAt tokens m depth).filterMap (fun i => tokens[i]?) =
      (operatorsAt tokens m depth).map .op :=
  filterMap_getElem?_of_operators fun _ hi => (mem_waitingAt.1 hi).2.1

/-- In a scope the precedences decrease from the newest operator on, so if one is too low to be
released, so are those behind it. -/
theorem pairwise_releases_operatorsAt (tokens : List Token) (m : Nat) (p : Operator) :
    (operatorsAt tokens m 0).Pairwise fun a b => Yard.releases p b → Yard.releases p a := by
  refine List.pairwise_filterMap.2 ((pairwise_gt_waitingAt tokens m 0).imp_of_mem ?_)
  intro i j hi hj hlt a ha b hb
  have := (mem_waitingAt.1 hj).precedence_lt (mem_waitingAt.1 hi) hlt hb ha
  simp only [Yard.releases, decide_eq_true_eq]
  omega

theorem filterMap_leaving_op {p : Operator} (ht : tokens[m]? = some (.op p)) :
    (leaving tokens m).filterMap (fun i => tokens[i]?) =
      ((operatorsAt tokens m 0).takeWhile (Yard.releases p)).map .op := by
  have hoperators : ∀ i ∈ leaving tokens m, (operatorAt? tokens i).isSome := by
    intro i hi
    rw [leaving_op ht] at hi
    exact (mem_waitingAt.1 (List.mem_of_mem_filter hi)).2.1
  rw [filterMap_getElem?_of_operators hoperators, leaving_op ht,
    takeWhile_eq_filter_of_pairwise (pairwise_releases_operatorsAt tokens m p), operatorsAt,
    filterMap_filter_of_forall (p := Yard.releases p) (fun i o ho => by rw [ho, Option.any_some])]

theorem operatorsAt_succ_op {p : Operator} (ht : tokens[m]? = some (.op p)) :
    operatorsAt tokens (m + 1) 0 =
      p :: (operatorsAt tokens m 0).dropWhile (Yard.releases p) := by
  rw [dropWhile_eq_filter_of_pairwise (pairwise_releases_operatorsAt tokens m p), operatorsAt,
    operatorsAt, waitingAt_succ_op_zero ht, List.filterMap_cons_some (operatorAt?_eq ht),
    filterMap_filter_of_forall (p := fun o => !Yard.releases p o)
      (fun i o ho => by rw [ho, Option.any_some])]

end Token

/-! ## The yard -/

namespace Yard

open Token

/-- The yard has put out what is released before a place, and its scopes hold the operators that
wait there. -/
structure Follows (tokens : List Token) (m : Nat) (yard : Yard) : Prop where
  output : yard.output.reverse =
    ((List.range m).flatMap (leaving tokens)).filterMap fun i => tokens[i]?
  scopes : ∀ depth scope, (yard.waiting :: yard.outer)[depth]? = some scope →
    scope = operatorsAt tokens m depth

variable {tokens : List Token} {m : Nat} {t : Token} {yard next : Yard}

theorem Follows.waiting (h : yard.Follows tokens m) : yard.waiting = operatorsAt tokens m 0 :=
  h.scopes 0 yard.waiting rfl

theorem Follows.output_append (h : yard.Follows tokens m) :
    ((List.range (m + 1)).flatMap (leaving tokens)).filterMap (fun i => tokens[i]?) =
      yard.output.reverse ++ (leaving tokens m).filterMap fun i => tokens[i]? := by
  rw [List.range_succ, List.flatMap_append, List.filterMap_append, h.output, List.flatMap_singleton]

/-- A token puts out what it releases, and the operators that still wait are those of the next
place. -/
theorem follows_step (h : yard.Follows tokens m) (ht : tokens[m]? = some t)
    (hstep : yard.step t = .ok next) : next.Follows tokens (m + 1) := by
  cases t with
  | num text =>
    cases hstep
    refine ⟨?_, fun depth scope hscope => ?_⟩
    · rw [h.output_append, leaving_num ht]
      simp [ht]
    · rw [h.scopes depth scope hscope, operatorsAt, operatorsAt, waitingAt_succ_num ht]
  | lparen =>
    cases hstep
    refine ⟨?_, fun depth scope hscope => ?_⟩
    · rw [h.output_append, leaving_lparen ht]
      simp
    · cases depth with
      | zero =>
        cases hscope
        rw [operatorsAt, waitingAt_succ_lparen_zero ht]
        rfl
      | succ depth =>
        rw [h.scopes depth scope hscope, operatorsAt, operatorsAt, waitingAt_succ_lparen_succ ht]
  | rparen =>
    cases houter : yard.outer with
    | nil => simp [step, houter] at hstep
    | cons scope outer =>
      simp only [step, houter, Except.ok.injEq] at hstep
      subst hstep
      -- The innermost scope is released; every other scope has its depth reduced by one.
      refine ⟨?_, fun depth scope' hscope => ?_⟩
      · rw [h.output_append, leaving_rparen ht, reverse_emit, filterMap_waitingAt, h.waiting]
      · rw [h.scopes (depth + 1) scope' (by rw [houter]; exact hscope), operatorsAt, operatorsAt,
          waitingAt_succ_rparen ht]
  | op p =>
    cases hstep
    refine ⟨?_, fun depth scope hscope => ?_⟩
    · rw [h.output_append, filterMap_leaving_op ht, reverse_emit, h.waiting]
    · cases depth with
      | zero =>
        cases hscope
        rw [operatorsAt_succ_op ht, h.waiting]
      | succ depth =>
        rw [h.scopes (depth + 1) scope hscope, operatorsAt, operatorsAt, waitingAt_succ_op_succ ht]

/-- **A yard follows the tokens it takes.** -/
theorem follows_steps (hm : m ≤ tokens.length) (h : steps {} (tokens.take m) = .ok yard) :
    yard.Follows tokens m := by
  induction m generalizing yard with
  | zero =>
    cases h
    refine ⟨rfl, fun depth scope hscope => ?_⟩
    cases depth <;> cases hscope
    rfl
  | succ m ih =>
    obtain ⟨t, ht⟩ : ∃ t, tokens[m]? = some t := ⟨_, List.getElem?_eq_getElem hm⟩
    rw [List.take_add_one, ht, Option.toList_some, steps_append] at h
    obtain ⟨middle, hsteps, hlast⟩ := bind_eq_ok_iff.1 h
    obtain ⟨next, hstep, hnext⟩ := bind_eq_ok_iff.1 hlast
    cases hnext
    exact follows_step (ih (Nat.le_of_succ_le hm) hsteps) ht hstep

/-- **A listing is in the order of release.** -/
theorem eq_inReleaseOrder_of_finish {listing : List Token}
    (h : (steps {} tokens >>= finish) = .ok listing) : listing = inReleaseOrder tokens := by
  have hbalanced := (result_isOk_iff tokens).1 ⟨listing, h⟩
  obtain ⟨yard, hsteps, hfinish⟩ := bind_eq_ok_iff.1 h
  rw [← List.take_length (l := tokens)] at hsteps
  have hfollows := follows_steps (Nat.le_refl _) hsteps
  rw [finish_of_outer (outer_of_finish hfinish), reverse_emit] at hfinish
  cases hfinish
  rw [inReleaseOrder, releaseOrder_eq_flatMap, hfollows.output_append, leaving_length hbalanced,
    filterMap_waitingAt, hfollows.waiting]

end Yard

/-- **The order of a listing.** The texts that are converted are exactly those written with tokens
whose parentheses are balanced, and the listing has their numbers and operators in the order in
which they are released. It is a permutation of them that keeps the numbers in their order. -/
theorem toPostorder_eq_ok_iff_inReleaseOrder (text : String) (listing : List Token) :
    (toPostorder text = .ok listing ↔ ∃ tokens, Token.Readable tokens ∧
      text = Token.concat tokens ∧ Token.Balanced tokens ∧
        listing = Token.inReleaseOrder tokens) ∧
    ∀ tokens : List Token,
      (Token.inReleaseOrder tokens).Perm (tokens.filter fun t => !t.isParenthesis) ∧
        (Token.inReleaseOrder tokens).filter Token.isNumber = tokens.filter Token.isNumber := by
  refine ⟨⟨?_, ?_⟩, fun tokens =>
    ⟨Token.perm_inReleaseOrder tokens, Token.filter_isNumber_inReleaseOrder tokens⟩⟩
  · intro h
    obtain ⟨tokens, hread, htext, hresult⟩ := exists_tokens_of_toPostorder h
    exact ⟨tokens, hread, htext, (Yard.result_isOk_iff tokens).1 ⟨_, hresult⟩,
      Yard.eq_inReleaseOrder_of_finish hresult⟩
  · rintro ⟨tokens, hread, rfl, hbalanced, rfl⟩
    obtain ⟨listing, hresult⟩ := (Yard.result_isOk_iff tokens).2 hbalanced
    rw [toPostorder_concat hread, hresult, Yard.eq_inReleaseOrder_of_finish hresult]

/-- A plus in front of its operands waits for both. -/
example : Token.inReleaseOrder [.op .plus, .num "1", .lparen, .num "2", .rparen] =
    [.num "1", .num "2", .op .plus] := by
  cbv

end Calculator
