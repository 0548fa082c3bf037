import Calculator.Proofs.Parentheses
import Mathlib.Data.List.Infix

/-!
# Where an operator is released

An operator is released by the first later token of its scope that is an operator and does not bind
tighter, or by the parenthesis that closes the scope (`Token.Releases`). If there is none, it waits
to the end.

At any place the waiting operators are those not released so far (`Token.Waits`). The parentheses
left open between an operator and the place count the scopes between them, and the next token
determines which operators still wait behind it: `Token.waits_succ_num`, `waits_succ_op`,
`waits_succ_lparen` and `waits_succ_rparen`.

Of two operators that wait in one scope the newer binds tighter, since it did not release the older
one (`Token.Waits.precedence_lt`). At the end of balanced tokens all waiting operators are in the
outermost scope (`Token.waits_length_iff`).
-/

namespace Calculator

namespace Token

/-! ## Release points -/

instance (depth : Nat) (tokens : List Token) : Decidable (ClosesOpened depth tokens) :=
  decidable_of_iff (∀ start ∈ tokens.inits, start.count .rparen ≤ depth + start.count .lparen)
    (by simp only [ClosesOpened, List.mem_inits])

instance (depth : Nat) (tokens : List Token) : Decidable (Closes depth tokens) :=
  decidable_of_iff
    (ClosesOpened depth tokens ∧ depth + tokens.count .lparen = tokens.count .rparen)
    ⟨fun h => ⟨h.1, h.2⟩, fun h => ⟨h.1, h.2⟩⟩

/-- The operator of a token, if it is one. -/
def operator? : Token → Option Operator
  | op o => some o
  | _ => none

/-- The operator at a place. -/
def operatorAt? (tokens : List Token) (i : Nat) : Option Operator :=
  tokens[i]?.bind operator?

theorem operatorAt?_eq {tokens : List Token} {i : Nat} {t : Token} (ht : tokens[i]? = some t) :
    operatorAt? tokens i = t.operator? := by
  rw [operatorAt?, ht, Option.bind_some]

theorem getElem?_eq_op {tokens : List Token} {i : Nat} {o : Operator}
    (ho : operatorAt? tokens i = some o) : tokens[i]? = some (.op o) := by
  obtain ⟨t, ht, hop⟩ := Option.bind_eq_some_iff.1 ho
  cases t <;> cases hop
  exact ht

/-- The tokens between two places. -/
def between (tokens : List Token) (i j : Nat) : List Token :=
  (tokens.take j).drop (i + 1)

/-- Whether a token of its scope releases an operator: an operator that does not bind tighter does,
and the parenthesis that closes the scope. -/
def endsWait (o : Operator) : Token → Bool
  | op p => p.precedence ≤ o.precedence
  | rparen => true
  | _ => false

/-- The token at the later place releases the operator at the earlier one. They are in one scope if
the parentheses between them are balanced. -/
def Releases (tokens : List Token) (i j : Nat) : Prop :=
  i < j ∧ Balanced (between tokens i j) ∧
    ∃ o ∈ operatorAt? tokens i, ∃ t ∈ tokens[j]?, endsWait o t

instance (tokens : List Token) (i j : Nat) : Decidable (Releases tokens i j) :=
  inferInstanceAs (Decidable (_ ∧ _ ∧ _))

/-- The first place at which the operator at a place is released, or the end of the tokens. -/
def releasePoint (tokens : List Token) (i : Nat) : Nat :=
  ((List.range tokens.length).find? fun j => Releases tokens i j).getD tokens.length

/-- No token before a place has released the operator at another. -/
def Unreleased (tokens : List Token) (m i : Nat) : Prop :=
  ∀ j < m, ¬Releases tokens i j

instance (tokens : List Token) (m i : Nat) : Decidable (Unreleased tokens m i) :=
  inferInstanceAs (Decidable (∀ j < m, ¬_))

theorem unreleased_succ {tokens : List Token} {m i : Nat} :
    Unreleased tokens (m + 1) i ↔ Unreleased tokens m i ∧ ¬Releases tokens i m :=
  Nat.forall_lt_succ_right

theorem releasePoint_eq_iff {tokens : List Token} {m i : Nat} (hm : m < tokens.length) :
    releasePoint tokens i = m ↔ Releases tokens i m ∧ Unreleased tokens m i := by
  have hfind : (List.range tokens.length).find? (fun j => Releases tokens i j) = some m ↔
      Releases tokens i m ∧ Unreleased tokens m i := by
    simp [List.find?_range_eq_some, Unreleased, hm]
  rw [← hfind, releasePoint]
  cases h : (List.range tokens.length).find? (fun j => Releases tokens i j) with
  | none => simp [hm.ne']
  | some j => simp

theorem releasePoint_eq_length_iff {tokens : List Token} {i : Nat} :
    releasePoint tokens i = tokens.length ↔ Unreleased tokens tokens.length i := by
  rw [releasePoint]
  cases h : (List.range tokens.length).find? (fun j => Releases tokens i j) with
  | none =>
    have hnone := List.find?_eq_none.1 h
    simpa [Unreleased] using hnone
  | some j =>
    obtain ⟨hj, hlt, -⟩ := List.find?_range_eq_some.1 h
    have hlt : j < tokens.length := List.mem_range.1 hlt
    simp only [Option.getD_some, hlt.ne, false_iff]
    exact fun hnone => hnone j hlt (by simpa using hj)

theorem releasePoint_le (tokens : List Token) (i : Nat) :
    releasePoint tokens i ≤ tokens.length := by
  rw [releasePoint]
  cases h : (List.range tokens.length).find? (fun j => Releases tokens i j) with
  | none => exact Nat.le_refl _
  | some j => exact (List.mem_range.1 (List.find?_range_eq_some.1 h).2.1).le

/-! ## Tokens between two places -/

section

variable {tokens : List Token} {i j m : Nat} {t : Token}

theorem lt_length_of_getElem? (ht : tokens[m]? = some t) : m < tokens.length :=
  (List.getElem?_eq_some_iff.1 ht).1

theorem between_succ (h : i < m) (ht : tokens[m]? = some t) :
    between tokens i (m + 1) = between tokens i m ++ [t] := by
  have hm := lt_length_of_getElem? ht
  rw [between, List.take_add_one, ht, Option.toList_some,
    List.drop_append_of_le_length (by rw [List.length_take]; omega)]
  rfl

theorem between_self_succ (tokens : List Token) (m : Nat) : between tokens m (m + 1) = [] := by
  rw [between, List.drop_eq_nil_iff, List.length_take]
  omega

theorem take_eq_append_between (him : i < m) (ht : tokens[i]? = some t) :
    tokens.take m = tokens.take i ++ t :: between tokens i m := by
  have hget : (tokens.take m)[i]? = some t := by rw [List.getElem?_take_of_lt him, ht]
  obtain ⟨hlt, rfl⟩ := List.getElem?_eq_some_iff.1 hget
  conv_lhs => rw [← List.take_append_drop i (tokens.take m), List.drop_eq_getElem_cons hlt]
  rw [List.take_take, Nat.min_eq_left him.le]
  rfl

theorem between_split (hji : j < i) (him : i < m) (ht : tokens[i]? = some t) :
    between tokens j m = between tokens j i ++ t :: between tokens i m := by
  have hi := lt_length_of_getElem? ht
  rw [between, take_eq_append_between him ht,
    List.drop_append_of_le_length (by rw [List.length_take]; omega)]
  rfl

end

/-! ## Open parentheses -/

/-- The tokens close only their own parentheses, and leave this many open. -/
def LeavesOpen (depth : Nat) (tokens : List Token) : Prop :=
  ClosesOpened 0 tokens ∧ tokens.count .lparen = tokens.count .rparen + depth

instance (depth : Nat) (tokens : List Token) : Decidable (LeavesOpen depth tokens) :=
  inferInstanceAs (Decidable (_ ∧ _))

theorem leavesOpen_zero_iff {tokens : List Token} : LeavesOpen 0 tokens ↔ Balanced tokens := by
  constructor
  · intro h
    exact ⟨h.1, (Nat.zero_add _).trans h.2⟩
  · intro h
    exact ⟨h.opened, (Nat.zero_add _).symm.trans h.all⟩

theorem leavesOpen_nil_iff {depth : Nat} : LeavesOpen depth [] ↔ depth = 0 := by
  constructor
  · intro h
    simpa using h.2.symm
  · rintro rfl
    exact ⟨closesOpened_nil 0, rfl⟩

theorem LeavesOpen.unique {depth depth' : Nat} {tokens : List Token} (h : LeavesOpen depth tokens)
    (h' : LeavesOpen depth' tokens) : depth = depth' := by
  have := h.2
  have := h'.2
  omega

theorem ClosesOpened.count_le {tokens : List Token} (h : ClosesOpened 0 tokens) :
    tokens.count .rparen ≤ tokens.count .lparen := by
  simpa using h tokens (List.prefix_refl tokens)

theorem closesOpened_concat {tokens : List Token} {t : Token} :
    ClosesOpened 0 (tokens ++ [t]) ↔ ClosesOpened 0 tokens ∧
      (tokens ++ [t]).count .rparen ≤ (tokens ++ [t]).count .lparen := by
  constructor
  · intro h
    exact ⟨fun start hstart => h start (hstart.trans (List.prefix_append _ _)), h.count_le⟩
  · rintro ⟨h, hall⟩ start hstart
    rcases List.prefix_concat_iff.1 hstart with rfl | hstart
    · rwa [Nat.zero_add]
    · exact h start hstart

theorem leavesOpen_concat_of_ne {depth : Nat} {tokens : List Token} {t : Token} (hl : t ≠ .lparen)
    (hr : t ≠ .rparen) : LeavesOpen depth (tokens ++ [t]) ↔ LeavesOpen depth tokens := by
  have hcount (p : Token) (hp : t ≠ p) : (tokens ++ [t]).count p = tokens.count p := by
    rw [List.count_append, List.count_singleton, if_neg (by simpa using hp), Nat.add_zero]
  rw [LeavesOpen, LeavesOpen, closesOpened_concat, hcount _ hl, hcount _ hr]
  exact ⟨fun h => ⟨h.1.1, h.2⟩, fun h => ⟨⟨h.1, h.1.count_le⟩, h.2⟩⟩

theorem leavesOpen_concat_lparen {depth : Nat} {tokens : List Token} :
    LeavesOpen depth (tokens ++ [.lparen]) ↔ ∃ d, depth = d + 1 ∧ LeavesOpen d tokens := by
  have hl : (tokens ++ [lparen]).count lparen = tokens.count lparen + 1 := by simp
  have hr : (tokens ++ [lparen]).count rparen = tokens.count rparen := by simp
  rw [LeavesOpen, closesOpened_concat, hl, hr]
  constructor
  · rintro ⟨⟨hopened, -⟩, hcount⟩
    have hle := hopened.count_le
    exact ⟨depth - 1, by omega, hopened, by omega⟩
  · rintro ⟨d, rfl, hopened, hcount⟩
    exact ⟨⟨hopened, by omega⟩, by omega⟩

theorem leavesOpen_concat_rparen {depth : Nat} {tokens : List Token} :
    LeavesOpen depth (tokens ++ [.rparen]) ↔ LeavesOpen (depth + 1) tokens := by
  have hl : (tokens ++ [rparen]).count lparen = tokens.count lparen := by simp
  have hr : (tokens ++ [rparen]).count rparen = tokens.count rparen + 1 := by simp
  rw [LeavesOpen, LeavesOpen, closesOpened_concat, hl, hr]
  constructor
  · rintro ⟨⟨hopened, -⟩, hcount⟩
    exact ⟨hopened, by omega⟩
  · rintro ⟨hopened, hcount⟩
    exact ⟨⟨hopened, by omega⟩, by omega⟩

theorem ClosesOpened.of_append {ts us : List Token} (h : ClosesOpened 0 (ts ++ us)) :
    ClosesOpened 0 ts :=
  fun start hstart => h start (hstart.trans (List.prefix_append ts us))

/-! ## Operators that wait -/

/-- The operator at a place waits at another, this many scopes farther out. -/
def Waits (tokens : List Token) (m depth i : Nat) : Prop :=
  i < m ∧ (operatorAt? tokens i).isSome ∧ LeavesOpen depth (between tokens i m) ∧
    Unreleased tokens m i

instance (tokens : List Token) (m depth i : Nat) : Decidable (Waits tokens m depth i) :=
  inferInstanceAs (Decidable (_ ∧ _ ∧ _ ∧ _))

section

variable {tokens : List Token} {m depth i : Nat} {t : Token}

theorem releases_iff (ht : tokens[m]? = some t) :
    Releases tokens i m ∧ Unreleased tokens m i ↔
      Waits tokens m 0 i ∧ ∃ o ∈ operatorAt? tokens i, endsWait o t := by
  simp only [Releases, Waits, ht, Option.mem_some_iff, exists_eq_left', leavesOpen_zero_iff]
  constructor
  · rintro ⟨⟨hlt, hbalanced, o, ho, hends⟩, hunreleased⟩
    exact ⟨⟨hlt, Option.isSome_iff_exists.2 ⟨o, ho⟩, hbalanced, hunreleased⟩, o, ho, hends⟩
  · rintro ⟨⟨hlt, -, hbalanced, hunreleased⟩, o, ho, hends⟩
    exact ⟨⟨hlt, hbalanced, o, ho, hends⟩, hunreleased⟩

/-- At the next place an operator waits if it is the token in between, or if it waited before and
this token does not release it. -/
theorem waits_succ_iff (ht : tokens[m]? = some t) :
    Waits tokens (m + 1) depth i ↔
      (i = m ∧ depth = 0 ∧ t.operator?.isSome) ∨
        (i < m ∧ (operatorAt? tokens i).isSome ∧ LeavesOpen depth (between tokens i m ++ [t]) ∧
          Unreleased tokens m i ∧ ¬Releases tokens i m) := by
  have hop := operatorAt?_eq ht
  constructor
  · rintro ⟨hlt, hsome, hopen, hunreleased⟩
    rcases Nat.lt_succ_iff_lt_or_eq.1 hlt with hlt | rfl
    · rw [between_succ hlt ht] at hopen
      exact .inr ⟨hlt, hsome, hopen, unreleased_succ.1 hunreleased⟩
    · rw [between_self_succ] at hopen
      exact .inl ⟨rfl, leavesOpen_nil_iff.1 hopen, hop ▸ hsome⟩
  · rintro (⟨rfl, rfl, hsome⟩ | ⟨hlt, hsome, hopen, hunreleased⟩)
    · refine ⟨Nat.lt_succ_self i, hop.symm ▸ hsome, ?_, ?_⟩
      · rw [between_self_succ]
        exact leavesOpen_nil_iff.2 rfl
      · intro j hj hreleases
        exact absurd hreleases.1 (by omega)
    · refine ⟨Nat.lt_succ_of_lt hlt, hsome, ?_, unreleased_succ.2 hunreleased⟩
      rwa [between_succ hlt ht]

theorem not_releases_of_not_endsWait (ht : tokens[m]? = some t) (h : ∀ o, ¬endsWait o t) :
    ¬Releases tokens i m := by
  rintro ⟨-, -, o, -, u, hu, hends⟩
  rw [ht] at hu
  cases hu
  exact h o hends

/-- A number releases nothing. -/
theorem waits_succ_num {text : String} (ht : tokens[m]? = some (.num text)) :
    Waits tokens (m + 1) depth i ↔ Waits tokens m depth i := by
  have hreleases : ¬Releases tokens i m :=
    not_releases_of_not_endsWait ht fun _ => Bool.false_ne_true
  rw [waits_succ_iff ht, leavesOpen_concat_of_ne (by simp) (by simp)]
  constructor
  · rintro (⟨-, -, hnone⟩ | ⟨hlt, hsome, hopen, hunreleased, -⟩)
    · cases hnone
    · exact ⟨hlt, hsome, hopen, hunreleased⟩
  · rintro ⟨hlt, hsome, hopen, hunreleased⟩
    exact .inr ⟨hlt, hsome, hopen, hunreleased, hreleases⟩

/-- A parenthesis opens an empty scope inside all others. -/
theorem waits_succ_lparen (ht : tokens[m]? = some .lparen) :
    Waits tokens (m + 1) depth i ↔ ∃ d, depth = d + 1 ∧ Waits tokens m d i := by
  have hreleases : ¬Releases tokens i m :=
    not_releases_of_not_endsWait ht fun _ => Bool.false_ne_true
  rw [waits_succ_iff ht, leavesOpen_concat_lparen]
  constructor
  · rintro (⟨-, -, hnone⟩ | ⟨hlt, hsome, ⟨d, rfl, hopen⟩, hunreleased, -⟩)
    · cases hnone
    · exact ⟨d, rfl, hlt, hsome, hopen, hunreleased⟩
  · rintro ⟨d, rfl, hlt, hsome, hopen, hunreleased⟩
    exact .inr ⟨hlt, hsome, ⟨d, rfl, hopen⟩, hunreleased, hreleases⟩

/-- A closing parenthesis releases the operators of the innermost scope. -/
theorem waits_succ_rparen (ht : tokens[m]? = some .rparen) :
    Waits tokens (m + 1) depth i ↔ Waits tokens m (depth + 1) i := by
  rw [waits_succ_iff ht, leavesOpen_concat_rparen]
  constructor
  · rintro (⟨-, -, hnone⟩ | ⟨hlt, hsome, hopen, hunreleased, -⟩)
    · cases hnone
    · exact ⟨hlt, hsome, hopen, hunreleased⟩
  · rintro ⟨hlt, hsome, hopen, hunreleased⟩
    refine .inr ⟨hlt, hsome, hopen, hunreleased, fun hreleases => ?_⟩
    cases hopen.unique (leavesOpen_zero_iff.2 hreleases.2.1)

/-- An operator releases those of its scope that do not bind looser, and waits itself. -/
theorem waits_succ_op {p : Operator} (ht : tokens[m]? = some (.op p)) :
    Waits tokens (m + 1) depth i ↔
      (i = m ∧ depth = 0) ∨ (Waits tokens m depth i ∧
        (depth = 0 → ∀ o ∈ operatorAt? tokens i, o.precedence < p.precedence)) := by
  rw [waits_succ_iff ht, leavesOpen_concat_of_ne (by simp) (by simp)]
  refine or_congr (by simp [operator?]) ?_
  constructor
  · rintro ⟨hlt, hsome, hopen, hunreleased, hreleases⟩
    refine ⟨⟨hlt, hsome, hopen, hunreleased⟩, ?_⟩
    rintro rfl o ho
    by_contra hle
    exact hreleases ⟨hlt, leavesOpen_zero_iff.1 hopen, o, ho, _, ht, by simpa [endsWait] using hle⟩
  · rintro ⟨⟨hlt, hsome, hopen, hunreleased⟩, hlooser⟩
    refine ⟨hlt, hsome, hopen, hunreleased, fun hreleases => ?_⟩
    obtain ⟨-, hbalanced, o, ho, u, hu, hends⟩ := hreleases
    rw [ht] at hu
    cases hu
    have hdepth := hopen.unique (leavesOpen_zero_iff.2 hbalanced)
    have hle : p.precedence ≤ o.precedence := by simpa [endsWait] using hends
    exact absurd (hlooser hdepth o ho) (Nat.not_lt.2 hle)

end

/-- **Of two operators that wait in one scope the newer binds tighter.** Otherwise it would have
released the other. -/
theorem Waits.precedence_lt {tokens : List Token} {m i j : Nat} {o p : Operator}
    (hj : Waits tokens m 0 j) (hi : Waits tokens m 0 i) (hlt : j < i)
    (ho : operatorAt? tokens j = some o) (hp : operatorAt? tokens i = some p) :
    o.precedence < p.precedence := by
  obtain ⟨-, -, ⟨hopened, hcount⟩, hunreleased⟩ := hj
  obtain ⟨him, -, ⟨-, hcount'⟩, -⟩ := hi
  have ht := getElem?_eq_op hp
  rw [between_split hlt him ht] at hopened hcount
  have hbalanced : Balanced (between tokens j i) := by
    refine leavesOpen_zero_iff.1 ⟨hopened.of_append, ?_⟩
    simp only [List.count_append, List.count_cons_of_ne (show Token.op p ≠ .lparen by simp),
      List.count_cons_of_ne (show Token.op p ≠ .rparen by simp)] at hcount
    omega
  by_contra hle
  exact hunreleased i him ⟨hlt, hbalanced, o, ho, _, ht, by simpa [endsWait] using hle⟩

/-! ## The end of the tokens -/

theorem closesOpened_of_unreleased {tokens : List Token} {m i : Nat} (hm : m ≤ tokens.length)
    (him : i < m) (hsome : (operatorAt? tokens i).isSome) (h : Unreleased tokens m i) :
    ClosesOpened 0 (between tokens i m) := by
  induction m, him using Nat.le_induction with
  | base =>
    rw [Nat.succ_eq_add_one, between_self_succ]
    exact closesOpened_nil 0
  | succ m him ih =>
    obtain ⟨hunreleased, hreleases⟩ := unreleased_succ.1 h
    have ih := ih (Nat.le_of_succ_le hm) hunreleased
    obtain ⟨t, ht⟩ : ∃ t, tokens[m]? = some t := ⟨_, List.getElem?_eq_getElem hm⟩
    rw [between_succ him ht, closesOpened_concat]
    refine ⟨ih, ?_⟩
    have hle := ih.count_le
    rw [List.count_append, List.count_append]
    by_cases hr : t = .rparen
    · -- If nothing were open, this parenthesis would release the operator.
      have hne : (between tokens i m).count .lparen ≠ (between tokens i m).count .rparen := by
        intro hcount
        obtain ⟨o, ho⟩ := Option.isSome_iff_exists.1 hsome
        exact hreleases ⟨him, leavesOpen_zero_iff.1 ⟨ih, hcount⟩, o, ho, t, ht, by rw [hr]; rfl⟩
      have hone : [t].count .rparen = 1 := by rw [hr, List.count_singleton_self]
      omega
    · have hnone : [t].count .rparen = 0 := List.count_eq_zero.2 (by simpa [eq_comm] using hr)
      omega

/-- **At the end of balanced tokens** the operators that were never released wait in the outermost
scope. -/
theorem waits_length_iff {tokens : List Token} (h : Balanced tokens) {i : Nat} :
    Waits tokens tokens.length 0 i ↔
      (operatorAt? tokens i).isSome ∧ Unreleased tokens tokens.length i := by
  constructor
  · intro hwaits
    exact ⟨hwaits.2.1, hwaits.2.2.2⟩
  · rintro ⟨hsome, hunreleased⟩
    obtain ⟨o, ho⟩ := Option.isSome_iff_exists.1 hsome
    have ht := getElem?_eq_op ho
    have hlt := lt_length_of_getElem? ht
    have hopened := closesOpened_of_unreleased (Nat.le_refl _) hlt hsome hunreleased
    refine ⟨hlt, hsome, ⟨hopened, ?_⟩, hunreleased⟩
    -- Neither the tokens before the operator nor those behind it close more than they open.
    have hsplit := take_eq_append_between hlt ht
    rw [List.take_length] at hsplit
    have hle := hopened.count_le
    have hle' := (ClosesOpened.of_append (hsplit ▸ h.opened)).count_le
    have hall := h.all
    rw [hsplit] at hall
    simp only [List.count_append, List.count_cons_of_ne (show op o ≠ lparen by simp),
      List.count_cons_of_ne (show op o ≠ rparen by simp)] at hall
    omega

end Token

end Calculator
