import Calculator.Postorder.StackYard
import Calculator.Proofs.Conservation
import Calculator.Proofs.Lexing

/-!
# The operator stack

A yard keeps the waiting operators scope by scope, a yard with one stack keeps them all on it. They
take the same steps (`Yard.onStack_step`), since the operators of a scope end at its parenthesis:
what an operator or a closing parenthesis pops ends there.

An operator pops all operators above its place except those that bind less tightly. So the
precedences of a scope increase strictly from its oldest operator on (`Yard.Increasing`), a scope
has at most two operators, and the height of the stack is bounded by the open parentheses.

Main result: `toPostorder_stack`.
-/

namespace Calculator

/-! ## One stack for all scopes -/

namespace Yard

/-- The state with one stack. -/
def onStack (yard : Yard) : StackYard :=
  ⟨yard.output, yard.stack⟩

theorem emit_cons (o : Operator) (operators : List Operator) (output : List Token) :
    emit (o :: operators) output = emit operators (.op o :: output) := by
  simp [emit]

/-- An operator pops no further than the end of its scope. -/
theorem release_append (o : Operator) (operators : List Operator) (output : List Token)
    {below : List Waiting} (hbelow : ∀ w ∈ below.head?, w = .lparen) :
    StackYard.release o output (operators.map .op ++ below) =
      ⟨emit (operators.takeWhile (releases o)) output,
        (operators.dropWhile (releases o)).map .op ++ below⟩ := by
  induction operators generalizing output with
  | nil =>
    cases below with
    | nil => rfl
    | cons w below =>
      cases hbelow w rfl
      rfl
  | cons top operators ih =>
    rw [List.map_cons, List.cons_append, StackYard.release]
    split
    · next hlt =>
      have hstays : ¬releases o top := by simpa [releases] using hlt
      rw [List.takeWhile_cons_of_neg hstays, List.dropWhile_cons_of_neg hstays]
      rfl
    · next hle =>
      have hgoes : releases o top := by simpa [releases] using hle
      rw [ih, List.takeWhile_cons_of_pos hgoes, List.dropWhile_cons_of_pos hgoes, emit_cons]

theorem closeScope_append (operators : List Operator) (output : List Token) (below : List Waiting) :
    StackYard.closeScope output (operators.map .op ++ below) =
      StackYard.closeScope (emit operators output) below := by
  induction operators generalizing output with
  | nil => rfl
  | cons top operators ih => rw [emit_cons, ← ih]; rfl

theorem finish_append (operators : List Operator) (output : List Token) (below : List Waiting) :
    StackYard.finish output (operators.map .op ++ below) =
      StackYard.finish (emit operators output) below := by
  induction operators generalizing output with
  | nil => rfl
  | cons top operators ih => rw [emit_cons, ← ih]; rfl

theorem eq_lparen_of_mem_head? (outer : List (List Operator)) :
    ∀ w ∈ (outer.flatMap fun scope => Waiting.lparen :: scope.map .op).head?, w = .lparen := by
  cases outer with
  | nil => simp
  | cons scope outer => simp

/-- **A yard and its stack take the same steps.** -/
theorem onStack_step (yard : Yard) (t : Token) : yard.onStack.step t = onStack <$> yard.step t := by
  cases t with
  | num text => rfl
  | lparen => rfl
  | rparen =>
    rw [StackYard.step, onStack, stack, closeScope_append]
    cases houter : yard.outer <;> simp only [step, houter] <;> rfl
  | op o =>
    rw [StackYard.step, onStack, stack, release_append _ _ _ (eq_lparen_of_mem_head? _)]
    rfl

theorem onStack_finish (yard : Yard) : StackYard.finish yard.output yard.stack = yard.finish := by
  rw [stack, finish_append]
  cases houter : yard.outer <;> simp only [finish, houter] <;> rfl

/-- **A yard and its stack convert alike.** -/
theorem onStack_convert (yard : Yard) (lexer : Lexer) :
    yard.onStack.convert lexer = yard.convert lexer.scan := by
  induction lexer using Lexer.scan_induction generalizing yard with
  | none lexer h =>
    rw [StackYard.convert_of_none h, Lexer.scan_of_none h]
    exact yard.onStack_finish
  | error lexer e after h =>
    rw [StackYard.convert_of_error h, Lexer.scan_of_error h]
    rfl
  | ok lexer t after h ih =>
    rw [StackYard.convert_of_ok h, Lexer.scan_of_ok h, onStack_step, convert, steps_cons]
    cases yard.step t with
    | error e => rfl
    | ok next => exact ih next

/-! ## Precedences in a scope -/

/-- In each scope an operator binds tighter than the older ones. -/
def Increasing (yard : Yard) : Prop :=
  ∀ scope ∈ yard.waiting :: yard.outer,
    scope.Pairwise fun newer older => older.precedence < newer.precedence

theorem precedence_lt_of_mem_dropWhile {o : Operator} {operators : List Operator}
    (h : operators.Pairwise fun newer older => older.precedence < newer.precedence) :
    ∀ older ∈ operators.dropWhile (releases o), older.precedence < o.precedence := by
  intro older holder
  cases hdrop : operators.dropWhile (releases o) with
  | nil => simp [hdrop] at holder
  | cons top below =>
    have htop : top.precedence < o.precedence := by
      have hstays := List.head_dropWhile_not (releases o)
        (by simp [hdrop] : operators.dropWhile (releases o) ≠ [])
      simpa [hdrop, releases] using hstays
    have hbelow : (top :: below).Pairwise fun newer older => older.precedence < newer.precedence :=
      hdrop ▸ h.sublist (List.dropWhile_sublist _)
    rw [hdrop] at holder
    rcases List.mem_cons.1 holder with rfl | holder
    · exact htop
    · exact ((List.pairwise_cons.1 hbelow).1 older holder).trans htop

theorem Increasing.step {yard next : Yard} {t : Token} (h : yard.Increasing)
    (hstep : yard.step t = .ok next) : next.Increasing := by
  obtain ⟨hwaiting, houter⟩ := List.forall_mem_cons.1 h
  cases t with
  | num text =>
    cases hstep
    exact h
  | lparen =>
    cases hstep
    exact List.forall_mem_cons.2 ⟨.nil, h⟩
  | rparen =>
    cases hscopes : yard.outer with
    | nil => simp [Yard.step, hscopes] at hstep
    | cons scope outer =>
      simp only [Yard.step, hscopes, Except.ok.injEq] at hstep
      subst hstep
      rw [hscopes] at houter
      exact houter
  | op o =>
    cases hstep
    refine List.forall_mem_cons.2 ⟨List.pairwise_cons.2 ⟨?_, ?_⟩, houter⟩
    · exact precedence_lt_of_mem_dropWhile hwaiting
    · exact hwaiting.sublist (List.dropWhile_sublist _)

theorem Increasing.steps {yard next : Yard} {tokens : List Token} (h : yard.Increasing)
    (hsteps : yard.steps tokens = .ok next) : next.Increasing :=
  run_induction (motive := fun yard _ next => yard.Increasing → next.Increasing) (fun _ h => h)
    (fun _ _ _ _ _ hstep hrest h => hrest (h.step hstep)) hsteps h

end Yard

/-- There are two precedences, so at most two operators have strictly increasing ones. -/
theorem Operator.length_le_two {operators : List Operator}
    (h : operators.Pairwise fun older newer => older.precedence < newer.precedence) :
    operators.length ≤ 2 := by
  match operators, h with
  | [], _ | [_], _ | [_, _], _ => simp
  | a :: b :: c :: _, h =>
    obtain ⟨ha, hrest⟩ := List.pairwise_cons.1 h
    have hab := ha b List.mem_cons_self
    have hbc := (List.pairwise_cons.1 hrest).1 c List.mem_cons_self
    have := a.precedence_eq_one_or_two
    have := c.precedence_eq_one_or_two
    omega

/-! ## The scopes of a stack -/

namespace StackYard

/-- The operators of each scope on a stack, outermost scope and oldest operator first: the stack
from bottom to top, split at its parentheses. -/
def segments (stack : List Waiting) : List (List Operator) :=
  (stack.reverse.splitOn .lparen).map fun segment => segment.filterMap Waiting.operator?

end StackYard

namespace Yard

theorem filterMap_operator?_map_op (operators : List Operator) :
    (operators.map Waiting.op).filterMap Waiting.operator? = operators := by
  rw [List.filterMap_map]
  exact List.filterMap_some

theorem not_mem_map_op (operators : List Operator) : Waiting.lparen ∉ operators.map Waiting.op := by
  simp

theorem segments_map_op (operators : List Operator) :
    StackYard.segments (operators.map .op) = [operators.reverse] := by
  rw [StackYard.segments, ← List.map_reverse, List.splitOn_eq_singleton (not_mem_map_op _),
    List.map_singleton, filterMap_operator?_map_op]

theorem segments_append_lparen (operators : List Operator) (below : List Waiting) :
    StackYard.segments (operators.map .op ++ .lparen :: below) =
      StackYard.segments below ++ [operators.reverse] := by
  rw [StackYard.segments, List.reverse_append, List.reverse_cons, List.append_assoc,
    List.singleton_append, List.splitOn_append_cons_self, List.map_append, ← segments_map_op]
  rfl

theorem stack_cons (output : List Token) (waiting scope : List Operator)
    (outer : List (List Operator)) :
    (⟨output, waiting, scope :: outer⟩ : Yard).stack =
      waiting.map .op ++ .lparen :: (⟨output, scope, outer⟩ : Yard).stack := rfl

/-- **The segments of a stack** are the scopes of the yard. -/
theorem segments_stack (yard : Yard) :
    StackYard.segments yard.stack = ((yard.waiting :: yard.outer).map List.reverse).reverse := by
  obtain ⟨output, waiting, outer⟩ := yard
  induction outer generalizing waiting with
  | nil => rw [stack, List.flatMap_nil, List.append_nil, segments_map_op]; rfl
  | cons scope outer ih => rw [stack_cons, segments_append_lparen, ih]; simp

theorem filterMap_operator?_stack (yard : Yard) :
    yard.stack.filterMap Waiting.operator? = yard.waiting ++ yard.outer.flatten := by
  obtain ⟨output, waiting, outer⟩ := yard
  induction outer generalizing waiting with
  | nil => rw [stack, List.flatMap_nil, List.append_nil, filterMap_operator?_map_op]; simp
  | cons scope outer ih =>
    rw [stack_cons, List.filterMap_append, List.filterMap_cons_none rfl, ih,
      filterMap_operator?_map_op]
    rfl

/-- With at most two operators in each scope, a stack has at most three entries for each open
parenthesis, and two more. -/
theorem length_stack_le {yard : Yard} (h : ∀ scope ∈ yard.waiting :: yard.outer, scope.length ≤ 2) :
    yard.stack.length ≤ 3 * yard.outer.length + 2 := by
  obtain ⟨output, waiting, outer⟩ := yard
  obtain ⟨hwaiting, houter⟩ := List.forall_mem_cons.1 h
  induction outer generalizing waiting with
  | nil => simpa [stack] using hwaiting
  | cons scope outer ih =>
    obtain ⟨hscope, hrest⟩ := List.forall_mem_cons.1 houter
    have hbelow := ih scope houter hscope hrest
    rw [stack_cons, List.length_append, List.length_map, List.length_cons, List.length_cons]
    dsimp only at hwaiting hbelow
    omega

end Yard

/-! ## The states of a conversion -/

namespace StackYard

variable {text : String} {taken : List Token} {yard : StackYard} {lexer : Lexer}

theorem Reaches.toPostorder_eq (h : Reaches text taken yard lexer) :
    toPostorder text = yard.convert lexer := by
  induction h with
  | start => exact (Yard.onStack_convert {} _).symm
  | step _ hread hstep ih => rw [ih, convert_of_ok hread, hstep]; rfl

theorem Reaches.exists_yard (h : Reaches text taken yard lexer) :
    ∃ scopes : Yard, Yard.steps {} taken = .ok scopes ∧ scopes.onStack = yard := by
  induction h with
  | start => exact ⟨{}, rfl, rfl⟩
  | step _ hread hstep ih =>
    obtain ⟨scopes, hsteps, rfl⟩ := ih
    rw [Yard.onStack_step] at hstep
    cases hnext : scopes.step _ with
    | error e => rw [hnext] at hstep; cases hstep
    | ok next =>
      rw [hnext] at hstep
      cases hstep
      refine ⟨next, ?_, rfl⟩
      rw [Yard.steps_append]
      exact bind_eq_ok_iff.2 ⟨scopes, hsteps, bind_eq_ok_iff.2 ⟨next, hnext, rfl⟩⟩

/-- The invariant of a stack after these tokens. In each segment the precedences increase strictly
from the oldest operator on, so there are at most two operators; the parentheses are the open ones;
output and waiting operators are, up to order, the tokens taken; and the height is bounded by the
open parentheses. -/
structure Holds (taken : List Token) (yard : StackYard) : Prop where
  increasing : ∀ segment ∈ segments yard.stack,
    segment.Pairwise fun older newer => older.precedence < newer.precedence
  length_segment_le : ∀ segment ∈ segments yard.stack, segment.length ≤ 2
  count_lparen : yard.stack.count .lparen + taken.count .rparen = taken.count .lparen
  perm : (yard.output ++ (yard.stack.filterMap Waiting.operator?).map Token.op).Perm
    (taken.filter fun t => !t.isParenthesis)
  length_le : yard.stack.length ≤ 3 * (taken.count .lparen - taken.count .rparen) + 2

end StackYard

theorem Yard.Increasing.segment {yard : Yard} (h : yard.Increasing) {segment : List Operator}
    (hsegment : segment ∈ StackYard.segments yard.stack) :
    segment.Pairwise fun older newer => older.precedence < newer.precedence := by
  rw [segments_stack, List.mem_reverse] at hsegment
  obtain ⟨scope, hscope, rfl⟩ := List.mem_map.1 hsegment
  exact List.pairwise_reverse.2 (h scope hscope)

theorem Yard.holds_onStack {taken : List Token} {yard : Yard}
    (hsteps : Yard.steps {} taken = .ok yard) : StackYard.Holds taken yard.onStack := by
  have hempty : Increasing {} := by simp [Increasing]
  have hincreasing := hempty.steps hsteps
  have hcount := length_outer_of_steps hsteps
  constructor
  case increasing => exact fun segment hsegment => hincreasing.segment hsegment
  case length_segment_le =>
    exact fun segment hsegment => Operator.length_le_two (hincreasing.segment hsegment)
  case count_lparen =>
    rw [onStack, count_lparen_stack]
    simpa using hcount
  case perm =>
    have hcontent := content_steps hsteps
    rw [content, show ({} : Yard).content = [] from rfl, List.append_nil] at hcontent
    rwa [onStack, filterMap_operator?_stack]
  case length_le =>
    have hscopes : ∀ scope ∈ yard.waiting :: yard.outer, scope.length ≤ 2 := fun scope hscope => by
      rw [← List.length_reverse]
      exact Operator.length_le_two (List.pairwise_reverse.2 (hincreasing scope hscope))
    have hlength := length_stack_le hscopes
    simp only [List.length_nil] at hcount
    rw [onStack]
    dsimp only
    omega

/-- **The operator stack.** In every state of the conversion of a text, the stack, read from bottom
to top and split at its parentheses, has strictly increasing precedences and so at most two
operators in each segment; it has a parenthesis for each open one; and together with the output it
has the numbers and operators taken. Whatever the length of the text, it has at most three entries
for each open parenthesis, and two more. From this state the conversion continues to the listing of
the text. -/
theorem toPostorder_stack {text : String} {taken : List Token} {yard : StackYard} {lexer : Lexer}
    (h : StackYard.Reaches text taken yard lexer) :
    StackYard.Holds taken yard ∧ toPostorder text = yard.convert lexer := by
  obtain ⟨scopes, hsteps, rfl⟩ := h.exists_yard
  exact ⟨Yard.holds_onStack hsteps, h.toPostorder_eq⟩

/-- With one parenthesis open the stack has five entries, the most it can have. -/
theorem toPostorder_stack_of_five :
    ∃ taken yard lexer, StackYard.Reaches "1+2*(3-4/5)" taken yard lexer ∧
      yard.stack = [.op .divide, .op .minus, .lparen, .op .times, .op .plus] ∧
      StackYard.segments yard.stack = [[.plus, .times], [.minus, .divide]] ∧
      StackYard.Holds taken yard ∧ toPostorder "1+2*(3-4/5)" = yard.convert lexer := by
  have hreaches := (StackYard.Reaches.start : StackYard.Reaches "1+2*(3-4/5)" [] {} _)
    |>.step rfl rfl |>.step rfl rfl |>.step rfl rfl |>.step rfl rfl |>.step rfl rfl
    |>.step rfl rfl |>.step rfl rfl |>.step rfl rfl |>.step rfl rfl
  exact ⟨_, _, _, hreaches, rfl, by decide +kernel, toPostorder_stack hreaches⟩

end Calculator
