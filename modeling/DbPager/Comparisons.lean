import DbPager.Chains
import DbPager.Plain

/-!
# Comparisons

`lexpr` first tries to compare its operands as numbers.  If that raises an
exception, it computes the right operand again to compare strings; but the
right operand may have been read already, and then the parser finds what
follows it, or the end of the text, which counts as `1`.
-/

namespace DbPager

open Effect

inductive Comparison where
  | lt | gt | eq | ltEq | gtEq | notEq

namespace Comparison

def type : Comparison → TokenType
  | lt => .lt
  | gt => .gt
  | eq => .eq
  | ltEq => .ltEq
  | gtEq => .gtEq
  | notEq => .notEq

def numbers (dcl : Dcl) : Comparison → dcl.Double → dcl.Double → Bool
  | lt => dcl.lt
  | gt => fun l r => dcl.lt r l
  | eq => dcl.eq
  | ltEq => dcl.le
  | gtEq => fun l r => dcl.le r l
  | notEq => fun l r => !dcl.eq l r

def strings : Comparison → Str → Str → Bool
  | lt => fun l r => decide (l < r)
  | gt => fun l r => decide (r < l)
  | eq => fun l r => l == r
  | ltEq => fun l r => !decide (r < l)
  | gtEq => fun l r => !decide (l < r)
  | notEq => fun l r => l != r

/-- The comparison of two values: as numbers if both are numbers, as strings
otherwise. -/
def result (dcl : Dcl) (op : Comparison) : Str → Str → Bool :=
  LogicOp.comparison dcl (op.numbers dcl) op.strings

end Comparison

namespace Evaluator

variable {W : Type} (outside : Outside W) (function : Str → Str → M W Str)

/-- The operands of `lexpr`. -/
def operand (budget : Nat) : P W Str :=
  expr outside (term outside (prim outside function budget) budget) budget

/-- At the end of the text an operand is `1`. -/
theorem operand_end (budget : Nat) {state : St W × Lexer}
    (ended : state.2.type = .end) :
    operand outside function (budget + 1) state =
      ⟨state, [], .value "1".toList⟩ := by
  obtain ⟨memory, input, type, name, value⟩ := state
  obtain rfl : type = .end := ended
  rfl

/-- A closing parenthesis or a logical operator is not an operand. -/
theorem operand_missing (budget : Nat) {state : St W × Lexer}
    (other : state.2.type = .rp ∨ isLogic state.2.type = true) :
    ∃ exception, operand outside function (budget + 1) state =
      ⟨state, [], .error exception⟩ := by
  obtain ⟨memory, input, type, name, value⟩ := state
  refine ⟨outside.dcl.exception "invalid expression: primary expected" [], ?_⟩
  rcases other with closed | logic
  · obtain rfl : type = .rp := closed
    rfl
  · cases type with
    | lt | gt | eq | ltEq | gtEq | notEq | and | or => rfl
    | _ => cases logic

/-- Without a budget no operand is computed. -/
theorem operand_returns {budget : Nat} {state final : St W × Lexer}
    {out text : Str}
    (ran : operand outside function budget state =
      ⟨final, out, .value text⟩) : ∃ less, budget = less + 1 := by
  cases budget with
  | zero => cases ran
  | succ less => exact ⟨less, rfl⟩

theorem logicRest_comparison (op : Comparison) (right : P W Str) (left : Str)
    {state : St W × Lexer} (here : state.2.type = op.type) :
    logicRest outside right left state =
      compareWith outside right left (op.numbers outside.dcl) op.strings
        state := by
  obtain ⟨memory, input, type, name, value⟩ := state
  obtain rfl : type = op.type := here
  cases op <;> rfl

section Operands

variable {outside} {left text out : Str} {right : P W Str}
  {state final : St W × Lexer}
  (ran : right state = ⟨final, out, .value text⟩)
include ran

theorem operands_numbers {x y : outside.dcl.Double}
    (leftNumber : outside.dcl.fromStringDouble left = some x)
    (rightNumber : outside.dcl.fromStringDouble text = some y) :
    operands outside left right state = ⟨final, out, .value (x, y)⟩ := by
  have one := number_some leftNumber
  have two := number_some rightNumber
  unfold operands
  split
  · rw [Prog.bind_silent (one state), Prog.bind_eq ran,
      Prog.bind_silent (two final)]
    simp [pure, Prog.pure]
  · rw [Prog.bind_eq ran, Prog.bind_silent (two final),
      Prog.bind_silent (one final)]
    simp [pure, Prog.pure]

/-- A conversion fails after the right operand has been read. -/
theorem operands_late
    (fails : outside.dcl.fromStringDouble left = none ∨
      outside.dcl.fromStringDouble text = none)
    (late : outside.leftFirst = true →
      outside.dcl.fromStringDouble left ≠ none) :
    ∃ exception, operands outside left right state =
      ⟨final, out, .error exception⟩ := by
  unfold operands
  split
  · rename_i first
    obtain ⟨x, leftNumber⟩ := Option.ne_none_iff_exists'.mp (late first)
    have rightFails : outside.dcl.fromStringDouble text = none :=
      fails.resolve_left (late first)
    refine ⟨outside.dcl.conversionException text, ?_⟩
    rw [Prog.bind_silent (number_some leftNumber state),
      Prog.bind_eq ran, Prog.bind_error (number_none rightFails final)]
    simp
  · cases rightNumber : outside.dcl.fromStringDouble text with
    | none =>
        refine ⟨outside.dcl.conversionException text, ?_⟩
        rw [Prog.bind_eq ran,
          Prog.bind_error (number_none rightNumber final)]
        simp
    | some y =>
        have leftFails : outside.dcl.fromStringDouble left = none := by
          apply fails.resolve_right
          rw [rightNumber]
          exact Option.some_ne_none y
        refine ⟨outside.dcl.conversionException left, ?_⟩
        rw [Prog.bind_eq ran,
          Prog.bind_silent (number_some rightNumber final),
          Prog.bind_error (number_none leftFails final)]
        simp

end Operands

section CompareWith

variable {outside} {left out : Str} {right : P W Str}
  {numbers : outside.dcl.Double → outside.dcl.Double → Bool}
  {strings : Str → Str → Bool} {start state final : St W × Lexer}
  (read : getToken outside start = ⟨state, [], .value ()⟩)
include read

theorem compareWith_returns {x y : outside.dcl.Double}
    (converted : operands outside left right state =
      ⟨final, out, .value (x, y)⟩) :
    compareWith outside right left numbers strings start =
      ⟨final, out, .value (truth (numbers x y))⟩ := by
  have body : (operands outside left right >>= fun pair =>
      (pure (truth (numbers pair.1 pair.2)) : P W Str)) state =
      ⟨final, out ++ [], .value (truth (numbers x y))⟩ :=
    Prog.bind_eq converted _
  rw [List.append_nil] at body
  unfold compareWith
  rw [Prog.bind_silent read]
  exact Prog.tryCatch_eq body _

theorem compareWith_numbers {x y : outside.dcl.Double}
    (converted : operands outside left right state =
      ⟨final, out, .value (x, y)⟩) :
    (compareWith outside right left numbers strings start).outcome =
      .value (truth (numbers x y)) :=
  congrArg Run.outcome (compareWith_returns read converted)

/-- After an exception the right operand is computed from where the lexer
then is. -/
theorem compareWith_recomputed {exception : Exc}
    (failed : operands outside left right state =
      ⟨final, out, .error exception⟩) :
    compareWith outside right left numbers strings start =
      ⟨((right >>= fun text => pure (truth (strings left text))) final).state,
        out ++ ((right >>= fun text =>
          pure (truth (strings left text))) final).out,
        ((right >>= fun text =>
          pure (truth (strings left text))) final).outcome⟩ := by
  have body : (operands outside left right >>= fun pair =>
      (pure (truth (numbers pair.1 pair.2)) : P W Str)) state =
      ⟨final, out, .error exception⟩ :=
    Prog.bind_error failed _
  unfold compareWith
  rw [Prog.bind_silent read]
  exact Prog.tryCatch_error body fun _ =>
    right >>= fun text => pure (truth (strings left text))

theorem compareWith_again {exception : Exc}
    (failed : operands outside left right state =
      ⟨final, out, .error exception⟩) :
    (compareWith outside right left numbers strings start).outcome =
      ((right >>= fun text => pure (truth (strings left text))) final :
        Run _ _ _ _).outcome := by
  rw [compareWith_recomputed read failed]

end CompareWith

theorem result_numbers {dcl : Dcl} (op : Comparison) {left right : Str}
    {x y : dcl.Double} (leftNumber : dcl.fromStringDouble left = some x)
    (rightNumber : dcl.fromStringDouble right = some y) :
    op.result dcl left right = op.numbers dcl x y := by
  unfold Comparison.result LogicOp.comparison
  rw [leftNumber, rightNumber]

theorem result_strings {dcl : Dcl} (op : Comparison) {left right : Str}
    (fails : dcl.fromStringDouble left = none ∨
      dcl.fromStringDouble right = none) :
    op.result dcl left right = op.strings left right := by
  unfold Comparison.result LogicOp.comparison
  rcases fails with leftFails | rightFails
  · rw [leftFails]
  · rw [rightFails]
    cases dcl.fromStringDouble left <;> rfl

theorem truth_injective {first second : Bool}
    (same : truth first = truth second) : first = second := by
  cases first <;> cases second <;> first | rfl | cases same

/-- The condition on the values and on the token after the comparison: both
values are numbers, or the first conversion fails before the right operand is
read, or the text ends there and comparing with `1` happens to have the same
result. -/
def ComparesWritten (op : Comparison) (left right : Str) (next : TokenType) :
    Prop :=
  (outside.dcl.fromStringDouble left ≠ none ∧
      outside.dcl.fromStringDouble right ≠ none) ∨
    (outside.leftFirst = true ∧
      outside.dcl.fromStringDouble left = none) ∨
    next = .end ∧ op.strings left "1".toList = op.strings left right

/-- `lexpr` returns the result of comparing the two operands that are
written, exactly under the condition above. -/
theorem comparison_of_operands (op : Comparison) (budget : Nat)
    {start middle next final : St W × Lexer} {before after left right : Str}
    (leftRan : operand outside function budget start =
      ⟨middle, before, .value left⟩)
    (operator : middle.2.type = op.type)
    (read : getToken outside middle = ⟨next, [], .value ()⟩)
    (rightRan : operand outside function budget next =
      ⟨final, after, .value right⟩)
    (ends : final.2.type = .end ∨ final.2.type = .rp ∨
      isLogic final.2.type = true) :
    (lexpr outside (operand outside function budget) start).outcome =
        .value (truth (op.result outside.dcl left right)) ↔
      ComparesWritten outside op left right final.2.type := by
  obtain ⟨less, rfl⟩ := operand_returns outside function leftRan
  have whole : (lexpr outside (operand outside function (less + 1))
      start).outcome =
      (compareWith outside (operand outside function (less + 1)) left
        (op.numbers outside.dcl) op.strings middle).outcome := by
    rw [lexpr_eq, Prog.bind_eq leftRan,
      logicRest_comparison outside op _ left operator]
  rw [whole]
  by_cases early : outside.leftFirst = true ∧
      outside.dcl.fromStringDouble left = none
  · -- The right operand has not been read when the exception is raised.
    have failed := operands_left
      (operand outside function (less + 1)) early.1 early.2 next
    apply iff_of_true _ (.inr (.inl early))
    rw [compareWith_again read failed, Prog.bind_eq rightRan,
      result_strings op (.inl early.2)]
    rfl
  · by_cases both : outside.dcl.fromStringDouble left ≠ none ∧
        outside.dcl.fromStringDouble right ≠ none
    · obtain ⟨x, leftNumber⟩ := Option.ne_none_iff_exists'.mp both.1
      obtain ⟨y, rightNumber⟩ := Option.ne_none_iff_exists'.mp both.2
      apply iff_of_true _ (.inl both)
      rw [compareWith_numbers read
          (operands_numbers rightRan leftNumber rightNumber),
        result_numbers op leftNumber rightNumber]
    · have fails : outside.dcl.fromStringDouble left = none ∨
          outside.dcl.fromStringDouble right = none := by
        by_cases leftFails : outside.dcl.fromStringDouble left = none
        · exact .inl leftFails
        · right
          by_contra rightNumber
          exact both ⟨leftFails, rightNumber⟩
      obtain ⟨exception, failed⟩ := operands_late rightRan fails
        fun first none => early ⟨first, none⟩
      rw [compareWith_again read failed, result_strings op fails]
      unfold ComparesWritten
      rw [or_iff_right both, or_iff_right early]
      rcases ends with ended | other
      · rw [Prog.bind_silent (operand_end outside function less ended)]
        constructor
        · intro same
          exact ⟨ended, truth_injective (Outcome.value.inj same)⟩
        · rintro ⟨-, same⟩
          rw [← same]
          rfl
      · obtain ⟨raised, missing⟩ := operand_missing outside function less other
        rw [Prog.bind_error missing]
        apply iff_of_false
        · intro same
          cases same
        · rintro ⟨ended, -⟩
          rw [ended] at other
          rcases other with closed | logic
          · cases closed
          · cases logic

theorem comparison_of_operands_less :
    (lexpr (Outside.closed Unit)
        (operand (Outside.closed Unit) (fun _ _ => pure []) 2)
        (St.fresh [], ⟨" < 10".toList, .number, [], "2".toList⟩)).outcome =
      .value "1".toList := by
  have left : operand (Outside.closed Unit) (fun _ _ => pure []) 2
      (St.fresh [], ⟨" < 10".toList, .number, [], "2".toList⟩) =
      ⟨(St.fresh [], ⟨" 10".toList, .lt, [], []⟩), [],
        .value "2".toList⟩ := rfl
  have right : operand (Outside.closed Unit) (fun _ _ => pure []) 2
      (St.fresh [], ⟨[], .number, [], "10".toList⟩) =
      ⟨(St.fresh [], ⟨[], .end, [], []⟩), [], .value "10".toList⟩ := rfl
  have numbers : (Outside.closed Unit).dcl.fromStringDouble "2".toList ≠ none ∧
      (Outside.closed Unit).dcl.fromStringDouble "10".toList ≠ none := by
    constructor
    · intro fails
      cases fails
    · intro fails
      cases fails
  exact (comparison_of_operands (Outside.closed Unit) (fun _ _ => pure []) .lt
    2 left rfl rfl right (.inl rfl)).mpr (.inl numbers)

/-- The right operand is not compared at all: `1` equals `'b'`. -/
theorem compared_with_end :
    (calculate (Outside.closed Unit) (fun _ _ => pure [])
        "1 = 'b'".toList (St.fresh [])).outcome = .value "1".toList ∧
      Comparison.eq.result (Outside.closed Unit).dcl "1".toList
        "b".toList = false := by
  constructor
  · decide +kernel
  · exact result_strings .eq (.inr rfl)

end Evaluator

end DbPager
