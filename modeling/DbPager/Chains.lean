import DbPager.Arithmetic
import DbPager.Plain

/-!
# Chains of logical operators

`lexpr` is written as a loop, but every branch leaves it: one logical
operator is computed, and the rest of the chain is never read.  To see this
for all operands, also those whose computation fails half-way and is taken
up again somewhere inside, follow the lexer through the tokens before the
second operator: while the parser is inside parentheses it cannot get past
the closing one, and outside it does not read on from a logical operator.
-/

namespace DbPager

open Effect

namespace Evaluator

/-- The tokens up to some point close `depth` parentheses that were opened
before, and a logical operator only stands inside parentheses. -/
inductive Closes : Nat → List Tok → Prop where
  | nil : Closes 0 []
  | lp {depth : Nat} {token : Tok} {tokens : List Tok} :
      token.type = .lp → Closes (depth + 1) tokens →
      Closes depth (token :: tokens)
  | rp {depth : Nat} {token : Tok} {tokens : List Tok} :
      token.type = .rp → Closes depth tokens →
      Closes (depth + 1) (token :: tokens)
  | logic {depth : Nat} {token : Tok} {tokens : List Tok} :
      isLogic token.type = true → Closes (depth + 1) tokens →
      Closes (depth + 1) (token :: tokens)
  | other {depth : Nat} {token : Tok} {tokens : List Tok} :
      token.type ≠ .lp → token.type ≠ .rp → isLogic token.type = false →
      Closes depth tokens → Closes depth (token :: tokens)

section Trees

variable {logical : Bool}

mutual

theorem prim_closes : (tree : PrimTree logical) → {depth : Nat} →
    {rest : List Tok} → Closes depth rest →
    Closes depth (tree.tokens ++ rest)
  | .number _ _ _, _, _, closes => .other nofun nofun rfl closes
  | .name _ _, _, _, closes => .other nofun nofun rfl closes
  | .minus operand, _, _, closes =>
      .other nofun nofun rfl (prim_closes operand closes)
  | .not _ operand, _, _, closes =>
      .other nofun nofun rfl (prim_closes operand closes)
  | .paren inner, depth, rest, closes => by
      have inside := logic_closes inner
        (@Closes.rp _ (.symbol .rp rfl) _ rfl closes)
      simp only [PrimTree.tokens, List.cons_append, List.append_assoc,
        List.nil_append]
      exact .lp rfl inside

theorem term_closes : (tree : TermTree logical) → {depth : Nat} →
    {rest : List Tok} → Closes depth rest →
    Closes depth (tree.tokens ++ rest)
  | .prim prim, _, _, closes => prim_closes prim closes
  | .op left op right, depth, rest, closes => by
      have operator : Closes depth (op.token :: (right.tokens ++ rest)) := by
        have operand := prim_closes right closes
        cases op <;> exact .other nofun nofun rfl operand
      simp only [TermTree.tokens, List.append_assoc, List.cons_append]
      exact term_closes left operator

theorem sum_closes : (tree : SumTree logical) → {depth : Nat} →
    {rest : List Tok} → Closes depth rest →
    Closes depth (tree.tokens ++ rest)
  | .term term, _, _, closes => term_closes term closes
  | .op left op right, depth, rest, closes => by
      have operator : Closes depth (op.token :: (right.tokens ++ rest)) := by
        have operand := term_closes right closes
        cases op <;> exact .other nofun nofun rfl operand
      simp only [SumTree.tokens, List.append_assoc, List.cons_append]
      exact sum_closes left operator

/-- Inside parentheses there may be logical operators. -/
theorem logic_closes : (tree : LogicTree logical) → {depth : Nat} →
    {rest : List Tok} → Closes (depth + 1) rest →
    Closes (depth + 1) (tree.tokens ++ rest)
  | .sum sum, _, _, closes => sum_closes sum closes
  | .op _ left op right, depth, rest, closes => by
      have operator :
          Closes (depth + 1) (op.token :: (right.tokens ++ rest)) := by
        apply Closes.logic
        · cases op <;> rfl
        · exact sum_closes right closes
      simp only [LogicTree.tokens, List.append_assoc, List.cons_append]
      exact logic_closes left operator

end

end Trees

/-- The lexer is at the first of the tokens. -/
def At (tokens : List Tok) (lexer : Lexer) : Prop :=
  ∃ name value, lexer = .facing tokens name value

variable {W : Type}

/-- The lexer is before the barrier, inside so many parentheses. -/
def Before (barrier : List Tok) (depth : Nat) (state : St W × Lexer) : Prop :=
  ∃ tokens, At (tokens ++ barrier) state.2 ∧ Closes depth tokens

/-- A program that cannot get past the barrier, nor out of the parentheses
it was started in. -/
def Stays (barrier : List Tok) (depth : Nat) {α : Type} (program : P W α)
    (state : St W × Lexer) : Prop :=
  ∃ inside, depth ≤ inside ∧ Before barrier inside (program state).state

theorem At.type_eq {tokens : List Tok} {lexer : Lexer}
    (here : At tokens lexer) : lexer.type = headType tokens := by
  obtain ⟨name, value, rfl⟩ := here
  exact type_facing tokens name value

/-- Clearing the payload of a token does not move the lexer. -/
theorem At.clear {tokens : List Tok} {lexer : Lexer} (here : At tokens lexer)
    (name value : Str) : At tokens { lexer with name, value } := by
  obtain ⟨_, _, rfl⟩ := here
  refine ⟨name, value, ?_⟩
  cases tokens <;> rfl

variable (outside : Outside W)

theorem getToken_at {token : Tok} {tokens : List Tok} {state : St W × Lexer}
    (here : At (token :: tokens) state.2) :
    ∃ lexer, getToken outside state = ⟨(state.1, lexer), [], .value ()⟩ ∧
      At tokens lexer := by
  obtain ⟨memory, lexer⟩ := state
  obtain ⟨name, value, rfl⟩ := here
  exact ⟨_, getToken_spell outside memory tokens token.type name value,
    _, _, rfl⟩

/-- Where a lexer before the barrier can be: at the barrier itself, or at a
token after which reading on is known to lead before the barrier again. -/
theorem Before.cases {barrier : List Tok} {depth : Nat}
    {state : St W × Lexer} (before : Before barrier depth state) :
    (At barrier state.2 ∧ depth = 0) ∨
    ∃ next, getToken outside state = ⟨next, [], .value ()⟩ ∧
      ((state.2.type = .lp ∧ Before barrier (depth + 1) next) ∨
        (state.2.type = .rp ∧
          ∃ outer, depth = outer + 1 ∧ Before barrier outer next) ∨
        (isLogic state.2.type = true ∧ Before barrier depth next) ∨
        (state.2.type ≠ .lp ∧ state.2.type ≠ .rp ∧
          isLogic state.2.type = false ∧ Before barrier depth next)) := by
  obtain ⟨tokens, here, closes⟩ := before
  cases closes with
  | nil => exact .inl ⟨here, rfl⟩
  | @lp _ token _ opens rest =>
      obtain ⟨lexer, ran, there⟩ := getToken_at outside here
      have type : state.2.type = token.type := here.type_eq
      exact .inr ⟨_, ran, .inl ⟨type.trans opens, _, there, rest⟩⟩
  | @rp outer token _ closing rest =>
      obtain ⟨lexer, ran, there⟩ := getToken_at outside here
      have type : state.2.type = token.type := here.type_eq
      exact .inr ⟨_, ran, .inr (.inl ⟨type.trans closing, outer, rfl, _, there,
        rest⟩)⟩
  | @logic _ token _ operator rest =>
      obtain ⟨lexer, ran, there⟩ := getToken_at outside here
      have type : state.2.type = token.type := here.type_eq
      rw [← type] at operator
      exact .inr ⟨_, ran, .inr (.inr (.inl ⟨operator, _, there, rest⟩))⟩
  | @other _ token _ notLp notRp notLogic rest =>
      obtain ⟨lexer, ran, there⟩ := getToken_at outside here
      have type : state.2.type = token.type := here.type_eq
      rw [← type] at notLp notRp notLogic
      exact .inr ⟨_, ran, .inr (.inr (.inr ⟨notLp, notRp, notLogic, _, there,
        rest⟩))⟩

section Barrier

variable {barrier : List Tok} (wall : isLogic (headType barrier) = true)
  {depth : Nat} {state : St W × Lexer}

/-- Inside parentheses the parser may read on from a logical operator. -/
theorem read_logic (before : Before barrier depth state)
    (inside : 0 < depth) (logic : isLogic state.2.type = true) :
    ∃ next, getToken outside state = ⟨next, [], .value ()⟩ ∧
      Before barrier depth next := by
  rcases before.cases outside with ⟨_, zero⟩ | ⟨next, ran, places⟩
  · omega
  · rcases places with ⟨lp, _⟩ | ⟨rp, _⟩ | ⟨_, there⟩ | ⟨_, _, other, _⟩
    · rw [lp] at logic
      cases logic
    · rw [rp] at logic
      cases logic
    · exact ⟨next, ran, there⟩
    · rw [other] at logic
      cases logic

include wall

/-- Reading on from a token that is neither a parenthesis nor a logical
operator. -/
theorem read_other (before : Before barrier depth state)
    (notLp : state.2.type ≠ .lp) (notRp : state.2.type ≠ .rp)
    (notLogic : isLogic state.2.type = false) :
    ∃ next, getToken outside state = ⟨next, [], .value ()⟩ ∧
      Before barrier depth next := by
  rcases before.cases outside with ⟨here, _⟩ | ⟨next, ran, places⟩
  · rw [here.type_eq, wall] at notLogic
    cases notLogic
  · rcases places with ⟨lp, _⟩ | ⟨rp, _⟩ | ⟨logic, _⟩ | ⟨_, _, _, there⟩
    · exact absurd lp notLp
    · exact absurd rp notRp
    · rw [notLogic] at logic
      cases logic
    · exact ⟨next, ran, there⟩

theorem read_lp (before : Before barrier depth state)
    (type : state.2.type = .lp) :
    ∃ next, getToken outside state = ⟨next, [], .value ()⟩ ∧
      Before barrier (depth + 1) next := by
  rcases before.cases outside with ⟨here, _⟩ | ⟨next, ran, places⟩
  · rw [← here.type_eq, type] at wall
    cases wall
  · rcases places with ⟨_, there⟩ | ⟨rp, _⟩ | ⟨logic, _⟩ | ⟨notLp, _⟩
    · exact ⟨next, ran, there⟩
    · exact absurd (type.symm.trans rp) nofun
    · rw [type] at logic
      cases logic
    · exact absurd type notLp

theorem read_rp (before : Before barrier depth state)
    (type : state.2.type = .rp) :
    ∃ next outer, getToken outside state = ⟨next, [], .value ()⟩ ∧
      depth = outer + 1 ∧ Before barrier outer next := by
  rcases before.cases outside with ⟨here, _⟩ | ⟨next, ran, places⟩
  · rw [← here.type_eq, type] at wall
    cases wall
  · rcases places with ⟨lp, _⟩ | ⟨_, outer, same, there⟩ | ⟨logic, _⟩ |
      ⟨_, notRp, _⟩
    · exact absurd (type.symm.trans lp) nofun
    · exact ⟨next, outer, ran, same, there⟩
    · rw [type] at logic
      cases logic
    · exact absurd type notRp

end Barrier

section Programs

variable {outside} {barrier : List Tok} {depth : Nat}

theorem Stays.of_state {α : Type} {program : P W α} {state : St W × Lexer}
    (before : Before barrier depth state)
    (same : (program state).state = state) :
    Stays barrier depth program state := by
  refine ⟨depth, Nat.le_refl depth, ?_⟩
  rw [same]
  exact before

theorem Stays.weaken {α : Type} {program : P W α} {state : St W × Lexer}
    {inside : Nat} (stays : Stays barrier inside program state)
    (deeper : depth ≤ inside) : Stays barrier depth program state := by
  obtain ⟨reached, further, before⟩ := stays
  exact ⟨reached, Nat.le_trans deeper further, before⟩

/-- A sequence whose second part may leave parentheses that the first part
stays in. -/
theorem Stays.close {α β : Type} {program : P W α} {next : α → P W β}
    {state : St W × Lexer} {outer : Nat} (lower : outer ≤ depth)
    (first : Stays barrier depth program state)
    (rest : ∀ result inside middle, depth ≤ inside →
      Before barrier inside middle →
      Stays barrier outer (next result) middle) :
    Stays barrier outer (program >>= next) state := by
  obtain ⟨inside, deeper, before⟩ := first
  cases ran : program state with
  | mk middle out outcome =>
      rw [ran] at before
      cases outcome with
      | value result =>
          have later := rest result inside middle deeper before
          unfold Stays at later ⊢
          rw [Prog.bind_eq ran]
          exact later
      | error exception =>
          refine ⟨inside, Nat.le_trans lower deeper, ?_⟩
          rw [Prog.bind_error ran]
          exact before
      | halt reason =>
          refine ⟨inside, Nat.le_trans lower deeper, ?_⟩
          rw [Prog.bind_halt ran]
          exact before

theorem Stays.bind {α β : Type} {program : P W α} {next : α → P W β}
    {state : St W × Lexer} (first : Stays barrier depth program state)
    (rest : ∀ result inside middle, depth ≤ inside →
      Before barrier inside middle →
      Stays barrier inside (next result) middle) :
    Stays barrier depth (program >>= next) state := by
  apply Stays.close (Nat.le_refl depth) first
  intro result inside middle deeper before
  exact (rest result inside middle deeper before).weaken deeper

theorem Stays.tryCatch {α : Type} {body : P W α} {handler : Exc → P W α}
    {state : St W × Lexer} (first : Stays barrier depth body state)
    (handled : ∀ exception inside middle, depth ≤ inside →
      Before barrier inside middle →
      Stays barrier inside (handler exception) middle) :
    Stays barrier depth (body.tryCatch handler) state := by
  obtain ⟨inside, deeper, before⟩ := first
  cases ran : body state with
  | mk middle out outcome =>
      rw [ran] at before
      cases outcome with
      | value result =>
          refine ⟨inside, deeper, ?_⟩
          rw [Prog.tryCatch_eq ran]
          exact before
      | error exception =>
          have later :=
            (handled exception inside middle deeper before).weaken deeper
          unfold Stays at later ⊢
          rw [Prog.tryCatch_error ran]
          exact later
      | halt reason =>
          refine ⟨inside, deeper, ?_⟩
          rw [Prog.tryCatch_halt ran]
          exact before

theorem Stays.congr {α : Type} {program other : P W α}
    {state : St W × Lexer} (stays : Stays barrier depth other state)
    (same : program state = other state) :
    Stays barrier depth program state := by
  unfold Stays at stays ⊢
  rw [same]
  exact stays

/-- A program that stays before the barrier wherever it is started. -/
def StaysAll (barrier : List Tok) {α : Type} (program : P W α) : Prop :=
  ∀ depth state, Before barrier depth state →
    Stays barrier depth program state

theorem number_stays (text : Str) : StaysAll barrier (number outside text) := by
  intro depth state before
  apply Stays.of_state before
  unfold number
  cases outside.dcl.fromStringDouble text <;> rfl

theorem pure_stays {α : Type} (result : α) :
    StaysAll barrier (pure result : P W α) :=
  fun _ _ before => Stays.of_state before rfl

theorem convertException_stays {α : Type} (exception : Exc) :
    StaysAll barrier (convertException outside exception : P W α) := by
  intro depth state before
  apply Stays.of_state before
  unfold convertException
  split <;> rfl

theorem operands_stays {operand : P W Str} (stays : StaysAll barrier operand)
    (left : Str) : StaysAll barrier (operands outside left operand) := by
  intro depth state before
  unfold operands
  split
  · apply (number_stays left depth state before).bind
    intro _ inside middle _ before
    apply (stays inside middle before).bind
    intro text inside middle _ before
    apply (number_stays text inside middle before).bind
    intro _ inside middle _ before
    exact pure_stays _ inside middle before
  · apply (stays depth state before).bind
    intro text inside middle _ before
    apply (number_stays text inside middle before).bind
    intro _ inside middle _ before
    apply (number_stays left inside middle before).bind
    intro _ inside middle _ before
    exact pure_stays _ inside middle before

/-- Reading a token, as the first step of a program. -/
theorem Stays.read {β : Type} {next : Unit → P W β} {middle : St W × Lexer}
    {state : St W × Lexer} {inside : Nat}
    (ran : getToken outside state = ⟨middle, [], .value ()⟩)
    (deeper : depth ≤ inside)
    (rest : Stays barrier inside (next ()) middle) :
    Stays barrier depth (getToken outside >>= next) state := by
  obtain ⟨reached, further, there⟩ := rest
  refine ⟨reached, Nat.le_trans deeper further, ?_⟩
  rw [Prog.bind_silent ran]
  exact there

/-- One binary operator, from the operator on. -/
theorem binary_stays (wall : isLogic (headType barrier) = true)
    {operand : P W Str} (stays : StaysAll barrier operand) (left : Str)
    (operation : outside.dcl.Double → outside.dcl.Double →
      outside.dcl.Double)
    {state : St W × Lexer} (before : Before barrier depth state)
    (notLp : state.2.type ≠ .lp) (notRp : state.2.type ≠ .rp)
    (notLogic : isLogic state.2.type = false) :
    Stays barrier depth (binary outside operand left operation) state := by
  obtain ⟨next, ran, there⟩ :=
    read_other outside wall before notLp notRp notLogic
  apply Stays.read ran (Nat.le_refl depth)
  apply (operands_stays stays left depth next there).bind
  intro pair inside middle _ before
  exact pure_stays _ inside middle before

theorem termLoop_stays (wall : isLogic (headType barrier) = true)
    {prim : P W Str} (stays : StaysAll barrier prim) (loops : Nat)
    (left : Str) : StaysAll barrier (termLoop outside prim loops left) := by
  induction loops generalizing left with
  | zero => exact fun _ _ before => Stays.of_state before rfl
  | succ loops induction =>
      intro depth state before
      obtain ⟨memory, input, type, name, value⟩ := state
      have step (operation : outside.dcl.Double → outside.dcl.Double →
          outside.dcl.Double) (notLp : type ≠ .lp) (notRp : type ≠ .rp)
          (notLogic : isLogic type = false) :
          Stays barrier depth
            (binary outside prim left operation >>=
              termLoop outside prim loops)
            (memory, ⟨input, type, name, value⟩) := by
        apply (binary_stays wall stays left operation before notLp notRp
          notLogic).bind
        intro result inside middle _ before
        exact induction result inside middle before
      cases type with
      | mul => exact (step _ nofun nofun rfl).congr rfl
      | div => exact (step _ nofun nofun rfl).congr rfl
      | mod => exact (step _ nofun nofun rfl).congr rfl
      | pwr => exact (step _ nofun nofun rfl).congr rfl
      | _ => exact Stays.of_state before rfl

theorem term_stays (wall : isLogic (headType barrier) = true)
    {prim : P W Str} (stays : StaysAll barrier prim) (loops : Nat) :
    StaysAll barrier (term outside prim loops) := by
  intro depth state before
  apply (stays depth state before).bind
  intro left inside middle _ before
  apply (termLoop_stays wall stays loops left inside middle before).tryCatch
  intro exception inside middle _ before
  exact convertException_stays exception inside middle before

theorem exprLoop_stays (wall : isLogic (headType barrier) = true)
    {term : P W Str} (stays : StaysAll barrier term) (loops : Nat)
    (left : Str) : StaysAll barrier (exprLoop outside term loops left) := by
  induction loops generalizing left with
  | zero => exact fun _ _ before => Stays.of_state before rfl
  | succ loops induction =>
      intro depth state before
      obtain ⟨memory, input, type, name, value⟩ := state
      have step (operation : outside.dcl.Double → outside.dcl.Double →
          outside.dcl.Double) (notLp : type ≠ .lp) (notRp : type ≠ .rp)
          (notLogic : isLogic type = false) :
          Stays barrier depth
            (binary outside term left operation >>=
              exprLoop outside term loops)
            (memory, ⟨input, type, name, value⟩) := by
        apply (binary_stays wall stays left operation before notLp notRp
          notLogic).bind
        intro result inside middle _ before
        exact induction result inside middle before
      cases type with
      | plus => exact (step _ nofun nofun rfl).congr rfl
      | minus => exact (step _ nofun nofun rfl).congr rfl
      | _ => exact Stays.of_state before rfl

theorem expr_stays (wall : isLogic (headType barrier) = true)
    {term : P W Str} (stays : StaysAll barrier term) (loops : Nat) :
    StaysAll barrier (expr outside term loops) := by
  intro depth state before
  apply (stays depth state before).bind
  intro left inside middle _ before
  apply (exprLoop_stays wall stays loops left inside middle before).tryCatch
  intro exception inside middle _ before
  exact convertException_stays exception inside middle before

/-- What `lexpr` does once it has read a logical operator: an operand is
computed, perhaps twice, or skipped. -/
theorem compare_stays {operand : P W Str} (stays : StaysAll barrier operand)
    (left : Str) (numbers : outside.dcl.Double → outside.dcl.Double → Bool)
    (strings : Str → Str → Bool) :
    StaysAll barrier (Prog.tryCatch
      (do
        let (leftNumber, rightNumber) ← operands outside left operand
        pure (truth (numbers leftNumber rightNumber)))
      (fun _ => do
        let rightText ← operand
        pure (truth (strings left rightText)))) := by
  intro depth state before
  apply Stays.tryCatch
  · apply (operands_stays stays left depth state before).bind
    intro pair inside middle _ before
    exact pure_stays _ inside middle before
  · intro exception inside middle _ before
    apply (stays inside middle before).bind
    intro text inside middle _ before
    exact pure_stays _ inside middle before

/-- What `lexpr` does after its first operand. -/
def logicRest (outside : Outside W) (expr : P W Str) (left : Str) :
    P W Str := do
  match ← tokenType with
  | .lt =>
      compareWith outside expr left outside.dcl.lt fun l r => decide (l < r)
  | .gt =>
      compareWith outside expr left (fun l r => outside.dcl.lt r l)
        fun l r => decide (r < l)
  | .eq =>
      compareWith outside expr left outside.dcl.eq fun l r => l == r
  | .ltEq =>
      compareWith outside expr left outside.dcl.le fun l r => !decide (r < l)
  | .gtEq =>
      compareWith outside expr left (fun l r => outside.dcl.le r l)
        fun l r => !decide (l < r)
  | .notEq =>
      compareWith outside expr left (fun l r => !outside.dcl.eq l r)
        fun l r => l != r
  | .and => do
      getToken outside
      if left == "1".toList then pure (truth ((← expr) == "1".toList))
      else pure (truth false)
  | .or => do
      getToken outside
      if left == "1".toList then pure (truth true)
      else pure (truth ((← expr) == "1".toList))
  | _ => pure left

theorem lexpr_eq (expr : P W Str) :
    lexpr outside expr = expr >>= logicRest outside expr :=
  rfl

/-- From a logical operator on, `lexpr` does no more than compute the right
operand. -/
theorem logicRest_stays {operand : P W Str} (stays : StaysAll barrier operand)
    (left : Str) {state next : St W × Lexer}
    (logic : isLogic state.2.type = true)
    (ran : getToken outside state = ⟨next, [], .value ()⟩)
    (there : Before barrier depth next) :
    Stays barrier depth (logicRest outside operand left) state := by
  obtain ⟨memory, input, type, name, value⟩ := state
  have compared (numbers : outside.dcl.Double → outside.dcl.Double → Bool)
      (strings : Str → Str → Bool) :
      Stays barrier depth (compareWith outside operand left numbers strings)
        (memory, ⟨input, type, name, value⟩) := by
    apply Stays.read ran (Nat.le_refl depth)
    exact compare_stays stays left numbers strings depth next there
  have right : Stays barrier depth
      (do let text ← operand
          pure (truth (text == "1".toList))) next := by
    apply (stays depth next there).bind
    intro text inside middle _ before
    exact pure_stays _ inside middle before
  cases type with
  | lt =>
      exact (compared outside.dcl.lt fun l r => decide (l < r)).congr rfl
  | gt =>
      exact (compared (fun l r => outside.dcl.lt r l)
        fun l r => decide (r < l)).congr rfl
  | eq => exact (compared outside.dcl.eq fun l r => l == r).congr rfl
  | ltEq =>
      exact (compared outside.dcl.le fun l r => !decide (r < l)).congr rfl
  | gtEq =>
      exact (compared (fun l r => outside.dcl.le r l)
        fun l r => !decide (l < r)).congr rfl
  | notEq =>
      exact (compared (fun l r => !outside.dcl.eq l r)
        fun l r => l != r).congr rfl
  | and =>
      have read : Stays barrier depth
          (getToken outside >>= fun _ =>
            if left == "1".toList then
              operand >>= fun text => pure (truth (text == "1".toList))
            else pure (truth false))
          (memory, ⟨input, .and, name, value⟩) := by
        apply Stays.read ran (Nat.le_refl depth)
        split
        · exact right
        · exact pure_stays _ depth next there
      exact read.congr rfl
  | or =>
      have read : Stays barrier depth
          (getToken outside >>= fun _ =>
            if left == "1".toList then pure (truth true)
            else operand >>= fun text => pure (truth (text == "1".toList)))
          (memory, ⟨input, .or, name, value⟩) := by
        apply Stays.read ran (Nat.le_refl depth)
        split
        · exact pure_stays _ depth next there
        · exact right
      exact read.congr rfl
  | _ => cases logic

/-- Without a logical operator, `lexpr` is done after its first operand. -/
theorem logicRest_end (operand : P W Str) (left : Str)
    {state : St W × Lexer} (other : isLogic state.2.type = false) :
    logicRest outside operand left state = ⟨state, [], .value left⟩ := by
  obtain ⟨memory, input, type, name, value⟩ := state
  cases type with
  | lt | gt | eq | ltEq | gtEq | notEq | and | or => cases other
  | _ => rfl

/-- A parenthesised expression cannot get out of its parentheses. -/
theorem lexpr_stays {operand : P W Str} (stays : StaysAll barrier operand)
    {state : St W × Lexer} (before : Before barrier depth state)
    (opened : 0 < depth) :
    Stays barrier depth (lexpr outside operand) state := by
  rw [lexpr_eq]
  apply (stays depth state before).bind
  intro left inside middle deeper before
  cases logic : isLogic middle.2.type with
  | true =>
      have within : 0 < inside := Nat.lt_of_lt_of_le opened deeper
      obtain ⟨next, ran, there⟩ := read_logic outside before within logic
      exact logicRest_stays stays left logic ran there
  | false =>
      apply Stays.of_state before
      rw [logicRest_end operand left logic]

/-- Only the position of the lexer matters. -/
theorem Before.payload {memory other : St W} {lexer : Lexer}
    (before : Before barrier depth (memory, lexer)) (name value : Str) :
    Before barrier depth (other, { lexer with name, value }) := by
  obtain ⟨tokens, here, closes⟩ := before
  exact ⟨tokens, here.clear name value, closes⟩

/-- A program that does not touch the lexer. -/
theorem lift_stays {α : Type} (program : M W α) :
    StaysAll barrier (Prog.lift program : P W α) := by
  intro depth state before
  obtain ⟨memory, lexer⟩ := state
  exact ⟨depth, Nat.le_refl depth, before.payload lexer.name lexer.value⟩

/-- The end of a parenthesised expression. -/
theorem closing_stays (wall : isLogic (headType barrier) = true)
    (inner : Str) (inside : Nat) (state : St W × Lexer)
    (deeper : depth + 1 ≤ inside) (before : Before barrier inside state) :
    Stays barrier depth
      (do if (← tokenType) == TokenType.rp then
            getToken outside
            pure inner
          else
            Prog.throw (outside.dcl.exception
              "invalid expression: \")\" expected" [])) state := by
  have looked : tokenType state = ⟨state, [], .value state.2.type⟩ := rfl
  unfold Stays
  rw [Prog.bind_silent looked]
  split
  · rename_i closed
    obtain ⟨next, outer, ran, same, there⟩ :=
      read_rp outside wall before (beq_iff_eq.mp closed)
    refine ⟨outer, by omega, ?_⟩
    rw [Prog.bind_silent ran]
    exact there
  · exact ⟨inside, by omega, before⟩

theorem prim_stays (wall : isLogic (headType barrier) = true)
    (function : Str → Str → M W Str) (budget : Nat) :
    StaysAll barrier (prim outside function budget) := by
  induction budget with
  | zero => exact fun _ _ before => Stays.of_state before rfl
  | succ budget induction =>
      intro depth state before
      obtain ⟨memory, input, type, name, value⟩ := state
      have other (notLp : type ≠ .lp) (notRp : type ≠ .rp)
          (notLogic : isLogic type = false) :=
        read_other outside wall before notLp notRp notLogic
      cases type with
      | func =>
          obtain ⟨next, ran, there⟩ := other nofun nofun rfl
          have read : Stays barrier depth
              (getToken outside >>= fun _ => do
                let lexer ← Prog.read Prod.snd
                let result ← Prog.lift (function lexer.name lexer.value)
                Prog.modify fun state =>
                  (state.1, { state.2 with value := [] })
                pure result)
              (memory, ⟨input, .func, name, value⟩) := by
            apply Stays.read ran (Nat.le_refl depth)
            have looked : Stays barrier depth (Prog.read Prod.snd) next :=
              Stays.of_state there rfl
            apply looked.bind
            intro lexer inside middle _ before
            apply (lift_stays (function lexer.name lexer.value) inside middle
              before).bind
            intro result inside middle _ before
            exact ⟨inside, Nat.le_refl inside,
              before.payload middle.2.name []⟩
          exact read.congr rfl
      | number =>
          obtain ⟨next, ran, there⟩ := other nofun nofun rfl
          have read : Stays barrier depth
              (getToken outside >>= fun _ => do
                let result ← Prog.read fun state => state.2.value
                Prog.modify fun state =>
                  (state.1, { state.2 with value := [] })
                pure result)
              (memory, ⟨input, .number, name, value⟩) := by
            apply Stays.read ran (Nat.le_refl depth)
            exact ⟨depth, Nat.le_refl depth, there.payload next.2.name []⟩
          exact read.congr rfl
      | name =>
          obtain ⟨next, ran, there⟩ := other nofun nofun rfl
          have read : Stays barrier depth
              (getToken outside >>= fun _ => do
                let name ← Prog.read fun state => state.2.name
                Prog.modify fun state =>
                  (state.1, { state.2 with name := [] })
                Prog.lift (M.getValue name))
              (memory, ⟨input, .name, name, value⟩) := by
            apply Stays.read ran (Nat.le_refl depth)
            exact ⟨depth, Nat.le_refl depth, there.payload [] next.2.value⟩
          exact read.congr rfl
      | minus =>
          obtain ⟨next, ran, there⟩ := other nofun nofun rfl
          have read : Stays barrier depth
              (getToken outside >>= fun _ => Prog.tryCatch
                (do
                  let operand ← number outside
                    (← prim outside function budget)
                  pure (outside.dcl.toStringDouble
                    (outside.dcl.negate operand)))
                (convertException outside))
              (memory, ⟨input, .minus, name, value⟩) := by
            apply Stays.read ran (Nat.le_refl depth)
            apply Stays.tryCatch
            · apply (induction depth next there).bind
              intro text inside middle _ before
              apply (number_stays text inside middle before).bind
              intro operand inside middle _ before
              exact pure_stays _ inside middle before
            · intro exception inside middle _ before
              exact convertException_stays exception inside middle before
          exact read.congr rfl
      | not =>
          obtain ⟨next, ran, there⟩ := other nofun nofun rfl
          have read : Stays barrier depth
              (getToken outside >>= fun _ => do
                let text ← prim outside function budget
                pure (truth (text != "1".toList)))
              (memory, ⟨input, .not, name, value⟩) := by
            apply Stays.read ran (Nat.le_refl depth)
            apply (induction depth next there).bind
            intro text inside middle _ before
            exact pure_stays _ inside middle before
          exact read.congr rfl
      | lp =>
          obtain ⟨next, ran, there⟩ := read_lp outside wall before rfl
          have inner : StaysAll barrier
              (expr outside
                (term outside (prim outside function budget) budget)
                budget) := by
            apply expr_stays wall
            exact term_stays wall induction budget
          have read : Stays barrier depth
              (getToken outside >>= fun _ => do
                let inner ← lexpr outside
                  (expr outside
                    (term outside (prim outside function budget) budget)
                    budget)
                if (← tokenType) == TokenType.rp then
                  getToken outside
                  pure inner
                else
                  Prog.throw (outside.dcl.exception
                    "invalid expression: \")\" expected" []))
              (memory, ⟨input, .lp, name, value⟩) := by
            apply Stays.read ran (Nat.le_refl depth)
            apply Stays.close (Nat.le_succ depth)
              (lexpr_stays inner there (Nat.succ_pos depth))
            intro result inside middle deeper before
            exact closing_stays wall result inside middle deeper before
          exact read.congr rfl
      | «end» => exact Stays.of_state before rfl
      | _ => exact Stays.of_state before rfl

/-- The operands of `lexpr`. -/
theorem operand_stays (outside : Outside W)
    (wall : isLogic (headType barrier) = true)
    (function : Str → Str → M W Str) (budget : Nat) :
    StaysAll barrier
      (expr outside (term outside (prim outside function budget) budget)
        budget) := by
  apply expr_stays wall
  apply term_stays wall
  exact prim_stays wall function budget

end Programs

/-- The chain of logical operators `links` that starts with `first`.  Its
value is the fold of the operators from left to right. -/
def chain (first : SumTree true) (links : List (LogicOp × SumTree true)) :
    LogicTree true :=
  links.foldl (fun left link => .op rfl left link.1 link.2) (.sum first)

/-- The tokens of the links of a chain. -/
def linkTokens : List (LogicOp × SumTree true) → List Tok
  | [] => []
  | (op, operand) :: links => op.token :: (operand.tokens ++ linkTokens links)

theorem tokens_foldl (links : List (LogicOp × SumTree true))
    (left : LogicTree true) :
    (links.foldl (fun left link => LogicTree.op rfl left link.1 link.2)
      left).tokens = left.tokens ++ linkTokens links := by
  induction links generalizing left with
  | nil => simp [linkTokens]
  | cons link links induction =>
      obtain ⟨op, operand⟩ := link
      simp only [List.foldl_cons, induction, LogicTree.tokens, linkTokens,
        List.append_assoc, List.cons_append]

theorem tokens_chain (first : SumTree true)
    (links : List (LogicOp × SumTree true)) :
    (chain first links).tokens = first.tokens ++ linkTokens links := by
  simp only [chain, tokens_foldl, LogicTree.tokens]

/-- The lexer of `calc` on a text when the computation is over. -/
def lexerAfter (outside : Outside W) (function : Str → Str → M W Str)
    (expression : Str) (state : St W) : Lexer :=
  (calculation outside function (expression.length + 2)
    (state, ⟨expression, outside.rawToken, [], []⟩)).state.2

theorem isLogic_headType (links : List (LogicOp × SumTree true))
    (present : links ≠ []) :
    isLogic (headType (linkTokens links)) = true := by
  cases links with
  | nil => exact absurd rfl present
  | cons link links =>
      obtain ⟨op, operand⟩ := link
      cases op <;> rfl

/-- A lexer before a barrier is not at the end. -/
theorem Before.type_ne_end {barrier : List Tok} {depth : Nat}
    {state : St W × Lexer} (wall : isLogic (headType barrier) = true)
    (before : Before barrier depth state) : state.2.type ≠ .end := by
  obtain ⟨tokens, here, _⟩ := before
  rw [here.type_eq]
  cases tokens with
  | nil =>
      intro same
      rw [List.nil_append] at same
      rw [same] at wall
      cases wall
  | cons token tokens => exact Evaluator.type_ne_end token

section Chain

variable (function : Str → Str → M W Str) (budget : Nat)
  (link : LogicOp × SumTree true) {links : List (LogicOp × SumTree true)}
  (present : links ≠ [])

include present

/-- From the first operator of a chain on, `lexpr` does not get past the
second one; inside the first operand it may find other operators. -/
theorem logicRest_chain {depth : Nat} {state : St W × Lexer}
    (before : Before (linkTokens (link :: links)) depth state) (left : Str) :
    ((logicRest outside
      (expr outside (term outside (prim outside function budget) budget)
        budget) left) state).state.2.type ≠ .end := by
  have wall₁ := isLogic_headType (link :: links) (List.cons_ne_nil link links)
  have wall₂ := isLogic_headType links present
  cases logic : isLogic state.2.type with
  | false =>
      rw [logicRest_end _ left logic]
      exact before.type_ne_end wall₁
  | true =>
      rcases before.cases outside with ⟨here, _⟩ | ⟨next, ran, places⟩
      · -- The operator of the link: the wall is now the next operator.
        obtain ⟨lexer, ran, there⟩ := getToken_at outside here
        have operand := sum_closes link.2 Closes.nil
        rw [List.append_nil] at operand
        have stays := logicRest_stays
          (operand_stays outside wall₂ function budget) left logic ran
          ⟨link.2.tokens, there, operand⟩
        obtain ⟨_, _, last⟩ := stays
        exact last.type_ne_end wall₂
      · have there : ∃ inside,
            Before (linkTokens (link :: links)) inside next := by
          rcases places with ⟨_, there⟩ | ⟨_, _, _, there⟩ | ⟨_, there⟩ |
            ⟨_, _, _, there⟩
          all_goals exact ⟨_, there⟩
        obtain ⟨inside, there⟩ := there
        have stays := logicRest_stays
          (operand_stays outside wall₁ function budget) left logic ran there
        obtain ⟨_, _, last⟩ := stays
        exact last.type_ne_end wall₁

theorem lexpr_chain {state : St W × Lexer}
    (before : Before (linkTokens (link :: links)) 0 state) :
    ((lexpr outside
      (expr outside (term outside (prim outside function budget) budget)
        budget)) state).state.2.type ≠ .end := by
  have wall := isLogic_headType (link :: links) (List.cons_ne_nil link links)
  have first := operand_stays outside wall function budget 0 state before
  obtain ⟨inside, _, reached⟩ := first
  rw [lexpr_eq]
  cases ran : expr outside
      (term outside (prim outside function budget) budget) budget state with
  | mk middle out outcome =>
      rw [ran] at reached
      cases outcome with
      | value left =>
          rw [Prog.bind_eq ran]
          exact logicRest_chain outside function budget link present reached
            left
      | error exception =>
          rw [Prog.bind_error ran]
          exact reached.type_ne_end wall
      | halt reason =>
          rw [Prog.bind_halt ran]
          exact reached.type_ne_end wall

end Chain

/-- `calc` returns the fold of a chain of logical operators, and it has read
the whole chain to compute it. -/
def Folds (outside : Outside W) (function : Str → Str → M W Str)
    (first : SumTree true) (links : List (LogicOp × SumTree true))
    (state : St W) : Prop :=
  ∃ value,
    (calculate outside function (spell (chain first links).tokens)
      state).outcome = .value value ∧
    (chain first links).value outside.dcl state.contexts = some value ∧
    (lexerAfter outside function (spell (chain first links).tokens)
      state).type = .end

/-- A chain of two or more logical operators is never read to its end: the
second operator and everything after it is ignored. -/
theorem calculate_chain (function : Str → Str → M W Str)
    (first : SumTree true) (link₁ link₂ : LogicOp × SumTree true)
    (links : List (LogicOp × SumTree true)) (state : St W) :
    ¬ Folds outside function first (link₁ :: link₂ :: links) state := by
  rintro ⟨value, _, _, ended⟩
  have operand := sum_closes first Closes.nil
  rw [List.append_nil] at operand
  have tokens := tokens_chain first (link₁ :: link₂ :: links)
  have present : first.tokens ++ linkTokens (link₁ :: link₂ :: links) ≠ [] := by
    simp [linkTokens]
  have before : Before (linkTokens (link₁ :: link₂ :: links)) 0
      (state, started (first.tokens ++
        linkTokens (link₁ :: link₂ :: links)) []) :=
    ⟨first.tokens, ⟨_, _, rfl⟩, operand⟩
  unfold lexerAfter at ended
  rw [tokens, calculation_spell outside function state present] at ended
  exact lexpr_chain outside function _ link₁ (List.cons_ne_nil link₂ links)
    before ended

/-- The result of a chain can also be wrong: in `1 = 1 = 0` the comparison
with `0` is lost. -/
theorem chain_ignores_last :
    let digit (text : Str) (present : text ≠ [])
        (plain : text.all Lexer.isNumberChar = true) : SumTree true :=
      .term (.prim (.number text present plain))
    let one := digit "1".toList nofun (by decide)
    let zero := digit "0".toList nofun (by decide)
    let tree := chain one [(.eq, one), (.eq, zero)]
    (calculate Outside.plain (fun _ _ => pure []) (spell tree.tokens)
        (St.fresh [])).outcome = .value "1".toList ∧
      tree.value Outside.plain.dcl [] = some "0".toList := by
  exact ⟨rfl, rfl⟩

end Evaluator

end DbPager
