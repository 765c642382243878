import DbPager.Congruence
import DbPager.Grammar

/-!
# What the evaluator accepts

The evaluator computes while it parses, and on some branches it accepts a
text without having parsed it: the end of the text is taken for a primary,
`&` and `|` skip a right operand, a comparison computes its right operand
again after an exception, what follows the first logical operator is ignored,
and some texts that are no tokens are read as such.  The strict evaluator is the same program with these branches
removed.  It returns for sentences of the grammar only, and where it does
not stop it is the evaluator.
-/

namespace DbPager

open Effect

namespace Evaluator

variable {W : Type} (outside : Outside W)

/-- `getToken` where what is read has to be a token of the grammar. -/
def strictToken : P W Unit := do
  let clear ← Prog.read fun state => Grammar.clearText state.2.input
  getToken outside
  if clear then pure () else Prog.halt .fault

/-- `compareWith` where the right operand is not computed twice. -/
def strictCompare (right : P W Str) (left : Str)
    (numbers : outside.dcl.Double → outside.dcl.Double → Bool)
    (strings : Str → Str → Bool) : P W Str := do
  strictToken outside
  if outside.leftFirst && (outside.dcl.fromStringDouble left).isNone then
    -- The left operand raises before the right one is computed.
    let rightText ← right
    pure (truth (strings left rightText))
  else
    Prog.tryCatch
      (do
        let (leftNumber, rightNumber) ← operands outside left right
        pure (truth (numbers leftNumber rightNumber)))
      (fun _ => Prog.halt .fault)

/-- `lexpr` where no right operand is skipped. -/
def strictRest (expr : P W Str) (left : Str) : P W Str := do
  match ← tokenType with
  | .lt =>
      strictCompare outside expr left outside.dcl.lt fun l r => decide (l < r)
  | .gt =>
      strictCompare outside expr left (fun l r => outside.dcl.lt r l)
        fun l r => decide (r < l)
  | .eq =>
      strictCompare outside expr left outside.dcl.eq fun l r => l == r
  | .ltEq =>
      strictCompare outside expr left outside.dcl.le
        fun l r => !decide (r < l)
  | .gtEq =>
      strictCompare outside expr left (fun l r => outside.dcl.le r l)
        fun l r => !decide (l < r)
  | .notEq =>
      strictCompare outside expr left (fun l r => !outside.dcl.eq l r)
        fun l r => l != r
  | .and => do
      strictToken outside
      if left == "1".toList then pure (truth ((← expr) == "1".toList))
      else Prog.halt .fault
  | .or => do
      strictToken outside
      if left == "1".toList then Prog.halt .fault
      else pure (truth ((← expr) == "1".toList))
  | _ => pure left

def strictLexpr (expr : P W Str) : P W Str :=
  expr >>= strictRest outside expr

def strictBinary (operand : P W Str) (left : Str)
    (operation : outside.dcl.Double → outside.dcl.Double →
      outside.dcl.Double) : P W Str := do
  strictToken outside
  let (leftNumber, rightNumber) ← operands outside left operand
  pure (outside.dcl.toStringDouble (operation leftNumber rightNumber))

def strictExprLoop (term : P W Str) : Nat → Str → P W Str
  | 0, _ => Prog.halt .timeout
  | budget + 1, left => do
      match ← tokenType with
      | .plus =>
          strictExprLoop term budget
            (← strictBinary outside term left outside.dcl.add)
      | .minus =>
          strictExprLoop term budget
            (← strictBinary outside term left outside.dcl.sub)
      | _ => pure left

def strictExpr (term : P W Str) (budget : Nat) : P W Str := do
  let left ← term
  Prog.tryCatch (strictExprLoop outside term budget left)
    (convertException outside)

def strictTermLoop (prim : P W Str) : Nat → Str → P W Str
  | 0, _ => Prog.halt .timeout
  | budget + 1, left => do
      match ← tokenType with
      | .mul =>
          strictTermLoop prim budget
            (← strictBinary outside prim left outside.dcl.mul)
      | .div =>
          strictTermLoop prim budget
            (← strictBinary outside prim left outside.dcl.div)
      | .mod =>
          strictTermLoop prim budget
            (← strictBinary outside prim left outside.dcl.fmod)
      | .pwr =>
          strictTermLoop prim budget
            (← strictBinary outside prim left outside.dcl.pow)
      | _ => pure left

def strictTerm (prim : P W Str) (budget : Nat) : P W Str := do
  let left ← prim
  Prog.tryCatch (strictTermLoop outside prim budget left)
    (convertException outside)

variable (function : Str → Str → M W Str)

/-- `prim` where the end of the text is not a primary. -/
def strictPrim : Nat → P W Str
  | 0 => Prog.halt .timeout
  | budget + 1 => do
      match ← tokenType with
      | .func =>
          strictToken outside
          let lexer ← Prog.read Prod.snd
          let result ← Prog.lift (function lexer.name lexer.value)
          Prog.modify fun state => (state.1, { state.2 with value := [] })
          pure result
      | .number =>
          strictToken outside
          let result ← Prog.read fun state => state.2.value
          Prog.modify fun state => (state.1, { state.2 with value := [] })
          pure result
      | .name =>
          strictToken outside
          let name ← Prog.read fun state => state.2.name
          Prog.modify fun state => (state.1, { state.2 with name := [] })
          Prog.lift (M.getValue name)
      | .minus =>
          strictToken outside
          Prog.tryCatch
            (do
              let operand ← number outside (← strictPrim budget)
              pure (outside.dcl.toStringDouble (outside.dcl.negate operand)))
            (convertException outside)
      | .not =>
          strictToken outside
          pure (truth ((← strictPrim budget) != "1".toList))
      | .lp =>
          strictToken outside
          let inner ← strictLexpr outside
            (strictExpr outside
              (strictTerm outside (strictPrim budget) budget) budget)
          if (← tokenType) == .rp then
            strictToken outside
            pure inner
          else
            Prog.throw
              (outside.dcl.exception "invalid expression: \")\" expected" [])
      | .end => Prog.halt .fault
      | _ =>
          Prog.throw
            (outside.dcl.exception "invalid expression: primary expected" [])

/-- `calc` where the text must end with the expression. -/
def strictCalculation (budget : Nat) : P W Str := do
  strictToken outside
  if (← tokenType) == .end then pure []
  else
    let value ← strictLexpr outside
      (strictExpr outside
        (strictTerm outside (strictPrim outside function budget) budget)
        budget)
    if (← tokenType) == .end then pure value else Prog.halt .fault

/-- The evaluation of a text takes none of the branches that accept a text
without parsing it, and reads no text for a token that is none. -/
def Strict (text : Str) (state : St W) : Prop :=
  (strictCalculation outside function (text.length + 2)
    (state, ⟨text, outside.rawToken, [], []⟩)).outcome ≠ .halt .fault

section Guards

variable {function}

/-- A token of the grammar is read as ever. -/
theorem strictToken_guards :
    Prog.Guards (strictToken outside) (getToken outside) := by
  apply Prog.Guards.of_eq
  intro state
  have looked : Prog.read (fun state : St W × Lexer =>
      Grammar.clearText state.2.input) state =
        (⟨state, [], .value (Grammar.clearText state.2.input)⟩ :
          Run (St W × Lexer) Exc Char Bool) := rfl
  unfold strictToken
  rw [Prog.bind_silent looked]
  cases ran : getToken outside state with
  | mk middle out outcome =>
      cases outcome with
      | value result =>
          rw [Prog.bind_eq ran]
          cases Grammar.clearText state.2.input with
          | true =>
              refine .inr ?_
              simp [Pure.pure, Prog.pure]
          | false => exact .inl rfl
      | error exception =>
          rw [Prog.bind_error ran]
          exact .inr rfl
      | halt reason =>
          rw [Prog.bind_halt ran]
          exact .inr rfl

theorem strictBinary_guards {guarded operand : P W Str}
    (guards : Prog.Guards guarded operand) (left : Str)
    (operation : outside.dcl.Double → outside.dcl.Double →
      outside.dcl.Double) :
    Prog.Guards (strictBinary outside guarded left operation)
      (binary outside operand left operation) := by
  apply (strictToken_guards outside).bind
  intro _
  apply (operands_tends outside guards left).bind
  intro _
  exact .refl _

theorem strictTermLoop_guards {guarded prim : P W Str}
    (guards : Prog.Guards guarded prim) (loops : Nat) (left : Str) :
    Prog.Guards (strictTermLoop outside guarded loops left)
      (termLoop outside prim loops left) := by
  induction loops generalizing left with
  | zero => exact .refl _
  | succ loops induction =>
      apply Prog.Guards.bind (.refl tokenType)
      intro type
      cases type with
      | mul | div | mod | pwr =>
          exact (strictBinary_guards outside guards left _).bind induction
      | _ => exact .refl _

theorem strictExprLoop_guards {guarded term : P W Str}
    (guards : Prog.Guards guarded term) (loops : Nat) (left : Str) :
    Prog.Guards (strictExprLoop outside guarded loops left)
      (exprLoop outside term loops left) := by
  induction loops generalizing left with
  | zero => exact .refl _
  | succ loops induction =>
      apply Prog.Guards.bind (.refl tokenType)
      intro type
      cases type with
      | plus | minus =>
          exact (strictBinary_guards outside guards left _).bind induction
      | _ => exact .refl _

theorem operand_guards {guarded prim : P W Str}
    (guards : Prog.Guards guarded prim) (loops : Nat) :
    Prog.Guards
      (strictExpr outside (strictTerm outside guarded loops) loops)
      (expr outside (term outside prim loops) loops) := by
  have terms : Prog.Guards (strictTerm outside guarded loops)
      (term outside prim loops) := by
    apply guards.bind
    intro left
    apply (strictTermLoop_guards outside guards loops left).tryCatch
    intro _
    exact .refl _
  apply terms.bind
  intro left
  apply (strictExprLoop_guards outside terms loops left).tryCatch
  intro _
  exact .refl _

theorem strictCompare_guards {guarded right : P W Str}
    (guards : Prog.Guards guarded right) (left : Str)
    (numbers : outside.dcl.Double → outside.dcl.Double → Bool)
    (strings : Str → Str → Bool) :
    Prog.Guards (strictCompare outside guarded left numbers strings)
      (compareWith outside right left numbers strings) := by
  apply (strictToken_guards outside).bind
  intro _
  split
  · rename_i early
    simp only [Bool.and_eq_true, Option.isNone_iff_eq_none] at early
    have again : Prog.Guards
        (guarded >>= fun text => pure (truth (strings left text)))
        (right >>= fun text => pure (truth (strings left text))) := by
      apply guards.bind
      intro _
      exact .refl _
    have once : Prog.tryCatch
        (do
          let (leftNumber, rightNumber) ← operands outside left right
          pure (truth (numbers leftNumber rightNumber)))
        (fun _ => do
          let rightText ← right
          pure (truth (strings left rightText))) =
        (right >>= fun text => pure (truth (strings left text))) := by
      funext state
      have raised := operands_left right early.1 early.2 state
      rw [Prog.tryCatch_error (Prog.bind_error raised _)]
      rfl
    rw [once]
    exact again
  · apply Prog.Guards.tryCatch
    · apply (operands_tends outside guards left).bind
      intro _
      exact .refl _
    · intro _
      exact .fault _

theorem strictLexpr_guards {guarded operand : P W Str}
    (guards : Prog.Guards guarded operand) :
    Prog.Guards (strictLexpr outside guarded) (lexpr outside operand) := by
  rw [lexpr_eq]
  apply guards.bind
  intro left
  have right : Prog.Guards
      (guarded >>= fun text => pure (truth (text == "1".toList)))
      (operand >>= fun text => pure (truth (text == "1".toList))) := by
    apply guards.bind
    intro _
    exact .refl _
  apply Prog.Guards.bind (.refl tokenType)
  intro type
  cases type with
  | lt | gt | eq | ltEq | gtEq | notEq =>
      exact strictCompare_guards outside guards left _ _
  | and =>
      apply (strictToken_guards outside).bind
      intro _
      split
      · exact right
      · exact .fault _
  | or =>
      apply (strictToken_guards outside).bind
      intro _
      split
      · exact .fault _
      · exact right
  | _ => exact .refl _

theorem strictPrim_guards (budget : Nat) :
    Prog.Guards (strictPrim outside function budget)
      (prim outside function budget) := by
  induction budget with
  | zero => exact .refl _
  | succ budget induction =>
      have token := strictToken_guards outside
      apply Prog.Guards.bind (.refl tokenType)
      intro type
      cases type with
      | func | number | name => exact token.bind fun _ => .refl _
      | minus =>
          apply token.bind
          intro _
          apply Prog.Guards.tryCatch
          · apply induction.bind
            intro _
            exact .refl _
          · intro _
            exact .refl _
      | not =>
          apply token.bind
          intro _
          apply induction.bind
          intro _
          exact .refl _
      | lp =>
          apply token.bind
          intro _
          apply (strictLexpr_guards outside
            (operand_guards outside induction budget)).bind
          intro _
          apply Prog.Guards.bind (.refl tokenType)
          intro type
          split
          · exact token.bind fun _ => .refl _
          · exact .refl _
      | «end» => exact .fault _
      | _ => exact .refl _

/-- The text must end where the program stops. -/
theorem ended_guards {guarded program : P W Str}
    (guards : Prog.Guards guarded program) :
    Prog.Guards
      (do
        let value ← guarded
        if (← tokenType) == TokenType.end then pure value
        else Prog.halt .fault)
      program := by
  apply Prog.Guards.of_eq
  intro state
  by_cases stopped : (guarded state).outcome = .halt .fault
  · exact .inl (Prog.outcome_bind_halt stopped _)
  · have same := guards.resolve stopped
    cases ran : guarded state with
    | mk middle out outcome =>
        rw [ran] at same
        cases outcome with
        | value result =>
            have looked : tokenType middle =
                ⟨middle, [], .value middle.2.type⟩ := rfl
            rw [Prog.bind_eq ran, Prog.bind_silent looked]
            cases ended : middle.2.type == TokenType.end with
            | true =>
                rw [same]
                refine .inr ?_
                simp [Pure.pure, Prog.pure]
            | false => exact .inl rfl
        | error exception =>
            rw [Prog.bind_error ran]
            exact .inr same.symm
        | halt reason =>
            rw [Prog.bind_halt ran]
            exact .inr same.symm

theorem strictCalculation_guards (budget : Nat) :
    Prog.Guards (strictCalculation outside function budget)
      (calculation outside function budget) := by
  apply (strictToken_guards outside).bind
  intro _
  apply Prog.Guards.bind (.refl _)
  intro type
  split
  · exact .refl _
  · apply ended_guards
    apply strictLexpr_guards
    apply operand_guards
    exact strictPrim_guards outside budget

end Guards

section Sound

open Grammar

/-- The exceptions of the evaluator and of the functions it calls. -/
def Raised (exception : Exc) : Prop :=
  exception.cls = .dbp ∨
    ∃ name params start,
      (function name params start).outcome = .error exception

/-- The same before `expr` and `term` have converted the exceptions of
`from_string`. -/
def Unconverted (exception : Exc) : Prop :=
  Raised function exception ∨ exception.cls = .typeConversion

def Halted (reason : Halt) : Prop :=
  reason = .fault ∨
    ∃ name params start,
      (function name params start).outcome = .halt reason

/-- A program that returns has read a part of the given kind. -/
def Post (errors : Exc → Prop) (kind : Str → Prop) (text : Str) {α : Type}
    (run : Run (St W × Lexer) Exc Char α) : Prop :=
  match run.outcome with
  | .value _ => ∃ part rest, text = part ++ rest ∧ kind part ∧
      Facing rest run.state.2
  | .error exception => errors exception
  | .halt reason => Halted function reason

/-- A program that reads a part of the given kind wherever it is started, with
a budget for as many characters. -/
def Accepts (errors : Exc → Prop) (kind : Str → Prop) (budget : Nat)
    {α : Type} (program : P W α) : Prop :=
  ∀ state lexer text, Facing text lexer → text.length < budget →
    Post function errors kind text (program (state, lexer))

variable {outside function} {errors : Exc → Prop} {kind : Str → Prop}

theorem Post.bind {α β : Type} {first : P W α} {next : α → P W β}
    {state : St W × Lexer} {text : Str} {later whole : Str → Prop}
    (ran : Post function errors kind text (first state))
    (rest : ∀ result memory lexer part rest, text = part ++ rest →
      kind part → Facing rest lexer →
      Post function errors later rest (next result (memory, lexer)))
    (both : ∀ part rest, kind part → later rest → whole (part ++ rest)) :
    Post function errors whole text ((first >>= next) state) := by
  unfold Post at ran
  cases reached : first state with
  | mk middle out outcome =>
      rw [reached] at ran
      cases outcome with
      | value result =>
          obtain ⟨part, remaining, split, known, facing⟩ := ran
          have after := rest result middle.1 middle.2 part remaining split
            known facing
          unfold Post at after ⊢
          rw [Prog.bind_eq reached]
          simp only
          split
          · rename_i value done
            rw [done] at after
            obtain ⟨second, left, split', known', facing'⟩ := after
            refine ⟨part ++ second, left, ?_, both _ _ known known', facing'⟩
            rw [split, split', List.append_assoc]
          · rename_i exception raised
            rw [raised] at after
            exact after
          · rename_i reason stopped
            rw [stopped] at after
            exact after
      | error exception =>
          unfold Post
          rw [Prog.bind_error reached]
          exact ran
      | halt reason =>
          unfold Post
          rw [Prog.bind_halt reached]
          exact ran

theorem Post.mono {α : Type} {run : Run (St W × Lexer) Exc Char α}
    {text : Str} {wider : Exc → Prop} {larger : Str → Prop}
    (ran : Post function errors kind text run)
    (wide : ∀ exception, errors exception → wider exception)
    (large : ∀ part, kind part → larger part) :
    Post function wider larger text run := by
  unfold Post at ran ⊢
  split
  · rename_i value done
    rw [done] at ran
    obtain ⟨part, rest, split, known, facing⟩ := ran
    exact ⟨part, rest, split, large part known, facing⟩
  · rename_i exception raised
    rw [raised] at ran
    exact wide exception ran
  · rename_i reason stopped
    rw [stopped] at ran
    exact ran

/-- A program that does not read. -/
theorem Post.silent {α : Type} {run : Run (St W × Lexer) Exc Char α}
    {text : Str} {result : α} (returned : run.outcome = .value result)
    (facing : Facing text run.state.2) :
    Post function errors (fun part => part = []) text run := by
  unfold Post
  rw [returned]
  exact ⟨[], text, rfl, rfl, facing⟩

theorem Post.congr {α : Type} {run other : Run (St W × Lexer) Exc Char α}
    {text : Str} (ran : Post function errors kind text other)
    (same : run = other) : Post function errors kind text run := by
  rw [same]
  exact ran

/-- Reading on reads a token of the grammar behind blanks, raises the
evaluator's exception, or stops. -/
theorem strictToken_cases (outside : Outside W) (state : St W)
    (lexer : Lexer) :
    (∃ next blanks rest,
      strictToken outside (state, lexer) = ⟨(state, next), [], .value ()⟩ ∧
      lexer.input = blanks ++ rest ∧ Blank blanks ∧ Facing rest next) ∨
    (∃ next exception,
      strictToken outside (state, lexer) =
        ⟨(state, next), [], .error exception⟩ ∧ exception.cls = .dbp) ∨
    ∃ middle out,
      strictToken outside (state, lexer) = ⟨middle, out, .halt .fault⟩ := by
  have looked : Prog.read (fun state : St W × Lexer =>
      Grammar.clearText state.2.input) (state, lexer) =
        (⟨(state, lexer), [], .value (Grammar.clearText lexer.input)⟩ :
          Run (St W × Lexer) Exc Char Bool) := rfl
  unfold strictToken
  rw [Prog.bind_silent looked]
  cases clear : Grammar.clearText lexer.input with
  | true =>
      rcases getToken_facing outside.dcl clear with
        ⟨next, blanks, rest, read, split, blank, facing⟩ |
        ⟨next, exception, read, cls⟩
      · have ran : getToken outside (state, lexer) =
            ⟨(state, next), [], .value ()⟩ := by
          simp [getToken, Prog.act, read]
        refine .inl ⟨next, blanks, rest, ?_, split, blank, facing⟩
        rw [Prog.bind_silent ran]
        rfl
      · have ran : getToken outside (state, lexer) =
            ⟨(state, next), [], .error exception⟩ := by
          simp [getToken, Prog.act, read]
        exact .inr (.inl ⟨next, exception, Prog.bind_error ran _, cls⟩)
  | false =>
      cases read : lexer.getToken outside.dcl with
      | mk next raised =>
          cases raised with
          | none =>
              have ran : getToken outside (state, lexer) =
                  ⟨(state, next), [], .value ()⟩ := by
                simp [getToken, Prog.act, read]
              rw [Prog.bind_silent ran]
              exact .inr (.inr ⟨(state, next), [], rfl⟩)
          | some exception =>
              have ran : getToken outside (state, lexer) =
                  ⟨(state, next), [], .error exception⟩ := by
                simp [getToken, Prog.act, read]
              exact .inr (.inl ⟨next, exception, Prog.bind_error ran _,
                getToken_raises read⟩)

/-- Reading on from a token consumes it and the blanks after it. -/
theorem strictToken_post {text : Str} {lexer : Lexer} (state : St W)
    (facing : Facing text lexer) :
    Post function (fun exception => exception.cls = .dbp)
      (Token lexer.type) text (strictToken outside (state, lexer)) := by
  obtain ⟨lexeme, known, whole⟩ := facing.lexeme
  rcases strictToken_cases outside state lexer with
    ⟨next, blanks, rest, ran, split, blank, there⟩ |
    ⟨next, exception, ran, cls⟩ | ⟨middle, out, ran⟩
  · rw [ran]
    refine ⟨lexeme ++ blanks, rest, ?_, ⟨lexeme, blanks, known, blank, rfl⟩,
      there⟩
    rw [whole, split, List.append_assoc]
  · rw [ran]
    exact cls
  · rw [ran]
    exact .inl rfl

/-- What is read first, and what is read after it with less text left. -/
theorem Post.read {β : Type} {text : Str} {lexer : Lexer} {state : St W}
    {next : Unit → P W β} {later whole : Str → Prop}
    (facing : Facing text lexer)
    (own : ∀ exception, exception.cls = .dbp → errors exception)
    (other : lexer.type ≠ .end)
    (rest : ∀ memory following rest, rest.length < text.length →
      Facing rest following →
      Post function errors later rest (next () (memory, following)))
    (both : ∀ part rest, Token lexer.type part → later rest →
      whole (part ++ rest)) :
    Post function errors whole text
      ((strictToken outside >>= next) (state, lexer)) := by
  apply Post.bind ((strictToken_post state facing).mono own fun _ known => known)
  · intro _ memory following part remaining split known there
    apply rest memory following remaining _ there
    obtain ⟨lexeme, blanks, known, _, rfl⟩ := known
    have positive := known.length_pos other
    rw [split, List.length_append, List.length_append]
    omega
  · exact both

/-- A first step that does not read. -/
theorem Post.after {α β : Type} {first : P W α} {next : α → P W β}
    {state : St W × Lexer} {text : Str}
    (ran : Post function errors (fun part => part = []) text
      (first state))
    (rest : ∀ result memory lexer, Facing text lexer →
      Post function errors kind text
        (next result (memory, lexer))) :
    Post function errors kind text ((first >>= next) state) := by
  apply ran.bind
  · intro result memory lexer part rest' split none facing
    subst none
    subst split
    exact rest result memory lexer facing
  · rintro _ rest rfl known
    exact known

/-- A last step that does not read. -/
theorem Post.before {α β : Type} {first : P W α} {next : α → P W β}
    {state : St W × Lexer} {text : Str}
    (ran : Post function errors kind text (first state))
    (rest : ∀ result memory lexer rest, Facing rest lexer →
      Post function errors (fun part => part = []) rest
        (next result (memory, lexer))) :
    Post function errors kind text ((first >>= next) state) := by
  apply ran.bind
  · intro result memory lexer part rest' split known facing
    exact rest result memory lexer rest' facing
  · rintro part _ known rfl
    rw [List.append_nil]
    exact known

theorem number_post (number : Str) {text : Str} {lexer : Lexer}
    (state : St W) (facing : Facing text lexer) :
    Post function (Unconverted function) (fun part => part = []) text
      (Evaluator.number outside number (state, lexer)) := by
  cases converted : outside.dcl.fromStringDouble number with
  | some x =>
      rw [number_some converted]
      exact Post.silent rfl facing
  | none =>
      rw [number_none converted]
      exact .inr rfl

theorem operands_accepts {operand : P W Str} {budget : Nat}
    (accepts : Accepts function (Unconverted function) kind budget
      operand) (left : Str) :
    Accepts function (Unconverted function) kind budget
      (operands outside left operand) := by
  intro state lexer text facing enough
  unfold operands
  split
  · apply (number_post left state facing).after
    intro _ memory lexer facing
    apply (accepts memory lexer text facing enough).before
    intro right memory lexer rest facing
    apply (number_post right memory facing).after
    intro _ memory lexer facing
    exact Post.silent rfl facing
  · apply (accepts state lexer text facing enough).before
    intro right memory lexer rest facing
    apply (number_post right memory facing).after
    intro _ memory lexer facing
    apply (number_post left memory facing).after
    intro _ memory lexer facing
    exact Post.silent rfl facing

theorem Raised.own {exception : Exc} (cls : exception.cls = .dbp) :
    Raised function exception :=
  .inl cls

theorem Unconverted.own {exception : Exc} (cls : exception.cls = .dbp) :
    Unconverted function exception :=
  .inl (.inl cls)

/-- An operator of `term` or `expr` and its right operand. -/
theorem binary_post {operand : P W Str} {budget : Nat}
    (accepts : Accepts function (Raised function) kind budget operand)
    (left : Str)
    (operation : outside.dcl.Double → outside.dcl.Double →
      outside.dcl.Double)
    {text : Str} {lexer : Lexer} (state : St W)
    (facing : Facing text lexer) (enough : text.length < budget)
    (other : lexer.type ≠ .end) {whole : Str → Prop}
    (both : ∀ part rest, Token lexer.type part → kind rest →
      whole (part ++ rest)) :
    Post function (Unconverted function) whole text
      (strictBinary outside operand left operation (state, lexer)) := by
  have operand' : Accepts function (Unconverted function) kind budget
      operand := by
    intro state lexer text facing enough
    exact (accepts state lexer text facing enough).mono (fun _ => .inl)
      fun _ known => known
  apply Post.read facing (fun _ => Unconverted.own) other _ both
  intro memory following rest shorter there
  apply (operands_accepts operand' left memory following rest there
    (by omega)).before
  intro _ memory lexer rest facing
  exact Post.silent rfl facing

/-- The handler of `expr` and `term`. -/
theorem Post.convert {α : Type} {body : P W α} {state : St W × Lexer}
    {text : Str}
    (ran : Post function (Unconverted function) kind text
      (body state)) :
    Post function (Raised function) kind text
      (body.tryCatch (convertException outside) state) := by
  unfold Post at ran
  cases reached : body state with
  | mk middle out outcome =>
      rw [reached] at ran
      cases outcome with
      | value result =>
          rw [Prog.tryCatch_eq reached]
          exact ran
      | halt reason =>
          rw [Prog.tryCatch_halt reached]
          exact ran
      | error exception =>
          rw [Prog.tryCatch_error reached]
          unfold convertException
          split
          · exact .inl rfl
          · rename_i other
            rcases ran with raised | converted
            · exact raised
            · exact absurd (beq_iff_eq.mpr converted) other

theorem Token.length_pos {type : TokenType} {text : Str}
    (token : Token type text) (other : type ≠ .end) : 0 < text.length := by
  obtain ⟨lexeme, blanks, known, _, rfl⟩ := token
  have positive := known.length_pos other
  rw [List.length_append]
  omega

/-- What continues a text of the given kind. -/
def Continues (level : Str → Prop) (part : Str) : Prop :=
  ∀ left, level left → level (left ++ part)

theorem continues_nil {level : Str → Prop} {part : Str} (none : part = []) :
    Continues level part := by
  intro left known
  rw [none, List.append_nil]
  exact known

theorem pure_continues {level : Str → Prop} (left : Str) {text : Str}
    {lexer : Lexer} (state : St W) (facing : Facing text lexer) :
    Post function errors (Continues level) text
      ((pure left : P W Str) (state, lexer)) := by
  have silent : Post function errors (fun part => part = []) text
      ((pure left : P W Str) (state, lexer)) :=
    Post.silent rfl facing
  exact silent.mono (fun _ known => known) fun _ => continues_nil

/-- One round of a loop over operators: an operator, its right operand and
the rest of the loop. -/
theorem round_post {level : Str → Prop} {operand : P W Str}
    {loop : Str → P W Str} {budget loops : Nat} (bound : loops < budget)
    (accepts : Accepts function (Raised function) kind budget operand)
    (induction : ∀ left, Accepts function (Unconverted function)
      (Continues level) loops (loop left))
    (left : Str)
    (operation : outside.dcl.Double → outside.dcl.Double →
      outside.dcl.Double)
    {text : Str} {lexer : Lexer} (state : St W)
    (facing : Facing text lexer)
    (enough : text.length < loops + 1) (other : lexer.type ≠ .end)
    (both : ∀ part rest, Token lexer.type part → kind rest →
      Continues level (part ++ rest)) :
    Post function (Unconverted function) (Continues level) text
      ((strictBinary outside operand left operation >>= loop) (state, lexer)) := by
  have first : Post function (Unconverted function)
      (fun part => 0 < part.length ∧ Continues level part) text
      (strictBinary outside operand left operation (state, lexer)) := by
    apply binary_post accepts left operation state facing (by omega) other
    intro part rest token known
    refine ⟨?_, both part rest token known⟩
    have positive := Token.length_pos token other
    rw [List.length_append]
    omega
  apply first.bind
  · intro result memory lexer part rest split known facing
    have shorter : text.length = part.length + rest.length := by
      rw [split, List.length_append]
    exact induction result memory lexer rest facing (by omega)
  · intro part rest known later start begun
    rw [← List.append_assoc]
    exact later _ (known.2 start begun)

theorem termLoop_accepts {prim : P W Str} {budget loops : Nat}
    (bound : loops ≤ budget)
    (accepts : Accepts function (Raised function) Prim budget prim)
    (left : Str) :
    Accepts function (Unconverted function) (Continues Term) loops
      (strictTermLoop outside prim loops left) := by
  induction loops generalizing left with
  | zero =>
      intro _ _ _ _ enough
      exact absurd enough (Nat.not_lt_zero _)
  | succ loops induction =>
      intro state lexer text facing enough
      obtain ⟨input, type, name, value⟩ := lexer
      have step (operation : outside.dcl.Double → outside.dcl.Double →
          outside.dcl.Double) (operator : isMul type = true)
          (other : type ≠ .end) :
          Post function (Unconverted function) (Continues Term) text
            ((strictBinary outside prim left operation >>=
              strictTermLoop outside prim loops)
              (state, ⟨input, type, name, value⟩)) := by
        apply round_post bound accepts (induction (by omega)) left operation
          state facing enough other
        intro part rest token known start begun
        exact .op begun operator token known
      have ends : Post function (Unconverted function)
          (Continues Term) text
          ((pure left : P W Str) (state, ⟨input, type, name, value⟩)) :=
        pure_continues left state facing
      cases type with
      | mul => exact (step _ rfl nofun).congr rfl
      | div => exact (step _ rfl nofun).congr rfl
      | mod => exact (step _ rfl nofun).congr rfl
      | pwr => exact (step _ rfl nofun).congr rfl
      | _ => exact ends

theorem exprLoop_accepts {term : P W Str} {budget loops : Nat}
    (bound : loops ≤ budget)
    (accepts : Accepts function (Raised function) Term budget term)
    (left : Str) :
    Accepts function (Unconverted function) (Continues Sum) loops
      (strictExprLoop outside term loops left) := by
  induction loops generalizing left with
  | zero =>
      intro _ _ _ _ enough
      exact absurd enough (Nat.not_lt_zero _)
  | succ loops induction =>
      intro state lexer text facing enough
      obtain ⟨input, type, name, value⟩ := lexer
      have step (operation : outside.dcl.Double → outside.dcl.Double →
          outside.dcl.Double) (operator : isAdd type = true)
          (other : type ≠ .end) :
          Post function (Unconverted function) (Continues Sum) text
            ((strictBinary outside term left operation >>=
              strictExprLoop outside term loops)
              (state, ⟨input, type, name, value⟩)) := by
        apply round_post bound accepts (induction (by omega)) left operation
          state facing enough other
        intro part rest token known start begun
        exact .op begun operator token known
      have ends : Post function (Unconverted function)
          (Continues Sum) text
          ((pure left : P W Str) (state, ⟨input, type, name, value⟩)) :=
        pure_continues left state facing
      cases type with
      | plus => exact (step _ rfl nofun).congr rfl
      | minus => exact (step _ rfl nofun).congr rfl
      | _ => exact ends

/-- An operand and what continues it. -/
theorem level_accepts {level : Str → Prop} {operand : P W Str}
    {next : Str → P W Str} {budget : Nat}
    (accepts : Accepts function errors kind budget operand)
    (loops : ∀ left, Accepts function errors (Continues level) budget
      (next left))
    (first : ∀ part, kind part → level part) :
    Accepts function errors level budget (operand >>= next) := by
  intro state lexer text facing enough
  apply (accepts state lexer text facing enough).bind
  · intro left memory lexer part rest split _ facing
    have shorter : text.length = part.length + rest.length := by
      rw [split, List.length_append]
    exact loops left memory lexer rest facing (by omega)
  · intro part rest known later
    exact later part (first part known)

theorem term_accepts {prim : P W Str} {budget : Nat}
    (accepts : Accepts function (Raised function) Prim budget prim) :
    Accepts function (Raised function) Term budget
      (strictTerm outside prim budget) := by
  apply level_accepts accepts
  · intro left state lexer text facing enough
    apply Post.convert
    exact termLoop_accepts (Nat.le_refl budget) accepts left state lexer text
      facing enough
  · exact fun _ => .prim

theorem expr_accepts {term : P W Str} {budget : Nat}
    (accepts : Accepts function (Raised function) Term budget term) :
    Accepts function (Raised function) Sum budget
      (strictExpr outside term budget) := by
  apply level_accepts accepts
  · intro left state lexer text facing enough
    apply Post.convert
    exact exprLoop_accepts (Nat.le_refl budget) accepts left state lexer text
      facing enough
  · exact fun _ => .term

/-- A handler that stops. -/
theorem Post.orFault {α : Type} {body : P W α} {state : St W × Lexer}
    {text : Str} {wider : Exc → Prop}
    (ran : Post function errors kind text (body state)) :
    Post function wider kind text
      (body.tryCatch (fun _ => Prog.halt .fault) state) := by
  unfold Post at ran
  cases reached : body state with
  | mk middle out outcome =>
      rw [reached] at ran
      cases outcome with
      | value result =>
          rw [Prog.tryCatch_eq reached]
          exact ran
      | halt reason =>
          rw [Prog.tryCatch_halt reached]
          exact ran
      | error exception =>
          rw [Prog.tryCatch_error reached]
          exact .inl rfl

/-- A comparison whose right operand is computed once. -/
theorem strictCompare_post {operand : P W Str} {budget : Nat}
    (accepts : Accepts function (Raised function) Sum budget operand)
    (left : Str) (numbers : outside.dcl.Double → outside.dcl.Double → Bool)
    (strings : Str → Str → Bool) {text : Str} {lexer : Lexer} (state : St W)
    (facing : Facing text lexer) (enough : text.length < budget)
    (operator : isLogic lexer.type = true) (other : lexer.type ≠ .end) :
    Post function (Raised function) (Continues Logic) text
      (strictCompare outside operand left numbers strings
        (state, lexer)) := by
  apply Post.read facing (fun _ => Raised.own) other
  · intro memory following rest shorter there
    split
    · apply (accepts memory following rest there (by omega)).before
      intro _ memory lexer rest facing
      exact Post.silent rfl facing
    · have right : Accepts function (Unconverted function) Sum budget
          operand := by
        intro state lexer text facing enough
        exact (accepts state lexer text facing enough).mono (fun _ => .inl)
          fun _ known => known
      apply Post.orFault
      apply (operands_accepts right left memory following rest there
        (by omega)).before
      intro _ memory lexer rest facing
      exact Post.silent rfl facing
  · intro part rest token known start begun
    exact .op begun operator token known

theorem strictRest_accepts {operand : P W Str} {budget : Nat}
    (accepts : Accepts function (Raised function) Sum budget operand)
    (left : Str) :
    Accepts function (Raised function) (Continues Logic) budget
      (strictRest outside operand left) := by
  intro state lexer text facing enough
  obtain ⟨input, type, name, value⟩ := lexer
  have compared (numbers : outside.dcl.Double → outside.dcl.Double → Bool)
      (strings : Str → Str → Bool) (operator : isLogic type = true)
      (other : type ≠ .end) :
      Post function (Raised function) (Continues Logic) text
        (strictCompare outside operand left numbers strings
          (state, ⟨input, type, name, value⟩)) :=
    strictCompare_post accepts left numbers strings state facing enough
      operator other
  have ends : Post function (Raised function) (Continues Logic) text
      ((pure left : P W Str) (state, ⟨input, type, name, value⟩)) :=
    pure_continues left state facing
  -- The right operand of `&` and `|` is computed, or the program stops.
  have right (body : P W Str)
      (chosen : body =
          (operand >>= fun text => pure (truth (text == "1".toList))) ∨
        body = Prog.halt .fault)
      (operator : isLogic type = true) (other : type ≠ .end) :
      Post function (Raised function) (Continues Logic) text
        ((strictToken outside >>= fun _ => body)
          (state, ⟨input, type, name, value⟩)) := by
    have later (memory : St W) (following : Lexer) (rest : Str)
        (shorter : rest.length < text.length)
        (there : Facing rest following) :
        Post function (Raised function) Sum rest
          (body (memory, following)) := by
      rcases chosen with rfl | rfl
      · apply (accepts memory following rest there (by omega)).before
        intro _ memory lexer rest facing
        exact Post.silent rfl facing
      · exact .inl rfl
    apply Post.read facing (fun _ => Raised.own) other later
    intro part rest token known start begun
    exact .op begun operator token known
  cases type with
  | lt =>
      exact (compared outside.dcl.lt (fun l r => decide (l < r)) rfl
        nofun).congr rfl
  | gt =>
      exact (compared (fun l r => outside.dcl.lt r l)
        (fun l r => decide (r < l)) rfl nofun).congr rfl
  | eq =>
      exact (compared outside.dcl.eq (fun l r => l == r) rfl nofun).congr rfl
  | ltEq =>
      exact (compared outside.dcl.le (fun l r => !decide (r < l)) rfl
        nofun).congr rfl
  | gtEq =>
      exact (compared (fun l r => outside.dcl.le r l)
        (fun l r => !decide (l < r)) rfl nofun).congr rfl
  | notEq =>
      exact (compared (fun l r => !outside.dcl.eq l r) (fun l r => l != r) rfl
        nofun).congr rfl
  | and =>
      have chosen := right
        (if left == "1".toList then
          operand >>= fun text => pure (truth (text == "1".toList))
        else Prog.halt .fault)
        (by split <;> simp) rfl nofun
      exact chosen.congr rfl
  | or =>
      have chosen := right
        (if left == "1".toList then Prog.halt .fault
        else operand >>= fun text => pure (truth (text == "1".toList)))
        (by split <;> simp) rfl nofun
      exact chosen.congr rfl
  | _ => exact ends

theorem strictLexpr_accepts {operand : P W Str} {budget : Nat}
    (accepts : Accepts function (Raised function) Sum budget
      operand) :
    Accepts function (Raised function) Logic budget
      (strictLexpr outside operand) := by
  apply level_accepts accepts
  · exact strictRest_accepts accepts
  · exact fun _ => .sum

/-- A primary that is a single token. -/
theorem token_post {rest : Unit → P W Str} {text : Str} {lexer : Lexer}
    (state : St W) (facing : Facing text lexer)
    (known : ∀ part, Token lexer.type part → Prim part)
    (silent : ∀ memory following text, Facing text following →
      Post function (Raised function) (fun part => part = []) text
        (rest () (memory, following))) :
    Post function (Raised function) Prim text
      ((strictToken outside >>= rest) (state, lexer)) := by
  have first : Post function (Raised function) Prim text
      (strictToken outside (state, lexer)) :=
    (strictToken_post state facing).mono (fun _ => Raised.own) known
  apply first.before
  intro _ memory following text facing
  exact silent memory following text facing

/-- The result of a function call. -/
theorem lift_post (name params : Str) {text : Str} {lexer : Lexer}
    (memory : St W) (facing : Facing text lexer) :
    Post function (Raised function) (fun part => part = []) text
      ((Prog.lift (function name params) : P W Str) (memory, lexer)) := by
  unfold Post Prog.lift
  simp only
  split
  · exact ⟨[], text, rfl, rfl, facing⟩
  · rename_i exception raised
    exact .inr ⟨name, params, memory, raised⟩
  · rename_i reason stopped
    exact .inr ⟨name, params, memory, stopped⟩

/-- The end of a parenthesised expression. -/
theorem closing_post (inner : Str) {text : Str} {lexer : Lexer}
    (state : St W) (facing : Facing text lexer) :
    Post function (Raised function) (Token .rp) text
      ((do
        if (← tokenType) == TokenType.rp then
          strictToken outside
          pure inner
        else
          Prog.throw (outside.dcl.exception
            "invalid expression: \")\" expected" [])) (state, lexer)) := by
  have looked : tokenType (state, lexer) =
      ⟨(state, lexer), [], .value lexer.type⟩ := rfl
  rw [Prog.bind_silent looked]
  split
  · rename_i closed
    have token : Post function (fun exception => exception.cls = .dbp)
        (Token lexer.type) text (strictToken outside (state, lexer)) :=
      strictToken_post state facing
    rw [beq_iff_eq.mp closed] at token
    apply (token.mono (fun _ => Raised.own) fun _ known => known).before
    intro _ memory lexer rest facing
    exact Post.silent rfl facing
  · exact .inl rfl

/-- What stands after an opening parenthesis. -/
def Enclosed (part : Str) : Prop :=
  ∃ text closing, part = text ++ closing ∧ Logic text ∧ Token .rp closing

theorem paren_post {inner : P W Str} {text : Str} {state : St W × Lexer}
    (ran : Post function (Raised function) Logic text
      (inner state)) :
    Post function (Raised function) Enclosed text
      ((inner >>= fun result => do
        if (← tokenType) == TokenType.rp then
          strictToken outside
          pure result
        else
          Prog.throw (outside.dcl.exception
            "invalid expression: \")\" expected" [])) state) := by
  apply ran.bind
  · intro result memory lexer _ rest _ _ facing
    exact closing_post result memory facing
  · intro part rest known closed
    exact ⟨part, rest, rfl, known, closed⟩

theorem strictLogic_accepts {prim : P W Str} {budget : Nat}
    (accepts : Accepts function (Raised function) Prim budget prim) :
    Accepts function (Raised function) Logic budget
      (strictLexpr outside
        (strictExpr outside (strictTerm outside prim budget) budget)) :=
  strictLexpr_accepts (expr_accepts (term_accepts accepts))

theorem strictPrim_accepts (budget : Nat) :
    Accepts function (Raised function) Prim budget
      (strictPrim outside function budget) := by
  induction budget with
  | zero =>
      intro _ _ _ _ enough
      exact absurd enough (Nat.not_lt_zero _)
  | succ budget induction =>
      intro state lexer text facing enough
      obtain ⟨input, type, name, value⟩ := lexer
      cases type with
      | number =>
          have read : Post function (Raised function) Prim text
              ((strictToken outside >>= fun _ => do
                let result ← Prog.read fun state => state.2.value
                Prog.modify fun state =>
                  (state.1, { state.2 with value := [] })
                pure result) (state, ⟨input, .number, name, value⟩)) := by
            apply token_post state facing fun _ => .number
            intro memory following text facing
            exact Post.silent rfl (facing.payload following.name [])
          exact read.congr rfl
      | name =>
          have read : Post function (Raised function) Prim text
              ((strictToken outside >>= fun _ => do
                let name ← Prog.read fun state => state.2.name
                Prog.modify fun state =>
                  (state.1, { state.2 with name := [] })
                Prog.lift (M.getValue name))
                (state, ⟨input, .name, name, value⟩)) := by
            apply token_post state facing fun _ => .name
            intro memory following text facing
            exact Post.silent rfl (facing.payload [] following.value)
          exact read.congr rfl
      | func =>
          have read : Post function (Raised function) Prim text
              ((strictToken outside >>= fun _ => do
                let lexer ← Prog.read Prod.snd
                let result ← Prog.lift (function lexer.name lexer.value)
                Prog.modify fun state =>
                  (state.1, { state.2 with value := [] })
                pure result) (state, ⟨input, .func, name, value⟩)) := by
            apply token_post state facing fun _ => .func
            intro memory following text facing
            apply (lift_post following.name following.value memory
              facing).before
            intro result memory lexer rest facing
            exact Post.silent rfl (facing.payload lexer.name [])
          exact read.congr rfl
      | minus =>
          have read : Post function (Raised function) Prim text
              ((strictToken outside >>= fun _ => Prog.tryCatch
                (do
                  let operand ← number outside
                    (← strictPrim outside function budget)
                  pure (outside.dcl.toStringDouble
                    (outside.dcl.negate operand)))
                (convertException outside))
                (state, ⟨input, .minus, name, value⟩)) := by
            apply Post.read facing (fun _ => Raised.own) nofun
            · intro memory following rest shorter there
              apply Post.convert
              have operand := induction memory following rest there (by omega)
              apply (operand.mono (fun _ => .inl) fun _ known => known).before
              intro text memory lexer rest facing
              apply (number_post text memory facing).after
              intro _ memory lexer facing
              exact Post.silent rfl facing
            · intro part rest token known
              exact .minus token known
          exact read.congr rfl
      | not =>
          have read : Post function (Raised function) Prim text
              ((strictToken outside >>= fun _ => do
                let text ← strictPrim outside function budget
                pure (truth (text != "1".toList)))
                (state, ⟨input, .not, name, value⟩)) := by
            apply Post.read facing (fun _ => Raised.own) nofun
            · intro memory following rest shorter there
              apply (induction memory following rest there (by omega)).before
              intro text memory lexer rest facing
              exact Post.silent rfl facing
            · intro part rest token known
              exact .not token known
          exact read.congr rfl
      | lp =>
          have inner := @strictLogic_accepts _ outside _ _ _ induction
          have read : Post function (Raised function) Prim text
              ((strictToken outside >>= fun _ => do
                let inner ← strictLexpr outside
                  (strictExpr outside
                    (strictTerm outside (strictPrim outside function budget) budget)
                    budget)
                if (← tokenType) == TokenType.rp then
                  strictToken outside
                  pure inner
                else
                  Prog.throw (outside.dcl.exception
                    "invalid expression: \")\" expected" []))
                (state, ⟨input, .lp, name, value⟩)) := by
            apply Post.read facing (fun _ => Raised.own) nofun
            · intro memory following rest shorter there
              exact paren_post (inner memory following rest there (by omega))
            · rintro part _ token ⟨text, closing, rfl, known, closed⟩
              exact .paren token known closed
          exact read.congr rfl
      | «end» => exact .inl rfl
      | _ => exact .inl rfl

/-- A program that must end with the text reads all of it. -/
theorem ended_sound {inner : P W Str} {text : Str} {state : St W × Lexer}
    (ran : Post function (Raised function) Logic text
      (inner state)) :
    match ((inner >>= fun value => do
      if (← tokenType) == TokenType.end then pure value
      else Prog.halt .fault) state).outcome with
    | .value _ => Logic text
    | .error exception => Raised function exception
    | .halt reason => Halted function reason := by
  unfold Post at ran
  cases reached : inner state with
  | mk middle out outcome =>
      rw [reached] at ran
      cases outcome with
      | value result =>
          obtain ⟨part, rest, split, known, facing⟩ := ran
          have looked : tokenType middle =
              ⟨middle, [], .value middle.2.type⟩ := rfl
          rw [Prog.bind_eq reached, Prog.bind_silent looked]
          cases ended : middle.2.type == TokenType.end with
          | true =>
              have nothing := facing.nothing (beq_iff_eq.mp ended)
              rw [nothing, List.append_nil] at split
              rw [split]
              exact known
          | false => exact .inl rfl
      | error exception =>
          rw [Prog.bind_error reached]
          exact ran
      | halt reason =>
          rw [Prog.bind_halt reached]
          exact ran

/-- The strict evaluator on a whole text. -/
theorem strictCalculation_sound (text : Str) (state : St W) :
    match (strictCalculation outside function (text.length + 2)
      (state, ⟨text, outside.rawToken, [], []⟩)).outcome with
    | .value _ => Sentence text
    | .error exception => Raised function exception
    | .halt reason => Halted function reason := by
  have looked (state : St W × Lexer) : tokenType state =
      ⟨state, [], .value state.2.type⟩ := rfl
  rcases strictToken_cases outside state ⟨text, outside.rawToken, [], []⟩ with
    ⟨next, blanks, rest, ran, split, blank, facing⟩ |
    ⟨next, exception, ran, cls⟩ | ⟨middle, out, ran⟩
  · unfold strictCalculation
    rw [Prog.bind_silent ran, Prog.bind_silent (looked _)]
    cases ended : next.type == .end with
    | true =>
        have nothing := facing.nothing (beq_iff_eq.mp ended)
        exact ⟨blanks, rest, split, blank, .inl nothing⟩
    | false =>
        have enough : rest.length < text.length + 2 := by
          rw [show text = blanks ++ rest from split, List.length_append]
          omega
        have inner := @strictLogic_accepts _ outside _ _ _
          (@strictPrim_accepts _ outside function (text.length + 2)) state next rest facing enough
        have whole := ended_sound inner
        simp only [Bool.false_eq_true, if_false]
        split
        · rename_i value returned
          rw [returned] at whole
          exact ⟨blanks, rest, split, blank, .inr whole⟩
        · rename_i exception raised
          rw [raised] at whole
          exact whole
        · rename_i reason stopped
          rw [stopped] at whole
          exact whole
  · unfold strictCalculation
    rw [Prog.bind_error ran]
    exact .inl cls
  · unfold strictCalculation
    rw [Prog.bind_halt ran]
    exact .inl rfl

variable (outside function)

end Sound

section Examples

open Grammar

/-- The characters an operand starts with. -/
def isOperandChar (c : Char) : Bool :=
  Lexer.isNumberChar c || c == '\'' || c == '"' || c == '$' || startsName c

theorem numeral_hasOperand {word : Str} (known : numeral word = true) :
    word.any isOperandChar = true := by
  simp only [numeral, Bool.and_eq_true] at known
  obtain ⟨c, member, _⟩ := List.any_eq_true.mp known.1.2
  apply List.any_eq_true.mpr
  have digit := List.all_eq_true.mp known.1.1 c member
  exact ⟨c, member, by simp [isOperandChar, digit]⟩

theorem token_hasOperand {type : TokenType} {text : Str}
    (token : Token type text) (operand : type = .number ∨ type = .name ∨
      type = .func) : text.any isOperandChar = true := by
  obtain ⟨lexeme, blanks, known, _, rfl⟩ := token
  rw [List.any_append]
  have first : lexeme.any isOperandChar = true := by
    cases known with
    | number numeral => exact numeral_hasOperand numeral
    | @string quote text known _ =>
        have quoted : isOperandChar quote = true := by
          rcases List.mem_cons.mp known with rfl | known
          · rfl
          · cases List.mem_singleton.mp known
            rfl
        rw [List.any_cons, quoted, Bool.true_or]
    | name _ _ => rfl
    | @func c _ _ _ starts _ _ _ =>
        have letter : isOperandChar c = true := by
          simp [isOperandChar, starts]
        rw [List.any_cons, letter, Bool.true_or]
    | symbol symbol =>
        rcases operand with rfl | rfl | rfl <;> cases symbol
    | notEqual => rcases operand with same | same | same <;> cases same
    | ended => rcases operand with same | same | same <;> cases same
  rw [first, Bool.true_or]

mutual

/-- Every sentence has an operand. -/
theorem prim_hasOperand : {text : Str} → Prim text →
    text.any isOperandChar = true
  | _, .number token => token_hasOperand token (.inl rfl)
  | _, .name token => token_hasOperand token (.inr (.inl rfl))
  | _, .func token => token_hasOperand token (.inr (.inr rfl))
  | _, .minus _ operand => by
      rw [List.any_append, prim_hasOperand operand, Bool.or_true]
  | _, .not _ operand => by
      rw [List.any_append, prim_hasOperand operand, Bool.or_true]
  | _, .paren _ inner _ => by
      rw [List.any_append, List.any_append, logic_hasOperand inner,
        Bool.true_or, Bool.or_true]

theorem term_hasOperand : {text : Str} → Term text →
    text.any isOperandChar = true
  | _, .prim prim => prim_hasOperand prim
  | _, .op left _ _ _ => by
      rw [List.any_append, term_hasOperand left, Bool.true_or]

theorem sum_hasOperand : {text : Str} → Grammar.Sum text →
    text.any isOperandChar = true
  | _, .term term => term_hasOperand term
  | _, .op left _ _ _ => by
      rw [List.any_append, sum_hasOperand left, Bool.true_or]

theorem logic_hasOperand : {text : Str} → Logic text →
    text.any isOperandChar = true
  | _, .sum sum => sum_hasOperand sum
  | _, .op left _ _ _ => by
      rw [List.any_append, logic_hasOperand left, Bool.true_or]

end

/-- A text without an operand is not a sentence. -/
theorem not_sentence_not : ¬ Sentence "!".toList := by
  rintro ⟨blanks, rest, whole, blank, nothing | known⟩
  · rw [nothing, List.append_nil] at whole
    rw [← whole] at blank
    cases blank
  · have operand := logic_hasOperand known
    have all : (blanks ++ rest).any isOperandChar = true := by
      rw [List.any_append, operand, Bool.or_true]
    rw [← whole] at all
    cases all

end Examples

end Evaluator

end DbPager
