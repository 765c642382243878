import DbPager.Library.Language
import DbPager.Library.Output

/-!
# Programs that carry out statements

A program with state, output and exceptions carries out a statement when it
writes the same text and ends the same way, and its state shows the
configuration the statement ends in.  What it means for a state to show a
configuration is a parameter; so is a relation between the state before a
program and the state after it.  A program may do anything where the statement
is stuck.
-/

namespace Language

open Effect

variable {κ ω ε φ π σ : Type}

/-- How a program ends when an exception may have been raised. -/
def outcome : Option ε → Outcome ε Unit
  | none => .value ()
  | some exception => .error exception

/-- How a program ends that computes a result. -/
def resultOutcome : Except ε (List ω) → Outcome ε (List ω)
  | .ok value => .value value
  | .error exception => .error exception

theorem outcome_finished (raised : Option ε) :
    (outcome raised).Finished := by
  cases raised with
  | none => trivial
  | some exception => trivial

theorem outcome_injective :
    Function.Injective (outcome : Option ε → Outcome ε Unit) := by
  intro first second same
  cases first with
  | none =>
      cases second with
      | none => rfl
      | some exception => cases same
  | some raised =>
      cases second with
      | none => cases same
      | some exception =>
          cases same
          rfl

/-- What a program did is what the answer says, and the final state is as the
postcondition says. -/
inductive Agrees (post : Config κ ω φ → σ → Prop) :
    Run σ ε ω Unit → Answer κ ω ε φ → Prop
  | ended {config final out raised} : post config final →
      Agrees post ⟨final, out, outcome raised⟩ (.ok ⟨config, out, raised⟩)
  | timeout {final out} :
      Agrees post ⟨final, out, .halt .timeout⟩ (.error .timeout)
  | stuck {run} : Agrees post run (.error .stuck)

namespace Agrees

theorem value {post : Config κ ω φ → σ → Prop} {config : Config κ ω φ}
    {final : σ} (out : List ω) (holds : post config final) :
    Agrees post (⟨final, out, .value ()⟩ : Run σ ε ω Unit)
      (.ok ⟨config, out, none⟩) :=
  @ended κ ω ε φ σ post config final out none holds

theorem error {post : Config κ ω φ → σ → Prop} {config : Config κ ω φ}
    {final : σ} (out : List ω) (exception : ε) (holds : post config final) :
    Agrees post ⟨final, out, .error exception⟩
      (.ok ⟨config, out, some exception⟩) :=
  @ended κ ω ε φ σ post config final out (some exception) holds

variable {post weaker middle : Config κ ω φ → σ → Prop}

theorem mono {run : Run σ ε ω Unit} {answer : Answer κ ω ε φ}
    (agrees : Agrees post run answer)
    (implies : ∀ config final, post config final → weaker config final) :
    Agrees weaker run answer := by
  cases agrees with
  | ended holds => exact .ended (implies _ _ holds)
  | timeout => exact .timeout
  | stuck => exact .stuck

/-- More text in front. -/
theorem behind {final : σ} {last out : List ω} {ended : Outcome ε Unit}
    {answer : Answer κ ω ε φ} (agrees : Agrees post ⟨final, last, ended⟩ answer) :
    Agrees post ⟨final, out ++ last, ended⟩
      (answer.map (Ending.behind out)) := by
  cases agrees with
  | ended holds => exact .ended holds
  | timeout => exact .timeout
  | stuck => exact .stuck

/-- The rest runs where the first part has returned. -/
theorem bind {first rest : Prog σ ε ω Unit} {state : σ}
    {answer : Answer κ ω ε φ} {next : Config κ ω φ → Answer κ ω ε φ}
    (agrees : Agrees middle (first state) answer)
    (others : ∀ config final, middle config final →
      Agrees post (rest final) (next config))
    (raises : ∀ config final, middle config final → post config final) :
    Agrees post ((first >>= fun _ => rest) state) (answer.andThen next) := by
  cases ran : first state with
  | mk final out ended =>
      rw [ran] at agrees
      cases agrees with
      | @ended config _ _ raised holds =>
          cases raised with
          | none =>
              rw [Prog.bind_eq ran]
              exact (others config final holds).behind
          | some exception =>
              rw [Prog.bind_error ran]
              exact .error out exception (raises config final holds)
      | timeout =>
          rw [Prog.bind_halt ran]
          exact .timeout
      | stuck => exact .stuck

end Agrees

/-- Statements for the items of a list, one after the other. -/
def each {α : Type} (step : α → Stmt κ ω ε φ π) (last : Stmt κ ω ε φ π) :
    List α → Stmt κ ω ε φ π
  | [] => last
  | item :: items => .seq (step item) (each step last items)

theorem each_safe {α : Type} {procedures : π → Prop} {frames : φ → Prop}
    {step : α → Stmt κ ω ε φ π} {last : Stmt κ ω ε φ π} {items : List α}
    (steps : ∀ item ∈ items, (step item).Safe procedures frames)
    (ends : last.Safe procedures frames) :
    (each step last items).Safe procedures frames := by
  induction items with
  | nil => exact ends
  | cons item items induction =>
      exact ⟨steps item List.mem_cons_self,
        induction fun item member => steps item (List.mem_cons_of_mem _ member)⟩

section Rules

variable [DecidableEq κ] (call : π → Config κ ω φ → Answer κ ω ε φ)
variable (budget : Nat)

/-- Started as the precondition says, the program does what the statement
does. -/
def Realizes (pre : Config κ ω φ → σ → Prop)
    (post : σ → Config κ ω φ → σ → Prop) (program : Prog σ ε ω Unit)
    (stmt : Stmt κ ω ε φ π) : Prop :=
  ∀ state config, pre config state →
    Agrees (post state) (program state) (eval call budget stmt config)

/-- The program computes the value of the expression and changes nothing. -/
def Reads (pre : Config κ ω φ → σ → Prop) (program : Prog σ ε ω (List ω))
    (expr : Expr κ ω ε) : Prop :=
  ∀ state config, pre config state → ∀ result,
    expr config.store = some result → program state =
      ⟨state, [], resultOutcome result⟩

variable {call budget} {pre : Config κ ω φ → σ → Prop}
variable {post : σ → Config κ ω φ → σ → Prop}

omit [DecidableEq κ] in
theorem Reads.pure {value : List ω} {expr : Expr κ ω ε}
    (constant : ∀ store, expr store = some (.ok value)) :
    Reads pre (Pure.pure value : Prog σ ε ω (List ω)) expr := by
  intro state config shown result same
  rw [constant] at same
  cases same
  rfl

theorem Realizes.stuck (program : Prog σ ε ω Unit) :
    Realizes call budget pre post program .stuck :=
  fun _ _ _ => .stuck

theorem Realizes.compute {program : Prog σ ε ω (List ω)} {expr : Expr κ ω ε}
    {rest : List ω → Prog σ ε ω Unit} {next : List ω → Stmt κ ω ε φ π}
    (reads : Reads pre program expr)
    (same : ∀ config state, pre config state → post state config state)
    (others : ∀ value, Realizes call budget pre post (rest value) (next value)) :
    Realizes call budget pre post (program >>= rest) (.compute expr next) := by
  intro state config shown
  rw [eval, withValue]
  cases known : expr config.store with
  | none => exact .stuck
  | some result =>
      have read := reads state config shown result known
      cases result with
      | error exception =>
          rw [Prog.bind_error read]
          exact .error [] exception (same config state shown)
      | ok value =>
          rw [Prog.bind_silent read]
          exact others value state config shown

theorem Realizes.stop {exception : ε}
    (same : ∀ config state, pre config state → post state config state) :
    Realizes call budget pre post (Prog.throw exception) (.throw exception) := by
  intro state config shown
  exact .error [] exception (same config state shown)

theorem Realizes.emit {text : List ω}
    (same : ∀ config state, pre config state → post state config state) :
    Realizes call budget pre post (Prog.emit text) (.write text) := by
  intro state config shown
  exact .value text (same config state shown)

/-- A handler, and a precondition that holds when it starts. -/
theorem Realizes.rescue {program : Prog σ ε ω Unit} {stmt : Stmt κ ω ε φ π}
    {handle : ε → Prog σ ε ω Unit} {handler : ε → Stmt κ ω ε φ π}
    {catches : ε → Bool}
    (body : Realizes call budget pre post program stmt)
    (caught : ∀ exception, catches exception = true →
      ∀ state config middle, post state config middle →
        Agrees (post state) (handle exception middle)
          (eval call budget (handler exception) config))
    (passed : ∀ exception, catches exception = false →
      handle exception = Prog.throw exception) :
    Realizes call budget pre post (program.tryCatch handle)
      (.rescue stmt catches handler) := by
  intro state config shown
  have agrees := body state config shown
  rw [eval]
  unfold Prog.tryCatch
  cases ran : program state with
  | mk middle out ended =>
      rw [ran] at agrees
      cases answer : eval call budget stmt config with
      | error stop =>
          rw [answer] at agrees
          cases agrees with
          | timeout => exact .timeout
          | stuck => exact .stuck
      | ok ending =>
          rw [answer] at agrees
          cases agrees with
          | @ended after _ _ raised holds =>
              cases raised with
              | none => exact .value out holds
              | some exception =>
                  simp only [outcome]
                  cases known : catches exception with
                  | true =>
                      exact (caught exception known _ _ _ holds).behind
                  | false =>
                      rw [passed exception known]
                      simp only [Prog.throw, List.append_nil]
                      exact .error out exception holds

end Rules

section Steps

variable [DecidableEq κ] (call : π → Config κ ω φ → Answer κ ω ε φ)
variable (budget : Nat)
variable (shows : Config κ ω φ → σ → Prop) (after : σ → σ → Prop)

/-- The final state shows the final configuration, and is related to the
state before. -/
def Kept (state : σ) (config : Config κ ω φ) (final : σ) : Prop :=
  shows config final ∧ after state final

/-- The program does what the statement does, from every state that shows the
configuration it starts in. -/
abbrev Performs (program : Prog σ ε ω Unit) (stmt : Stmt κ ω ε φ π) : Prop :=
  Realizes call budget shows (Kept shows after) program stmt

variable {call budget shows after}
variable (refl : ∀ state, after state state)
variable (trans : ∀ first second third,
  after first second → after second third → after first third)
include refl

omit [DecidableEq κ] in
theorem Kept.same (config : Config κ ω φ) (state : σ)
    (shown : shows config state) : Kept shows after state config state :=
  ⟨shown, refl state⟩

omit refl [DecidableEq κ]
include trans

/-- What agrees from a later state on agrees from the beginning. -/
theorem Agrees.since {state middle : σ} {run : Run σ ε ω Unit}
    {answer : Answer κ ω ε φ} (before : after state middle)
    (agrees : Agrees (Kept shows after middle) run answer) :
    Agrees (Kept shows after state) run answer :=
  agrees.mono fun _ _ kept => ⟨kept.1, trans _ _ _ before kept.2⟩

variable [DecidableEq κ]

theorem Performs.seq {first rest : Prog σ ε ω Unit}
    {one two : Stmt κ ω ε φ π}
    (begins : Performs call budget shows after first one)
    (goesOn : Performs call budget shows after rest two) :
    Performs call budget shows after (first >>= fun _ => rest)
      (.seq one two) := by
  intro state config shown
  apply (begins state config shown).bind
  · intro middle final kept
    exact (goesOn final middle kept.1).since trans kept.2
  · exact fun _ _ kept => kept

theorem Performs.capture {program : Prog σ ε ω Unit}
    {stmt : Stmt κ ω ε φ π} {rest : List ω → Prog σ ε ω Unit}
    {next : List ω → Stmt κ ω ε φ π}
    (body : Performs call budget shows after program stmt)
    (others : ∀ out, Performs call budget shows after (rest out) (next out)) :
    Performs call budget shows after (program.capture >>= rest)
      (.capture stmt next) := by
  intro state config shown
  have agrees := body state config shown
  rw [eval]
  cases ran : program state with
  | mk middle out ended =>
      rw [ran] at agrees
      cases answer : eval call budget stmt config with
      | error stop =>
          rw [answer] at agrees
          cases agrees with
          | timeout =>
              rw [Prog.bind_halt (Prog.capture_halt ran)]
              exact .timeout
          | stuck => exact .stuck
      | ok ending =>
          rw [answer] at agrees
          cases agrees with
          | @ended after _ _ raised kept =>
              cases raised with
              | none =>
                  rw [Prog.bind_silent (Prog.capture_eq ran)]
                  exact (others out middle after kept.1).since trans kept.2
              | some exception =>
                  rw [Prog.bind_error (Prog.capture_error ran)]
                  exact .error [] exception kept

theorem Performs.rescue {program : Prog σ ε ω Unit} {stmt : Stmt κ ω ε φ π}
    {handle : ε → Prog σ ε ω Unit} {handler : ε → Stmt κ ω ε φ π}
    {catches : ε → Bool}
    (body : Performs call budget shows after program stmt)
    (caught : ∀ exception, catches exception = true →
      Performs call budget shows after (handle exception) (handler exception))
    (passed : ∀ exception, catches exception = false →
      handle exception = Prog.throw exception) :
    Performs call budget shows after (program.tryCatch handle)
      (.rescue stmt catches handler) := by
  apply Realizes.rescue body _ passed
  intro exception known state config middle kept
  exact (caught exception known middle config kept.1).since trans kept.2

include refl

/-- A loop over a test that reads a value. -/
theorem Performs.loop {test : Prog σ ε ω (List ω)} {expr : Expr κ ω ε}
    {holds : List ω → Bool} {program : Prog σ ε ω Unit}
    {stmt : Stmt κ ω ε φ π} (reads : Reads shows test expr)
    (body : Performs call budget shows after program stmt) :
    Performs call budget shows after
      (Prog.whileLoop (test >>= fun value => pure (holds value)) program budget)
      (.loop expr holds stmt) := by
  have rounds : ∀ more state config, shows config state →
      Agrees (Kept shows after state)
        (Prog.whileLoop (test >>= fun value => pure (holds value)) program more
          state)
        (iterate expr holds (eval call budget stmt) more config) := by
    intro more
    induction more with
    | zero => exact fun _ _ _ => .timeout
    | succ more induction =>
        intro state config shown
        rw [iterate, withValue]
        cases known : expr config.store with
        | none => exact .stuck
        | some result =>
            have read := reads state config shown result known
            cases result with
            | error exception =>
                rw [Prog.whileLoop, Prog.bind_error (Prog.bind_error read _)]
                exact .error [] exception ⟨shown, refl state⟩
            | ok text =>
                have tested : (test >>= fun value => pure (holds value)) state =
                    ⟨state, [], .value (holds text)⟩ := by
                  rw [Prog.bind_silent read]
                  rfl
                rw [Prog.whileLoop, Prog.bind_silent tested]
                cases again : holds text with
                | false =>
                    simp only [again, Bool.false_eq_true, if_false]
                    exact .value [] ⟨shown, refl state⟩
                | true =>
                    simp only [again, if_true]
                    apply Agrees.bind (body state config shown)
                    · intro middle final kept
                      exact (induction final middle kept.1).since trans kept.2
                    · exact fun _ _ kept => kept
  exact rounds budget

omit refl

theorem Performs.each {α : Type} {body : α → Prog σ ε ω Unit}
    {step : α → Stmt κ ω ε φ π} {rest : Prog σ ε ω Unit}
    {last : Stmt κ ω ε φ π} {items : List α}
    (steps : ∀ item ∈ items,
      Performs call budget shows after (body item) (step item))
    (ends : Performs call budget shows after rest last) :
    Performs call budget shows after
      (Prog.forEach body items >>= fun _ => rest)
      (Language.each step last items) := by
  induction items with
  | nil => exact ends
  | cons item items induction =>
      rw [Prog.forEach, Prog.bind_assoc]
      exact (steps item List.mem_cons_self).seq trans
        (induction fun item member => steps item (List.mem_cons_of_mem _ member))

include refl

theorem Performs.forEach {α : Type} {body : α → Prog σ ε ω Unit}
    {step : α → Stmt κ ω ε φ π} {items : List α}
    (steps : ∀ item ∈ items,
      Performs call budget shows after (body item) (step item)) :
    Performs call budget shows after (Prog.forEach body items)
      (Language.each step (.write []) items) := by
  have ends : Performs call budget shows after
      (Prog.emit [] : Prog σ ε ω Unit) (.write []) :=
    Realizes.emit (Kept.same refl)
  have same : (Prog.forEach body items >>= fun _ => Prog.emit []) =
      Prog.forEach body items := Prog.bind_pure _
  have whole := Performs.each trans steps ends
  rwa [same] at whole

end Steps

end Language
