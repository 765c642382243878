import DbPager.Library.Output

/-!
# Programs run from two states

Two programs are related if, from states that are alike, they write the same,
end in the same way, and leave states that are alike.  A program related to
itself does not see the difference between the states.
-/

namespace Effect

namespace Prog

variable {σ τ ε ω α β : Type}

/-- What holds of the states after a run: `after` if it has returned, `failed`
if it has raised. -/
def Leaves (after failed : σ → σ → Prop) :
    Outcome ε α → σ → σ → Prop
  | .value _, left, right => after left right
  | .error _, left, right => failed left right
  | .halt _, _, _ => True

theorem Leaves.imp {after failed : σ → σ → Prop}
    {returned raised : τ → τ → Prop} {outcome : Outcome ε α} {left right : σ} {first second : τ}
    (leaves : Leaves after failed outcome left right)
    (returns : after left right → returned first second)
    (fails : failed left right → raised first second) :
    Leaves returned raised outcome first second := by
  cases outcome with
  | value result => exact returns leaves
  | error exception => exact fails leaves
  | halt reason => exact trivial

/-- From states alike in one way, the programs write the same and end in the
same way, and they leave states that are alike in other ways. -/
def Relates (before after failed : σ → σ → Prop)
    (first second : Prog σ ε ω α) : Prop :=
  ∀ left right, before left right →
    (first left).out = (second right).out ∧
      (first left).outcome = (second right).outcome ∧
      Leaves after failed (first left).outcome (first left).state
        (second right).state

namespace Relates

variable {before after failed last caught : σ → σ → Prop}
  {first second : Prog σ ε ω α}

theorem mono {earlier later lost : σ → σ → Prop}
    (relates : Relates before after failed first second)
    (starts : ∀ {left right}, earlier left right → before left right)
    (returns : ∀ {left right}, after left right → later left right)
    (fails : ∀ {left right}, failed left right → lost left right) :
    Relates earlier later lost first second := by
  intro left right same
  obtain ⟨out, outcome, states⟩ := relates left right (starts same)
  exact ⟨out, outcome, states.imp returns fails⟩

theorem modify {change : σ → σ}
    (keeps : ∀ {left right}, before left right →
      after (change left) (change right)) :
    Relates before after failed (Prog.modify change : Prog σ ε ω Unit)
      (Prog.modify change) :=
  fun _ _ same => ⟨rfl, rfl, keeps same⟩

theorem pure (result : α) :
    Relates after after failed (Pure.pure result : Prog σ ε ω α)
      (Pure.pure result) :=
  fun _ _ same => ⟨rfl, rfl, same⟩

theorem throw (exception : ε) :
    Relates failed after failed (Prog.throw exception : Prog σ ε ω α)
      (Prog.throw exception) :=
  fun _ _ same => ⟨rfl, rfl, same⟩

theorem halt (reason : Halt) :
    Relates before after failed (Prog.halt reason : Prog σ ε ω α)
      (Prog.halt reason) :=
  fun _ _ _ => ⟨rfl, rfl, trivial⟩

/-- Only what the first program can return has to be looked at. -/
theorem bind_of {next later : α → Prog σ ε ω β}
    (relates : Relates before after failed first second)
    (rest : ∀ state result, (first state).outcome = .value result →
      Relates after last failed (next result) (later result)) :
    Relates before last failed (first >>= next) (second >>= later) := by
  intro left right same
  obtain ⟨out, outcome, states⟩ := relates left right same
  cases ran : first left with
  | mk middle written ending =>
      cases ran' : second right with
      | mk middle' written' ending' =>
          rw [ran, ran'] at out outcome states
          simp only at out outcome states
          subst out outcome
          cases ending with
          | value result =>
              rw [bind_eq ran, bind_eq ran']
              obtain ⟨out, outcome, states⟩ :=
                rest left result (by rw [ran]) middle middle' states
              exact ⟨congrArg (written ++ ·) out, outcome, states⟩
          | error exception =>
              rw [bind_error ran, bind_error ran']
              exact ⟨rfl, rfl, states⟩
          | halt reason =>
              rw [bind_halt ran, bind_halt ran']
              exact ⟨rfl, rfl, trivial⟩

theorem bind {next later : α → Prog σ ε ω β}
    (relates : Relates before after failed first second)
    (rest : ∀ result,
      Relates after last failed (next result) (later result)) :
    Relates before last failed (first >>= next) (second >>= later) :=
  relates.bind_of fun _ result _ => rest result

theorem tryCatch {handler cleanup : ε → Prog σ ε ω α}
    (relates : Relates before after caught first second)
    (handled : ∀ exception,
      Relates caught after failed (handler exception) (cleanup exception)) :
    Relates before after failed (first.tryCatch handler)
      (second.tryCatch cleanup) := by
  intro left right same
  obtain ⟨out, outcome, states⟩ := relates left right same
  cases ran : first left with
  | mk middle written ending =>
      cases ran' : second right with
      | mk middle' written' ending' =>
          rw [ran, ran'] at out outcome states
          simp only at out outcome states
          subst out outcome
          cases ending with
          | value result =>
              rw [tryCatch_eq ran, tryCatch_eq ran']
              exact ⟨rfl, rfl, states⟩
          | error exception =>
              rw [tryCatch_error ran, tryCatch_error ran']
              obtain ⟨out, outcome, states⟩ :=
                handled exception middle middle' states
              exact ⟨congrArg (written ++ ·) out, outcome, states⟩
          | halt reason =>
              rw [tryCatch_halt ran, tryCatch_halt ran']
              exact ⟨rfl, rfl, trivial⟩

end Relates

/-- From states that are alike the programs write the same, end in the same
way, and leave states that are alike. -/
def Related (alike : σ → σ → Prop) (first second : Prog σ ε ω α) : Prop :=
  Relates alike alike alike first second

namespace Related

variable {alike : σ → σ → Prop} {first second : Prog σ ε ω α}

theorem pure (result : α) :
    Related alike (Pure.pure result : Prog σ ε ω α) (Pure.pure result) :=
  Relates.pure result

theorem throw (exception : ε) :
    Related alike (Prog.throw exception : Prog σ ε ω α)
      (Prog.throw exception) :=
  Relates.throw exception

theorem halt (reason : Halt) :
    Related alike (Prog.halt reason : Prog σ ε ω α) (Prog.halt reason) :=
  Relates.halt reason

theorem emit (out : List ω) :
    Related alike (Prog.emit out : Prog σ ε ω Unit) (Prog.emit out) :=
  fun _ _ same => ⟨rfl, rfl, same⟩

theorem read {view : σ → α}
    (seen : ∀ {left right}, alike left right → view left = view right) :
    Related alike (Prog.read view : Prog σ ε ω α) (Prog.read view) :=
  fun _ _ same => ⟨rfl, congrArg Outcome.value (seen same), same⟩

theorem modify {change : σ → σ}
    (keeps : ∀ {left right}, alike left right →
      alike (change left) (change right)) :
    Related alike (Prog.modify change : Prog σ ε ω Unit)
      (Prog.modify change) :=
  Relates.modify keeps

theorem act {step : σ → σ × Outcome ε α}
    (keeps : ∀ {left right}, alike left right →
      (step left).2 = (step right).2 ∧ alike (step left).1 (step right).1) :
    Related alike (Prog.act step : Prog σ ε ω α) (Prog.act step) := by
  intro left right same
  obtain ⟨outcome, states⟩ := keeps same
  refine ⟨rfl, outcome, ?_⟩
  change Leaves alike alike (step left).2 (step left).1 (step right).1
  cases (step left).2 with
  | value result => exact states
  | error exception => exact states
  | halt reason => exact trivial

theorem bind {next later : α → Prog σ ε ω β}
    (related : Related alike first second)
    (rest : ∀ result, Related alike (next result) (later result)) :
    Related alike (first >>= next) (second >>= later) :=
  Relates.bind related rest

theorem tryCatch {handler cleanup : ε → Prog σ ε ω α}
    (related : Related alike first second)
    (handled : ∀ exception,
      Related alike (handler exception) (cleanup exception)) :
    Related alike (first.tryCatch handler) (second.tryCatch cleanup) :=
  Relates.tryCatch related handled

theorem capture {body other : Prog σ ε ω Unit}
    (related : Related alike body other) :
    Related alike body.capture other.capture := by
  intro left right same
  obtain ⟨out, outcome, states⟩ := related left right same
  cases ran : body left with
  | mk middle written ending =>
      cases ran' : other right with
      | mk middle' written' ending' =>
          rw [ran, ran'] at out outcome states
          simp only at out outcome states
          subst out outcome
          cases ending with
          | value result =>
              rw [capture_eq ran, capture_eq ran']
              exact ⟨rfl, rfl, states⟩
          | error exception =>
              rw [capture_error ran, capture_error ran']
              exact ⟨rfl, rfl, states⟩
          | halt reason =>
              rw [capture_halt ran, capture_halt ran']
              exact ⟨rfl, rfl, trivial⟩

/-- Alike, with the same private state. -/
def WithPrivate (alike : σ → σ → Prop) (good : τ → Prop)
    (left right : σ × τ) : Prop :=
  alike left.1 right.1 ∧ left.2 = right.2 ∧ good left.2

theorem lift {good : τ → Prop} (related : Related alike first second) :
    Related (WithPrivate alike good) first.lift second.lift := by
  intro left right same
  obtain ⟨out, outcome, states⟩ := related left.1 right.1 same.1
  exact ⟨out, outcome, states.imp (fun alike => ⟨alike, same.2⟩)
    fun alike => ⟨alike, same.2⟩⟩

theorem within {good : τ → Prop} {initial : τ} (start : good initial)
    {body other : Prog (σ × τ) ε ω α}
    (related : Related (WithPrivate alike good) body other) :
    Related alike (body.within initial) (other.within initial) := by
  intro left right same
  obtain ⟨out, outcome, states⟩ :=
    related (left, initial) (right, initial) ⟨same, rfl, start⟩
  exact ⟨out, outcome, states.imp And.left And.left⟩

/-- Two runs that return have the same result. -/
theorem values (related : Related alike first second)
    {left right leftFinal rightFinal : σ} {out written : List ω}
    {result other : α} (same : alike left right)
    (ran : first left = ⟨leftFinal, out, .value result⟩)
    (beyond : second right = ⟨rightFinal, written, .value other⟩) :
    result = other ∧ alike leftFinal rightFinal := by
  obtain ⟨-, outcome, states⟩ := related left right same
  rw [ran, beyond] at outcome states
  exact ⟨Outcome.value.inj outcome, states⟩

end Related

end Prog

end Effect
