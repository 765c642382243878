import Mathlib.Data.List.Basic
import Mathlib.Order.Basic

/-!
# Machines

A machine takes an action to its next state and to what can be seen of the
step; an action that is not possible in a state has no next state.  What every
step preserves, a run preserves; a machine that can answer every step of
another one has its traces; and steps that use up what has been granted are
bounded by the grants.
-/

/-- What an action does in a state, and what is seen of it. -/
abbrev Machine (σ α ω : Type) :=
  σ → α → Option (σ × List ω)

namespace Machine

variable {σ τ α β ω : Type}

/-- The actions one after the other, and all that is seen of them. -/
def run (machine : Machine σ α ω) : List α → σ → Option (σ × List ω)
  | [], state => some (state, [])
  | action :: actions, state =>
      (machine state action).bind fun (next, seen) =>
        (run machine actions next).map fun (final, later) =>
          (final, seen ++ later)

section Runs

variable {machine : Machine σ α ω} {state final : σ} {trace : List ω}

@[simp] theorem run_nil (state : σ) : machine.run [] state = some (state, []) :=
  rfl

theorem run_cons {action : α} {actions : List α} {next : σ} {seen later : List ω}
    (stepped : machine state action = some (next, seen))
    (ran : machine.run actions next = some (final, later)) :
    machine.run (action :: actions) state = some (final, seen ++ later) :=
  Option.bind_eq_some_iff.mpr ⟨(next, seen), stepped,
    Option.map_eq_some_iff.mpr ⟨(final, later), ran, rfl⟩⟩

theorem of_run_cons {action : α} {actions : List α}
    (ran : machine.run (action :: actions) state = some (final, trace)) :
    ∃ next seen later, machine state action = some (next, seen) ∧
      machine.run actions next = some (final, later) ∧
      trace = seen ++ later := by
  obtain ⟨⟨next, seen⟩, stepped, rest⟩ := Option.bind_eq_some_iff.mp ran
  obtain ⟨⟨last, later⟩, ends, same⟩ := Option.map_eq_some_iff.mp rest
  cases same
  exact ⟨next, seen, later, stepped, ends, rfl⟩

theorem run_append {first second : List α} {middle : σ} {seen later : List ω}
    (before : machine.run first state = some (middle, seen))
    (after : machine.run second middle = some (final, later)) :
    machine.run (first ++ second) state = some (final, seen ++ later) := by
  induction first generalizing state seen with
  | nil =>
      cases before
      exact after
  | cons action first induction =>
      obtain ⟨next, now, rest, stepped, ran, rfl⟩ := of_run_cons before
      rw [List.append_assoc]
      exact run_cons stepped (induction ran)

/-- A run can be cut anywhere. -/
theorem of_run_append {first second : List α}
    (ran : machine.run (first ++ second) state = some (final, trace)) :
    ∃ middle seen later, machine.run first state = some (middle, seen) ∧
      machine.run second middle = some (final, later) := by
  induction first generalizing state trace with
  | nil => exact ⟨state, [], trace, rfl, ran⟩
  | cons action first induction =>
      obtain ⟨next, now, later, stepped, rest, -⟩ := of_run_cons ran
      obtain ⟨middle, seen, others, before, after⟩ := induction rest
      exact ⟨middle, now ++ seen, others,
        run_cons stepped before, after⟩

theorem run_single {action : α}
    (stepped : machine state action = some (final, trace)) :
    machine.run [action] state = some (final, trace) := by
  have ran := run_cons stepped (run_nil final)
  rwa [List.append_nil] at ran

end Runs

/-! ## Invariants -/

/-- A property of the state and of what has been seen so far that no step
breaks. -/
def Keeps (machine : Machine σ α ω) (invariant : σ → List ω → Prop) : Prop :=
  ∀ ⦃state past action next seen⦄, invariant state past →
    machine state action = some (next, seen) → invariant next (past ++ seen)

theorem Keeps.run {machine : Machine σ α ω} {invariant : σ → List ω → Prop}
    (keeps : Keeps machine invariant) {actions : List α} {state final : σ}
    {past seen : List ω} (holds : invariant state past)
    (ran : machine.run actions state = some (final, seen)) :
    invariant final (past ++ seen) := by
  induction actions generalizing state past seen with
  | nil =>
      cases ran
      rwa [List.append_nil]
  | cons action actions induction =>
      obtain ⟨next, now, later, stepped, rest, rfl⟩ := of_run_cons ran
      rw [← List.append_assoc]
      exact induction (keeps holds stepped) rest

/-! ## Simulations -/

/-- The abstract machine follows every step of the concrete one, with any
number of steps of its own, and nothing else is seen of them. -/
def Simulates (concrete : Machine σ α ω) (abstract : Machine τ β ω)
    (related : σ → τ → Prop) : Prop :=
  ∀ ⦃state action next seen⦄ ⦃model : τ⦄, related state model →
    concrete state action = some (next, seen) →
    ∃ actions after, abstract.run actions model = some (after, seen) ∧
      related next after

theorem Simulates.run {concrete : Machine σ α ω} {abstract : Machine τ β ω}
    {related : σ → τ → Prop} (simulates : Simulates concrete abstract related)
    {actions : List α} {state final : σ} {model : τ} {trace : List ω}
    (start : related state model)
    (ran : concrete.run actions state = some (final, trace)) :
    ∃ answers after, abstract.run answers model = some (after, trace) ∧
      related final after := by
  induction actions generalizing state model trace with
  | nil =>
      cases ran
      exact ⟨[], model, rfl, start⟩
  | cons action actions induction =>
      obtain ⟨next, seen, later, stepped, rest, rfl⟩ := of_run_cons ran
      obtain ⟨first, middle, begun, follows⟩ := simulates start stepped
      obtain ⟨second, after, done, ends⟩ := induction follows rest
      exact ⟨first ++ second, after, run_append begun done, ends⟩

/-! ## Bounds -/

/-- In every state some amount of work is left; a step that works pays for it,
and some steps are granted more. -/
def Pays (machine : Machine σ α ω) (left : σ → Nat → Prop)
    (works granted : α → Bool) (limit : Nat) : Prop :=
  ∀ ⦃state action next seen before⦄, left state before →
    machine state action = some (next, seen) →
    ∃ after, left next after ∧
      after + (works action).toNat ≤ before + limit * (granted action).toNat

theorem Pays.run {machine : Machine σ α ω} {left : σ → Nat → Prop}
    {works granted : α → Bool} {limit : Nat}
    (pays : Pays machine left works granted limit)
    {actions : List α} {state final : σ} {trace : List ω} {before : Nat}
    (start : left state before)
    (ran : machine.run actions state = some (final, trace)) :
    ∃ after, left final after ∧
      after + actions.countP works ≤
        before + limit * actions.countP granted := by
  induction actions generalizing state before trace with
  | nil =>
      cases ran
      exact ⟨before, start, Nat.le_refl before⟩
  | cons action actions induction =>
      obtain ⟨next, seen, later, stepped, rest, rfl⟩ := of_run_cons ran
      obtain ⟨middle, remains, paid⟩ := pays start stepped
      obtain ⟨after, ends, total⟩ := induction remains rest
      refine ⟨after, ends, ?_⟩
      have counts : ∀ test : α → Bool, (action :: actions).countP test =
          (test action).toNat + actions.countP test := by
        intro test
        rw [List.countP_cons, Nat.add_comm]
        cases test action <;> rfl
      rw [counts, counts, Nat.mul_add]
      omega

end Machine
