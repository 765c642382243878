import Mathlib.Data.Fintype.Card
import Mathlib.Data.Set.Finite.Basic
import Mathlib.Logic.Relation

/-!
# Endless chains and cycles

A relation that leads on from finitely many points only has an endless chain
from a point exactly when the point leads to a cycle.
-/

namespace Cycles

open Relation

variable {α : Type} {next : α → α → Prop}

/-- No accessible point leads to itself. -/
theorem not_cycle_of_acc {point : α}
    (ends : Acc (fun later earlier => next earlier later) point) :
    ¬ TransGen next point point := by
  induction ends with
  | intro point _ induction =>
      intro cycle
      obtain ⟨middle, step, back⟩ := TransGen.head'_iff.mp cycle
      exact induction middle step (TransGen.tail' back step)

/-- Among finitely many points, being reached is well-founded where nothing
leads to itself. -/
theorem acc_of_no_cycle (finite : {point | ∃ later, next point later}.Finite)
    {start : α}
    (free : ∀ point, ReflTransGen next start point →
      ¬ TransGen next point point) :
    Acc (fun later earlier => next earlier later) start := by
  let inner : Type :=
    {point : {point // ∃ later, next point later} //
      ReflTransGen next start point.1}
  have few : Finite {point // ∃ later, next point later} := finite
  have fewer : Finite inner := Subtype.finite
  let below (first second : inner) : Prop :=
    TransGen next second.1.1 first.1.1
  have transitive : IsTrans inner below :=
    ⟨fun _ _ _ first second => second.trans first⟩
  have irreflexive : Std.Irrefl below :=
    ⟨fun point cycle => free point.1.1 point.2 cycle⟩
  have founded : WellFounded below :=
    Finite.wellFounded_of_trans_of_irrefl below
  have inside (point : inner) :
      Acc (fun later earlier => next earlier later) point.1.1 := by
    induction point using founded.induction with
    | h point induction =>
        constructor
        intro later step
        by_cases leads : ∃ further, next later further
        · exact induction ⟨⟨later, leads⟩, point.2.tail step⟩ (.single step)
        · constructor
          intro further more
          exact absurd ⟨further, more⟩ leads
  by_cases leads : ∃ later, next start later
  · exact inside ⟨⟨start, leads⟩, .refl⟩
  · constructor
    intro later step
    exact absurd ⟨later, step⟩ leads

end Cycles
