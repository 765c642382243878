import Mathlib.Data.List.Lex
import Mathlib.Order.Lattice

/-!
# Keys with a common beginning

In lexicographic order, the keys that begin with a given one follow each
other: the first of them is the first key that is not below it, and none comes
after a key that is not among them.  A table is a list of entries sorted by
their keys.
-/

namespace Prefixes

variable {α β : Type} [LinearOrder α]

/-- A key between a beginning and one of its extensions is an extension. -/
theorem prefix_of_between {start key later : List α}
    (notBelow : ¬ key < start) (below : key < later)
    (begins : start <+: later) : start <+: key := by
  induction start generalizing key later with
  | nil => exact List.nil_prefix
  | cons c start induction =>
      obtain ⟨rest, rfl⟩ := begins
      cases key with
      | nil => exact absurd (List.nil_lt_cons c start) notBelow
      | cons d key =>
          rcases List.cons_lt_cons_iff.mp below with less | ⟨rfl, less⟩
          · exact absurd (List.cons_lt_cons_iff.mpr (.inl less)) notBelow
          · apply List.prefix_cons_inj d |>.mpr
            apply induction _ less (List.prefix_append start rest)
            intro under
            exact notBelow (List.cons_lt_cons_iff.mpr (.inr ⟨rfl, under⟩))

/-- No key below a beginning is one of its extensions. -/
theorem not_prefix_of_lt {start key : List α} (below : key < start) :
    ¬ start <+: key := by
  intro begins
  obtain ⟨rest, rfl⟩ := begins
  induction start with
  | nil => exact List.not_lt_nil _ below
  | cons c start induction =>
      rcases List.cons_lt_cons_iff.mp below with less | ⟨-, less⟩
      · exact lt_irrefl c less
      · exact induction less

/-- Sorted by the keys, with one entry for each key. -/
def Ascending (table : List (List α × β)) : Prop :=
  table.Pairwise fun first second => first.1 < second.1

namespace Ascending

variable {table : List (List α × β)}

/-- The entry after a given one is the first of the rest. -/
theorem find?_above {before rest : List (List α × β)} {entry : List α × β}
    (ascending : Ascending (before ++ entry :: rest))
    {test : List α × β → Bool}
    (tests : ∀ other, test other = true ↔ entry.1 < other.1) :
    (before ++ entry :: rest).find? test = rest.head? := by
  obtain ⟨-, here, across⟩ := List.pairwise_append.mp ascending
  obtain ⟨above, -⟩ := List.pairwise_cons.mp here
  have skipped : before.find? test = none := by
    rw [List.find?_eq_none]
    intro other inside after
    have under := across other inside entry List.mem_cons_self
    exact lt_asymm under ((tests other).mp after)
  have itself : ¬ test entry = true := by
    intro after
    exact lt_irrefl _ ((tests entry).mp after)
  rw [List.find?_append, skipped, Option.none_or,
    List.find?_cons_of_neg itself]
  cases rest with
  | nil => rfl
  | cons next rest =>
      apply List.find?_cons_of_pos
      exact (tests next).mpr (above next List.mem_cons_self)

/-- Behind an entry that does not begin with the key, none does. -/
theorem no_prefix_behind {start : List α} {entry : List α × β}
    {rest : List (List α × β)} (ascending : Ascending (entry :: rest))
    (notBelow : ¬ entry.1 < start) (other : ¬ start <+: entry.1) :
    ∀ later ∈ rest, ¬ start <+: later.1 := by
  obtain ⟨above, -⟩ := List.pairwise_cons.mp ascending
  intro later inside begins
  exact other (prefix_of_between notBelow (above later inside) begins)

/-- The entry found by its key is the least one of that kind. -/
theorem find?_least (ascending : Ascending table) {test : List α → Bool}
    {entry : List α × β}
    (found : table.find? (fun entry => test entry.1) = some entry) :
    entry ∈ table ∧ test entry.1 = true ∧
      ∀ other ∈ table, test other.1 = true → ¬ other.1 < entry.1 := by
  obtain ⟨holds, before, after, rfl, earlier⟩ :=
    List.find?_eq_some_iff_append.mp found
  obtain ⟨-, here, -⟩ := List.pairwise_append.mp ascending
  obtain ⟨above, -⟩ := List.pairwise_cons.mp here
  refine ⟨List.mem_append_right _ List.mem_cons_self, holds, ?_⟩
  intro other inside passes
  rcases List.mem_append.mp inside with early | late
  · have fails := earlier other early
    rw [passes] at fails
    cases fails
  · rcases List.mem_cons.mp late with rfl | late
    · exact lt_irrefl _
    · exact lt_asymm (above other late)

end Ascending

end Prefixes
