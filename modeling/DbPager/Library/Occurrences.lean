import Mathlib.Data.List.Infix
import Mathlib.Data.List.Flatten
import Mathlib.Order.Basic

/-!
# Occurrences of a pattern

A list is cut at the leftmost occurrences of a pattern that do not overlap.
Only an empty pattern has no such cut: it occurs again behind itself, and
the search for the next occurrence does not get ahead.
-/

namespace Occurrences

variable {α : Type}

/-- The pattern occurs at the position and at none before it. -/
structure FirstAt (pattern source : List α) (position : Nat) : Prop where
  within : position ≤ source.length
  occurs : pattern <+: source.drop position
  first : ∀ earlier, earlier < position → ¬ pattern <+: source.drop earlier

/-- The pieces between successive leftmost occurrences that do not
overlap. -/
inductive Pieces (pattern : List α) : List α → List (List α) → Prop where
  | last {source : List α} :
      ¬ pattern <:+: source → Pieces pattern source [source]
  | next {source : List α} {position : Nat} {pieces : List (List α)} :
      FirstAt pattern source position →
      Pieces pattern (source.drop (position + pattern.length)) pieces →
      Pieces pattern source (source.take position :: pieces)

theorem infix_iff {pattern source : List α} :
    pattern <:+: source ↔
      ∃ position, position ≤ source.length ∧
        pattern <+: source.drop position := by
  rw [List.infix_iff_prefix_suffix]
  constructor
  · rintro ⟨rest, start, before, rfl⟩
    exact ⟨before.length, by simp, by simpa using start⟩
  · rintro ⟨position, -, occurs⟩
    exact ⟨source.drop position, occurs, List.drop_suffix position source⟩

namespace FirstAt

variable {pattern source : List α} {position other : Nat}

theorem unique (one : FirstAt pattern source position)
    (two : FirstAt pattern source other) : position = other := by
  rcases Nat.lt_trichotomy position other with before | same | after
  · exact absurd one.occurs (two.first position before)
  · exact same
  · exact absurd two.occurs (one.first other after)

theorem found (one : FirstAt pattern source position) :
    pattern <:+: source :=
  infix_iff.mpr ⟨position, one.within, one.occurs⟩

theorem behind (one : FirstAt pattern source position) :
    position + pattern.length ≤ source.length := by
  have bound := one.occurs.length_le
  have within := one.within
  rw [List.length_drop] at bound
  omega

/-- The source is what stands before the occurrence, the pattern, and what
stands behind it. -/
theorem split (one : FirstAt pattern source position) :
    source.take position ++ pattern ++
      source.drop (position + pattern.length) = source := by
  obtain ⟨rest, whole⟩ := one.occurs
  have behind : source.drop (position + pattern.length) = rest := by
    rw [← List.drop_drop, ← whole, List.drop_left]
  rw [behind, List.append_assoc, whole, List.take_append_drop]

/-- What stands before the first occurrence holds no occurrence. -/
theorem not_infix (one : FirstAt pattern source position)
    (filled : pattern ≠ []) : ¬ pattern <:+: source.take position := by
  intro inside
  obtain ⟨earlier, within, occurs⟩ := infix_iff.mp inside
  have room := occurs.length_le
  have some := List.length_pos_iff.mpr filled
  rw [List.length_drop, List.length_take] at room
  apply one.first earlier (by omega)
  rw [List.drop_take] at occurs
  exact occurs.trans (List.take_prefix _ _)

end FirstAt

namespace Pieces

variable {pattern source : List α} {pieces others : List (List α)}

theorem ne_nil (cut : Pieces pattern source pieces) : pieces ≠ [] := by
  cases cut <;> simp

/-- The pattern between the pieces gives the source again. -/
theorem intercalate_eq (cut : Pieces pattern source pieces) :
    pattern.intercalate pieces = source := by
  induction cut with
  | last absent => simp
  | next first cut induction =>
      rw [List.intercalate_cons_of_ne_nil cut.ne_nil, induction,
        first.split]

/-- No piece holds the pattern. -/
theorem not_infix (cut : Pieces pattern source pieces)
    (filled : pattern ≠ []) : ∀ piece ∈ pieces, ¬ pattern <:+: piece := by
  induction cut with
  | last absent =>
      intro piece member
      rw [List.mem_singleton.mp member]
      exact absent
  | next first cut induction =>
      intro piece member
      rcases List.mem_cons.mp member with rfl | member
      · exact first.not_infix filled
      · exact induction piece member

/-- There is one cut only. -/
theorem unique (cut : Pieces pattern source pieces)
    (other : Pieces pattern source others) : pieces = others := by
  induction cut generalizing others with
  | last absent =>
      cases other with
      | last _ => rfl
      | next first _ => exact absurd first.found absent
  | next first cut induction =>
      cases other with
      | last absent => exact absurd first.found absent
      | next second rest =>
          have same := first.unique second
          subst same
          rw [induction rest]

/-- An empty pattern is found again and again. -/
theorem filled (cut : Pieces pattern source pieces) : pattern ≠ [] := by
  induction cut with
  | last absent =>
      rintro rfl
      exact absent (List.nil_infix)
  | next first cut induction => exact induction

end Pieces

end Occurrences
