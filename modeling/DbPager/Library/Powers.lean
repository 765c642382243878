import Mathlib.Data.List.Basic

/-!
# Lists that commute

Two lists may be appended in either order exactly when both repeat one list.
-/

namespace Powers

variable {α : Type}

/-- The word so many times over. -/
def power (word : List α) (count : Nat) : List α :=
  (List.replicate count word).flatten

theorem power_add (word : List α) (first second : Nat) :
    power word (first + second) = power word first ++ power word second := by
  rw [power, List.replicate_add, List.flatten_append, power, power]

theorem power_one (word : List α) : power word 1 = word := by
  simp [power]

/-- Both lists repeat one word. -/
def SameWord (left right : List α) : Prop :=
  ∃ word first second, left = power word first ∧ right = power word second

theorem SameWord.symm {left right : List α} (same : SameWord left right) :
    SameWord right left := by
  obtain ⟨word, first, second, leftward, rightward⟩ := same
  exact ⟨word, second, first, rightward, leftward⟩

theorem SameWord.commute {left right : List α} (same : SameWord left right) :
    left ++ right = right ++ left := by
  obtain ⟨word, first, second, rfl, rfl⟩ := same
  rw [← power_add, ← power_add, Nat.add_comm]

theorem SameWord.append {left rest : List α} (same : SameWord left rest) :
    SameWord left (left ++ rest) := by
  obtain ⟨word, first, second, rfl, rfl⟩ := same
  exact ⟨word, first, first + second, rfl, (power_add _ _ _).symm⟩

/-- The shorter of two lists that commute starts the longer one, and what is
left of that commutes again. -/
theorem sameWord_of_commute {left right : List α}
    (commute : left ++ right = right ++ left) : SameWord left right := by
  induction size : left.length + right.length using Nat.strongRecOn
    generalizing left right with
  | ind size induction =>
      by_cases noLeft : left = []
      · exact ⟨right, 0, 1, noLeft, (power_one right).symm⟩
      by_cases noRight : right = []
      · exact ⟨left, 1, 0, (power_one left).symm, noRight⟩
      have someLeft := List.length_pos_of_ne_nil noLeft
      have someRight := List.length_pos_of_ne_nil noRight
      obtain ⟨rest, rfl, -⟩ | ⟨rest, rfl, -⟩ :=
        List.append_eq_append_iff.mp commute
      · have later : left ++ rest = rest ++ left := by
          rwa [List.append_assoc, List.append_cancel_left_eq] at commute
        rw [List.length_append] at size
        exact (induction _ (by omega) later rfl).append
      · have later : right ++ rest = rest ++ right := by
          rw [List.append_assoc, List.append_cancel_left_eq] at commute
          exact commute.symm
        rw [List.length_append] at size
        exact (induction _ (by omega) later rfl).append.symm

theorem commute_iff {left right : List α} :
    left ++ right = right ++ left ↔ SameWord left right :=
  ⟨sameWord_of_commute, SameWord.commute⟩

/-- The two ends of a list may be exchanged exactly when each of them repeats,
with what is between them, one word. -/
theorem exchange_iff {front between back : List α} :
    front ++ (between ++ back) = back ++ (between ++ front) ↔
      SameWord (front ++ between) (back ++ between) := by
  have moved : ∀ one two : List α, one ++ between ++ (two ++ between) =
      (one ++ (between ++ two)) ++ between := by
    intro one two
    simp only [List.append_assoc]
  rw [← commute_iff, moved, moved, List.append_cancel_right_eq]

end Powers
