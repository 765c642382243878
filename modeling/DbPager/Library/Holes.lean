import Mathlib.Data.List.Basic

/-!
# Texts with holes

A text with holes consists of literal pieces and of holes with labels.  The
holes can be numbered in their order; whoever has the list of the labels gets
the text back.
-/

namespace Holes

variable {α β γ : Type}

inductive Segment (α β : Type) where
  | piece (text : List α)
  | hole (label : β)

/-- The text with the holes filled. -/
def fill (text : β → List α) : List (Segment α β) → List α
  | [] => []
  | .piece literal :: rest => literal ++ fill text rest
  | .hole label :: rest => text label ++ fill text rest

/-- The labels of the holes, in their order. -/
def labels : List (Segment α β) → List β
  | [] => []
  | .piece _ :: rest => labels rest
  | .hole label :: rest => label :: labels rest

/-- The same pieces, with the number of every hole for its label; so many
holes come before. -/
def number : Nat → List (Segment α β) → List (Segment α Nat)
  | _, [] => []
  | count, .piece literal :: rest => .piece literal :: number count rest
  | count, .hole _ :: rest => .hole (count + 1) :: number (count + 1) rest

/-- The pieces and the places of the holes. -/
def shape : List (Segment α β) → List (Option (List α))
  | [] => []
  | .piece literal :: rest => some literal :: shape rest
  | .hole _ :: rest => none :: shape rest

/-- The text of the label with the number; the first label has the number
one. -/
def labelled (text : β → List α) (labels : List β) (number : Nat) : List α :=
  (labels[number - 1]?).elim [] text

theorem shape_number (count : Nat) (segments : List (Segment α β)) :
    shape (number count segments) = shape segments := by
  induction segments generalizing count with
  | nil => rfl
  | cons segment rest induction =>
      cases segment with
      | piece literal => exact congrArg (some literal :: ·) (induction count)
      | hole label => exact congrArg (none :: ·) (induction (count + 1))

theorem labels_number (count : Nat) (segments : List (Segment α β)) :
    labels (number count segments) =
      List.range' (count + 1) (labels segments).length := by
  induction segments generalizing count with
  | nil => rfl
  | cons segment rest induction =>
      cases segment with
      | piece literal => exact induction count
      | hole label =>
          exact congrArg ((count + 1) :: ·) (induction (count + 1))

/-- The labels of the holes before and of these holes fill the numbered
holes. -/
theorem fill_number_append (text : β → List α) (before : List β)
    (segments : List (Segment α β)) :
    fill (labelled text (before ++ labels segments))
        (number before.length segments) =
      fill text segments := by
  induction segments generalizing before with
  | nil => rfl
  | cons segment rest induction =>
      cases segment with
      | piece literal => exact congrArg (literal ++ ·) (induction before)
      | hole label =>
          have later := induction (before ++ [label])
          rw [List.append_assoc, List.length_append] at later
          have own : labelled text (before ++ label :: labels rest)
              (before.length + 1) = text label := by
            simp [labelled]
          unfold number fill labels
          rw [own]
          exact congrArg (text label ++ ·) later

/-- With the labels in their numbered holes the text is there again. -/
theorem fill_number (text : β → List α) (segments : List (Segment α β)) :
    fill (labelled text (labels segments)) (number 0 segments) =
      fill text segments :=
  fill_number_append text [] segments

end Holes
