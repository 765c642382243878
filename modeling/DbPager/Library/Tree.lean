import Mathlib.Data.List.Basic
import Mathlib.Algebra.BigOperators.Group.List.Basic

/-!
# Labelled trees with a cursor

A tree that is built by appending children keeps a cursor: the tree below
the place where it stands and, for every ancestor, the ancestor's label with
the children to the left and to the right of the way down.  Children are
only ever appended, to the tree at the cursor or to one of its ancestors.

The path length of a tree is the sum of the depths of its nodes.  It grows
with every child by an amount that only depends on where the child goes.
-/

namespace Rose

inductive LabelTree (α : Type) where
  | node (label : α) (childs : List (LabelTree α))

variable {α β : Type}

namespace LabelTree

def label : LabelTree α → α
  | node label _ => label

def childs : LabelTree α → List (LabelTree α)
  | node _ childs => childs

def addChild (tree child : LabelTree α) : LabelTree α :=
  node tree.label (tree.childs ++ [child])

def setLabel (label : α) (tree : LabelTree α) : LabelTree α :=
  node label tree.childs

@[simp] theorem label_node (label : α) (childs : List (LabelTree α)) :
    (node label childs).label = label := rfl

@[simp] theorem childs_node (label : α) (childs : List (LabelTree α)) :
    (node label childs).childs = childs := rfl

@[simp] theorem label_addChild (tree child : LabelTree α) :
    (tree.addChild child).label = tree.label := rfl

@[simp] theorem childs_addChild (tree child : LabelTree α) :
    (tree.addChild child).childs = tree.childs ++ [child] := rfl

@[simp] theorem label_setLabel (label : α) (tree : LabelTree α) :
    (tree.setLabel label).label = label := rfl

@[simp] theorem childs_setLabel (label : α) (tree : LabelTree α) :
    (tree.setLabel label).childs = tree.childs := rfl

mutual

def map (change : α → β) : LabelTree α → LabelTree β
  | node label childs => node (change label) (mapAll change childs)

def mapAll (change : α → β) : List (LabelTree α) → List (LabelTree β)
  | [] => []
  | tree :: trees => map change tree :: mapAll change trees

end

theorem mapAll_eq (change : α → β) (trees : List (LabelTree α)) :
    mapAll change trees = trees.map (map change) := by
  induction trees with
  | nil => rfl
  | cons tree trees induction => simp [mapAll, induction]

/-- The node on a path of child indices. -/
def at? : List Nat → LabelTree α → Option (LabelTree α)
  | [], tree => some tree
  | index :: path, tree => tree.childs[index]?.bind (at? path)

theorem at?_map (change : α → β) (path : List Nat) (tree : LabelTree α) :
    (tree.map change).at? path = (tree.at? path).map (map change) := by
  induction path generalizing tree with
  | nil => rfl
  | cons index path induction =>
      cases tree with
      | node label childs =>
          simp only [at?, map, childs_node, mapAll_eq, List.getElem?_map]
          cases childs[index]? with
          | none => rfl
          | some child => exact induction child

mutual

/-- The sum of the depths of all nodes, the root being at the given depth. -/
def pathLength (depth : Nat) : LabelTree α → Nat
  | node _ childs => depth + pathLengthAll (depth + 1) childs

def pathLengthAll (depth : Nat) : List (LabelTree α) → Nat
  | [] => 0
  | tree :: trees => pathLength depth tree + pathLengthAll depth trees

end

@[simp] theorem pathLengthAll_append (depth : Nat)
    (left right : List (LabelTree α)) :
    pathLengthAll depth (left ++ right) =
      pathLengthAll depth left + pathLengthAll depth right := by
  induction left with
  | nil => simp [pathLengthAll]
  | cons tree trees induction =>
      simp only [List.cons_append, pathLengthAll, induction]
      omega

mutual

/-- The labels of all nodes. -/
def labels : LabelTree α → List α
  | node label childs => label :: labelsAll childs

def labelsAll : List (LabelTree α) → List α
  | [] => []
  | tree :: trees => labels tree ++ labelsAll trees

end

@[simp] theorem labelsAll_append (left right : List (LabelTree α)) :
    labelsAll (left ++ right) = labelsAll left ++ labelsAll right := by
  induction left with
  | nil => rfl
  | cons tree trees induction => simp [labelsAll, induction]

mutual

theorem labels_map (change : α → β) :
    (tree : LabelTree α) → (tree.map change).labels = tree.labels.map change
  | node label childs => by
      simp only [map, labels, List.map_cons, labelsAll_mapAll change childs]

theorem labelsAll_mapAll (change : α → β) :
    (trees : List (LabelTree α)) →
      labelsAll (mapAll change trees) = (labelsAll trees).map change
  | [] => rfl
  | tree :: trees => by
      simp only [mapAll, labelsAll, List.map_append, labels_map change tree,
        labelsAll_mapAll change trees]

end

theorem labels_addChild (tree child : LabelTree α) :
    (tree.addChild child).labels = tree.labels ++ child.labels := by
  cases tree with
  | node label childs => simp [addChild, labels, labelsAll]

mutual

theorem map_map {γ : Type} (outer : β → γ) (inner : α → β) :
    (tree : LabelTree α) →
      (tree.map inner).map outer = tree.map fun label => outer (inner label)
  | node label childs => by
      simp only [map, mapAll_mapAll outer inner childs]

theorem mapAll_mapAll {γ : Type} (outer : β → γ) (inner : α → β) :
    (trees : List (LabelTree α)) →
      mapAll outer (mapAll inner trees) =
        mapAll (fun label => outer (inner label)) trees
  | [] => rfl
  | tree :: trees => by
      simp only [mapAll, map_map outer inner tree,
        mapAll_mapAll outer inner trees]

end

mutual

theorem pathLength_map (change : α → β) :
    (tree : LabelTree α) → (depth : Nat) →
      (tree.map change).pathLength depth = tree.pathLength depth
  | node label childs, depth => by
      simp only [map, pathLength, pathLengthAll_mapAll change childs]

theorem pathLengthAll_mapAll (change : α → β) :
    (trees : List (LabelTree α)) → (depth : Nat) →
      pathLengthAll depth (mapAll change trees) = pathLengthAll depth trees
  | [], _ => rfl
  | tree :: trees, depth => by
      simp only [mapAll, pathLengthAll, pathLength_map change tree,
        pathLengthAll_mapAll change trees]

end

@[simp] theorem pathLength_setLabel (label : α) (tree : LabelTree α)
    (depth : Nat) :
    (tree.setLabel label).pathLength depth = tree.pathLength depth := by
  cases tree with
  | node old childs => rfl

mutual

/-- A tree further down has a longer path length. -/
theorem pathLength_lt {depth deeper : Nat} (lower : depth < deeper) :
    (tree : LabelTree α) → tree.pathLength depth < tree.pathLength deeper
  | node label childs => by
      have below := pathLengthAll_le (Nat.succ_lt_succ lower) childs
      simp only [pathLength]
      simp only [Nat.succ_eq_add_one] at below
      omega

theorem pathLengthAll_le {depth deeper : Nat} (lower : depth < deeper) :
    (trees : List (LabelTree α)) →
      pathLengthAll depth trees ≤ pathLengthAll deeper trees
  | [] => Nat.le_refl _
  | tree :: trees => by
      have first := pathLength_lt lower tree
      have rest := pathLengthAll_le lower trees
      simp only [pathLengthAll]
      omega

end

theorem pathLengthAll_lt {depth deeper : Nat} (lower : depth < deeper)
    {trees : List (LabelTree α)} (some : trees ≠ []) :
    pathLengthAll depth trees < pathLengthAll deeper trees := by
  cases trees with
  | nil => exact absurd rfl some
  | cons tree trees =>
      have first := pathLength_lt lower tree
      have rest := pathLengthAll_le lower trees
      simp only [pathLengthAll]
      omega

end LabelTree

structure Frame (α : Type) where
  label : α
  before : List (LabelTree α)
  after : List (LabelTree α)

namespace Frame

/-- The ancestor's tree, given the tree on the way down. -/
def close (frame : Frame α) (tree : LabelTree α) : LabelTree α :=
  .node frame.label (frame.before ++ tree :: frame.after)

def addChild (frame : Frame α) (child : LabelTree α) : Frame α :=
  { frame with after := frame.after ++ [child] }

theorem close_addChild (frame : Frame α) (tree child : LabelTree α) :
    (frame.addChild child).close tree = (frame.close tree).addChild child := by
  simp [close, addChild, LabelTree.addChild]

end Frame

structure Cursor (α : Type) where
  tree : LabelTree α
  frames : List (Frame α)

namespace Cursor

def up : Cursor α → Option (Cursor α)
  | ⟨_, []⟩ => none
  | ⟨tree, frame :: frames⟩ => some ⟨frame.close tree, frames⟩

/-- The cursor a number of steps up. -/
def ancestor : Nat → Cursor α → Option (Cursor α)
  | 0, cursor => some cursor
  | level + 1, cursor => cursor.up.bind (ancestor level)

def addToFrames : Nat → LabelTree α → List (Frame α) → List (Frame α)
  | _, _, [] => []
  | 0, child, frame :: frames => frame.addChild child :: frames
  | level + 1, child, frame :: frames =>
      frame :: addToFrames level child frames

/-- Append a child to the ancestor at a level; the cursor stays. -/
def addAt : Nat → LabelTree α → Cursor α → Cursor α
  | 0, child, cursor => { cursor with tree := cursor.tree.addChild child }
  | level + 1, child, cursor =>
      { cursor with frames := addToFrames level child cursor.frames }

/-- Append a child to the tree at the cursor and move to the child. -/
def descend (child : LabelTree α) (cursor : Cursor α) : Cursor α :=
  ⟨child, ⟨cursor.tree.label, cursor.tree.childs, []⟩ :: cursor.frames⟩

/-- The whole tree. -/
def root (cursor : Cursor α) : LabelTree α :=
  cursor.frames.foldl (fun tree frame => frame.close tree) cursor.tree

theorem root_eq_of_up {cursor above : Cursor α}
    (step : cursor.up = some above) : above.root = cursor.root := by
  obtain ⟨tree, frames⟩ := cursor
  cases frames with
  | nil => simp [up] at step
  | cons frame frames =>
      simp only [up, Option.some.injEq] at step
      rw [← step]
      rfl

theorem up_descend (child : LabelTree α) (cursor : Cursor α) :
    (cursor.descend child).up =
      some { cursor with tree := cursor.tree.addChild child } := by
  simp [descend, up, Frame.close, LabelTree.addChild]

/-- Appending to an ancestor and going up can be exchanged. -/
theorem up_addAt {level : Nat} {cursor above : Cursor α}
    (step : cursor.up = some above) (child : LabelTree α) :
    (cursor.addAt (level + 1) child).up = some (above.addAt level child) := by
  obtain ⟨tree, frames⟩ := cursor
  cases frames with
  | nil => simp [up] at step
  | cons frame frames =>
      simp only [up, Option.some.injEq] at step
      rw [← step]
      cases level with
      | zero => simp [addAt, addToFrames, up, Frame.close_addChild]
      | succ level => simp [addAt, addToFrames, up]

@[simp] theorem label_tree_addAt (level : Nat) (child : LabelTree α)
    (cursor : Cursor α) :
    (cursor.addAt level child).tree.label = cursor.tree.label := by
  cases level with
  | zero => rfl
  | succ level => rfl

theorem length_frames_of_up {cursor above : Cursor α}
    (step : cursor.up = some above) :
    cursor.frames.length = above.frames.length + 1 := by
  obtain ⟨tree, frames⟩ := cursor
  cases frames with
  | nil => simp [up] at step
  | cons frame frames =>
      simp only [up, Option.some.injEq] at step
      rw [← step]
      rfl

/-- Labels added to the tree at the cursor are added to the whole. -/
theorem labels_root_change {tree changed : LabelTree α}
    (frames : List (Frame α)) {more : List α}
    (grown : changed.labels.Perm (tree.labels ++ more)) :
    (root ⟨changed, frames⟩).labels.Perm
      ((root ⟨tree, frames⟩).labels ++ more) := by
  induction frames generalizing tree changed with
  | nil => exact grown
  | cons frame frames induction =>
      apply @induction (frame.close tree) (frame.close changed)
      simp only [Frame.close, LabelTree.labels, LabelTree.labelsAll_append,
        LabelTree.labelsAll, List.cons_append, List.append_assoc]
      apply List.Perm.cons
      apply List.Perm.append_left
      have moved : (more ++ LabelTree.labelsAll frame.after).Perm
          (LabelTree.labelsAll frame.after ++ more) := List.perm_append_comm
      apply (grown.append_right _).trans
      rw [List.append_assoc]
      exact moved.append_left _

theorem labels_root_addAt {level : Nat} {cursor parent : Cursor α}
    (reached : cursor.ancestor level = some parent) (child : LabelTree α) :
    (cursor.addAt level child).root.labels.Perm
      (cursor.root.labels ++ child.labels) := by
  induction level generalizing cursor with
  | zero =>
      apply labels_root_change cursor.frames
      rw [LabelTree.labels_addChild]
  | succ level induction =>
      obtain ⟨above, step, higher⟩ := Option.bind_eq_some_iff.mp reached
      rw [← root_eq_of_up (up_addAt step child), ← root_eq_of_up step]
      exact induction higher

theorem labels_root_descend (child : LabelTree α) (cursor : Cursor α) :
    (cursor.descend child).root.labels.Perm
      (cursor.root.labels ++ child.labels) := by
  rw [← root_eq_of_up (up_descend child cursor)]
  apply labels_root_change cursor.frames
  rw [LabelTree.labels_addChild]

theorem root_ancestor {level : Nat} {cursor parent : Cursor α}
    (reached : cursor.ancestor level = some parent) :
    parent.root = cursor.root := by
  induction level generalizing cursor with
  | zero =>
      cases reached
      rfl
  | succ level induction =>
      obtain ⟨above, step, higher⟩ := Option.bind_eq_some_iff.mp reached
      rw [induction higher, root_eq_of_up step]

end Cursor

end Rose
