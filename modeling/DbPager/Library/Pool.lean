import Mathlib.Data.List.Basic
import Mathlib.Logic.Function.Basic

/-!
# Pools of reusable items

A pool files its items under keys.  An item that has been opened for some
parameters stays open when it is returned, and may be handed out again under
its key.  Whether it then suits the parameters of the new request depends on
the keys alone.
-/

namespace Pool

variable {κ ρ : Type}

/-- An item: the key it is filed under, and what it has been opened for. -/
structure Item (κ ρ : Type) where
  key : κ
  opened : Option ρ

/-- The items the pool has made so far, by their addresses. -/
abbrev Items (κ ρ : Type) :=
  Nat → Option (Item κ ρ)

/-- The item is set, the others stay as they are. -/
def Items.set (items : Items κ ρ) (address : Nat) (key : κ)
    (opened : Option ρ) : Items κ ρ :=
  Function.update items address (some ⟨key, opened⟩)

theorem Items.set_self (items : Items κ ρ) (address : Nat) (key : κ)
    (opened : Option ρ) :
    items.set address key opened address = some ⟨key, opened⟩ :=
  Function.update_self ..

theorem Items.set_set (items : Items κ ρ) (address : Nat) (key : κ)
    (first second : Option ρ) :
    (items.set address key first).set address key second =
      items.set address key second :=
  Function.update_idem ..

theorem Items.set_same {items : Items κ ρ} {address : Nat} {key : κ}
    {opened : Option ρ} (there : items address = some ⟨key, opened⟩) :
    items.set address key opened = items := by
  unfold Items.set
  rw [← there]
  exact Function.update_eq_self address items

/-- What an acquisition may do: it makes an item, or hands out one that is
filed under the key. -/
inductive Acquired (key : κ) (before after : Items κ ρ) (address : Nat) :
    Prop where
  | fresh : before address = none → after = before.set address key none →
      Acquired key before after address
  | again {opened : Option ρ} : before address = some ⟨key, opened⟩ →
      after = before → Acquired key before after address

/-- Every item was opened for a request that has been served under its key. -/
def Known (served : List (κ × ρ)) (items : Items κ ρ) : Prop :=
  ∀ address item request, items address = some item →
    item.opened = some request → (item.key, request) ∈ served

/-- Requests with the same key have the same parameters. -/
def Told (served : List (κ × ρ)) : Prop :=
  ∀ key first second, (key, first) ∈ served → (key, second) ∈ served →
    first = second

namespace Known

variable {served : List (κ × ρ)} {items after : Items κ ρ} {address : Nat}
  {key : κ}

theorem mono {more : List (κ × ρ)} (known : Known served items)
    (subset : ∀ request ∈ served, request ∈ more) : Known more items := by
  intro address item request there opened
  exact subset _ (known address item request there opened)

theorem empty : Known served (fun _ => none : Items κ ρ) := by
  intro address item request there
  cases there

/-- Setting an item for a request that has been served, or closing it. -/
theorem set (known : Known served items) (address : Nat) (key : κ)
    {opened : Option ρ}
    (listed : ∀ request, opened = some request → (key, request) ∈ served) :
    Known served (items.set address key opened) := by
  intro other item request there open_
  by_cases same : other = address
  · subst same
    rw [Items.set_self] at there
    cases there
    exact listed request open_
  · have kept : items.set address key opened other = items other :=
      Function.update_of_ne same ..
    rw [kept] at there
    exact known other item request there open_

theorem acquired (known : Known served items)
    (acquired : Acquired key items after address) :
    Known served after ∧ ∃ opened, after address = some ⟨key, opened⟩ := by
  cases acquired with
  | fresh absent made =>
      rw [made]
      constructor
      · apply known.set
        intro request none
        cases none
      · exact ⟨none, Items.set_self ..⟩
  | again there same =>
      rw [same]
      exact ⟨known, _, there⟩

/-- Where keys tell requests apart, an item that is open is open for the
request it is handed to. -/
theorem opened_eq (known : Known served items) (told : Told served)
    {request found : ρ} (asked : (key, request) ∈ served)
    (there : items address = some ⟨key, some found⟩) : found = request :=
  told key found request (known address _ found there rfl) asked

end Known

end Pool
