import DbPager.Library.Machines
import Mathlib.Data.List.Nodup
import Mathlib.Logic.Function.Basic

/-!
# Memo tables

Clients ask a table for the values of keys.  A value that is not there is
loaded, which may fail; every value that is loaded is a new object.  A table
that keeps what is loaded has one object for each key, however the requests of
the clients follow each other.  Every request is answered in a single step
here; this is what a table is for, not how it is implemented.
-/

namespace Memo

/-- An object: its value and its number among all objects. -/
structure Made (ν : Type) where
  number : Nat
  value : ν
  deriving DecidableEq

/-- What can be seen of a client. -/
inductive Event (τ κ ν ε : Type) where
  | asked (client : τ) (key : κ)
  | loaded (client : τ) (key : κ) (result : Except ε ν)
  | answered (client : τ) (key : κ) (result : Except ε (Made ν))

inductive Client (κ ν ε : Type) where
  | idle
  | waiting (key : κ)
  | served (key : κ) (result : Except ε (Made ν))

structure State (τ κ ν ε : Type) where
  table : κ → Option (Made ν)
  count : Nat
  clients : τ → Client κ ν ε

inductive Action (τ κ ν ε : Type) where
  | ask (client : τ) (key : κ)
  | find (client : τ)
  | load (client : τ) (result : Except ε ν)
  | answer (client : τ)

variable {τ κ ν ε : Type}

def State.start : State τ κ ν ε :=
  { table := fun _ => none, count := 0, clients := fun _ => .idle }

section Clients

variable [DecidableEq τ]

def State.set (state : State τ κ ν ε) (client : τ) (place : Client κ ν ε) :
    State τ κ ν ε :=
  { state with clients := Function.update state.clients client place }

@[simp] theorem State.set_table (state : State τ κ ν ε) (client : τ)
    (place : Client κ ν ε) : (state.set client place).table = state.table :=
  rfl

@[simp] theorem State.set_count (state : State τ κ ν ε) (client : τ)
    (place : Client κ ν ε) : (state.set client place).count = state.count :=
  rfl

theorem State.set_clients (state : State τ κ ν ε) (client other : τ)
    (place : Client κ ν ε) :
    (state.set client place).clients other =
      if other = client then place else state.clients other :=
  Function.update_apply ..

end Clients

/-- The object that is made next. -/
def State.next (state : State τ κ ν ε) (value : ν) : Made ν :=
  ⟨state.count, value⟩

section Table

variable [DecidableEq κ]

/-- An object is made, and kept under its key. -/
def State.make (keeps : Bool) (state : State τ κ ν ε) (key : κ) (value : ν) :
    State τ κ ν ε :=
  { state with
    count := state.count + 1
    table := if keeps then
      Function.update state.table key (some (state.next value))
    else state.table }

@[simp] theorem State.make_clients (keeps : Bool) (state : State τ κ ν ε)
    (key : κ) (value : ν) :
    (state.make keeps key value).clients = state.clients :=
  rfl

theorem State.make_table (state : State τ κ ν ε) (key other : κ) (value : ν) :
    (state.make true key value).table other =
      if other = key then some (state.next value) else state.table other :=
  Function.update_apply ..

end Table

variable [DecidableEq τ] [DecidableEq κ]

/-- The table.  A value is loaded only where there is none. -/
def machine (keeps : Bool) :
    Machine (State τ κ ν ε) (Action τ κ ν ε) (Event τ κ ν ε)
  | state, .ask client key =>
      match state.clients client with
      | .idle => some (state.set client (.waiting key), [.asked client key])
      | _ => none
  | state, .find client =>
      match state.clients client with
      | .waiting key =>
          (state.table key).map fun made =>
            (state.set client (.served key (.ok made)), [])
      | _ => none
  | state, .load client result =>
      match state.clients client with
      | .waiting key =>
          if (state.table key).isSome then none
          else match result with
            | .ok value =>
                some ((state.make keeps key value).set client
                  (.served key (.ok (state.next value))),
                  [.loaded client key (.ok value)])
            | .error failure =>
                some (state.set client (.served key (.error failure)),
                  [.loaded client key (.error failure)])
      | _ => none
  | state, .answer client =>
      match state.clients client with
      | .served key result =>
          some (state.set client .idle, [.answered client key result])
      | _ => none

/-! ## Steps -/

/-- What a step can do. -/
inductive Step (keeps : Bool) (state : State τ κ ν ε) :
    State τ κ ν ε → List (Event τ κ ν ε) → Prop
  | ask {client : τ} {key : κ} (idle : state.clients client = .idle) :
      Step keeps state (state.set client (.waiting key)) [.asked client key]
  | find {client : τ} {key : κ} {made : Made ν}
      (waiting : state.clients client = .waiting key)
      (there : state.table key = some made) :
      Step keeps state (state.set client (.served key (.ok made))) []
  | make {client : τ} {key : κ} {value : ν}
      (waiting : state.clients client = .waiting key)
      (absent : state.table key = none) :
      Step keeps state
        ((state.make keeps key value).set client
          (.served key (.ok (state.next value))))
        [.loaded client key (.ok value)]
  | fail {client : τ} {key : κ} {failure : ε}
      (waiting : state.clients client = .waiting key)
      (absent : state.table key = none) :
      Step keeps state (state.set client (.served key (.error failure)))
        [.loaded client key (.error failure)]
  | answer {client : τ} {key : κ} {result : Except ε (Made ν)}
      (served : state.clients client = .served key result) :
      Step keeps state (state.set client .idle) [.answered client key result]

theorem step_of_machine {keeps : Bool} {state next : State τ κ ν ε}
    {action : Action τ κ ν ε} {seen : List (Event τ κ ν ε)}
    (stepped : machine keeps state action = some (next, seen)) :
    Step keeps state next seen := by
  cases action with
  | ask client key =>
      cases idle : state.clients client with
      | idle =>
          simp only [machine, idle] at stepped
          cases stepped
          exact .ask idle
      | waiting _ => simp [machine, idle] at stepped
      | served _ _ => simp [machine, idle] at stepped
  | find client =>
      cases waiting : state.clients client with
      | idle => simp [machine, waiting] at stepped
      | waiting key =>
          simp only [machine, waiting, Option.map_eq_some_iff] at stepped
          obtain ⟨made, there, same⟩ := stepped
          cases same
          exact .find waiting there
      | served _ _ => simp [machine, waiting] at stepped
  | load client result =>
      cases waiting : state.clients client with
      | idle => simp [machine, waiting] at stepped
      | waiting key =>
          cases absent : state.table key with
          | some _ => simp [machine, waiting, absent] at stepped
          | none =>
              cases result <;> simp [machine, waiting, absent] at stepped <;>
                obtain ⟨rfl, rfl⟩ := stepped
              · exact .fail waiting absent
              · exact .make waiting absent
      | served _ _ => simp [machine, waiting] at stepped
  | answer client =>
      cases served : state.clients client with
      | idle => simp [machine, served] at stepped
      | waiting _ => simp [machine, served] at stepped
      | served key result =>
          simp only [machine, served] at stepped
          cases stepped
          exact .answer served

/-! ## Every request is answered -/

namespace Event

/-- The key the client asks for. -/
def asks (client : τ) : Event τ κ ν ε → Option κ
  | .asked other key => if other = client then some key else none
  | _ => none

/-- The key the client gets an answer for. -/
def answers (client : τ) : Event τ κ ν ε → Option κ
  | .answered other key _ => if other = client then some key else none
  | _ => none

end Event

/-- The request that is not answered yet. -/
def Client.pending : Client κ ν ε → List κ
  | .idle => []
  | .waiting key | .served key _ => [key]

/-- Every client gets an answer to each of its requests in turn. -/
def InTurn (state : State τ κ ν ε) (past : List (Event τ κ ν ε)) : Prop :=
  ∀ client, past.filterMap (Event.asks client) =
    past.filterMap (Event.answers client) ++ (state.clients client).pending

omit [DecidableEq κ] in
/-- A step that no client asks or gets an answer in. -/
theorem InTurn.quiet {state : State τ κ ν ε} {past seen : List (Event τ κ ν ε)}
    (inTurn : InTurn state past) {client : τ} {place : Client κ ν ε}
    (asks : ∀ other, seen.filterMap (Event.asks other) = [])
    (answers : ∀ other, seen.filterMap (Event.answers other) = [])
    (same : place.pending = (state.clients client).pending) :
    InTurn (state.set client place) (past ++ seen) := by
  intro other
  rw [List.filterMap_append, List.filterMap_append, asks, answers,
    List.append_nil, List.append_nil, inTurn other, State.set_clients]
  split
  · rename_i here
    rw [here, same]
  · rfl

theorem InTurn.step {keeps : Bool} {state next : State τ κ ν ε}
    {past seen : List (Event τ κ ν ε)} (inTurn : InTurn state past)
    (stepped : Step keeps state next seen) : InTurn next (past ++ seen) := by
  cases stepped with
  | @ask client key idle =>
      intro other
      rw [List.filterMap_append, List.filterMap_append, inTurn other,
        State.set_clients]
      by_cases same : other = client
      · simp [same, idle, Client.pending, Event.asks, Event.answers]
      · simp [same, Ne.symm same, Event.asks, Event.answers]
  | find waiting there =>
      apply inTurn.quiet
      · exact fun _ => rfl
      · exact fun _ => rfl
      · rw [waiting]
        rfl
  | @make client key value waiting absent =>
      have made : InTurn (state.make keeps key value) past := inTurn
      apply made.quiet
      · exact fun _ => rfl
      · exact fun _ => rfl
      · rw [State.make_clients, waiting]
        rfl
  | fail waiting absent =>
      apply inTurn.quiet
      · exact fun _ => rfl
      · exact fun _ => rfl
      · rw [waiting]
        rfl
  | @answer client key result served =>
      intro other
      rw [List.filterMap_append, List.filterMap_append, inTurn other,
        State.set_clients]
      by_cases same : other = client
      · simp [same, served, Client.pending, Event.asks, Event.answers]
      · simp [same, Ne.symm same, Event.asks, Event.answers]

/-- No request is lost, and none is answered twice. -/
theorem inTurn {keeps : Bool} {actions : List (Action τ κ ν ε)}
    {final : State τ κ ν ε} {trace : List (Event τ κ ν ε)}
    (ran : (machine keeps).run actions State.start = some (final, trace)) :
    InTurn final trace := by
  have always : (machine (τ := τ) (κ := κ) (ν := ν) (ε := ε) keeps).Keeps
      InTurn := fun _ _ _ _ _ inTurn stepped =>
    inTurn.step (step_of_machine stepped)
  have first : InTurn (State.start : State τ κ ν ε) [] := fun _ => rfl
  exact always.run first ran

/-! ## One object for each key -/

namespace Event

/-- A value of the key is loaded. -/
def makes (key : κ) : Event τ κ ν ε → Bool
  | .loaded _ other (.ok _) => other = key
  | _ => false

/-- The number of the object a client has got. -/
def object : Event τ κ ν ε → Option Nat
  | .answered _ _ (.ok made) => some made.number
  | _ => none

end Event

/-- All clients have got the same object for a key, and different ones for
different keys; it is the one value of the key that has been loaded.  A client
has got a failure only if the value failed to load for it. -/
structure OneEach (trace : List (Event τ κ ν ε)) : Prop where
  same : ∀ {client other key others made mades},
    .answered client key (.ok made) ∈ trace →
    .answered other others (.ok mades) ∈ trace →
    (made = mades ↔ key = others)
  once : ∀ key, trace.countP (Event.makes key) ≤ 1
  origin : ∀ {client key made}, .answered client key (.ok made) ∈ trace →
    ∃ loader, .loaded loader key (.ok made.value) ∈ trace
  failed : ∀ {client key failure},
    .answered client key (.error failure) ∈ trace →
    .loaded client key (.error failure) ∈ trace

/-- What a table that keeps its objects knows of what has been seen. -/
structure Consistent (state : State τ κ ν ε) (past : List (Event τ κ ν ε)) :
    Prop where
  loaded : ∀ {key made}, state.table key = some made →
    ∃ loader, .loaded loader key (.ok made.value) ∈ past
  below : ∀ {key made}, state.table key = some made →
    made.number < state.count
  apart : ∀ {key other made mades}, state.table key = some made →
    state.table other = some mades → made.number = mades.number → key = other
  once : ∀ key, past.countP (Event.makes key) =
    if (state.table key).isSome then 1 else 0
  served : ∀ {client key made},
    state.clients client = .served key (.ok made) → state.table key = some made
  answered : ∀ {client key made}, .answered client key (.ok made) ∈ past →
    state.table key = some made
  fails : ∀ {client key failure},
    state.clients client = .served key (.error failure) →
    .loaded client key (.error failure) ∈ past
  failed : ∀ {client key failure},
    .answered client key (.error failure) ∈ past →
    .loaded client key (.error failure) ∈ past

namespace Consistent

variable {state : State τ κ ν ε} {past : List (Event τ κ ν ε)}

omit [DecidableEq τ] in
theorem start : Consistent (State.start : State τ κ ν ε) [] where
  loaded there := by cases there
  below there := by cases there
  apart there := by cases there
  once _ := rfl
  served there := by cases there
  answered member := by cases member
  fails there := by cases there
  failed member := by cases member

/-- A step that leaves the table alone and makes no object. -/
theorem quiet (consistent : Consistent state past)
    {seen : List (Event τ κ ν ε)} {client : τ} {place : Client κ ν ε}
    (nothing : ∀ key, seen.countP (Event.makes key) = 0)
    (served : ∀ {key made}, place = .served key (.ok made) →
      state.table key = some made)
    (answered : ∀ {other key made}, .answered other key (.ok made) ∈ seen →
      state.table key = some made)
    (fails : ∀ {key failure}, place = .served key (.error failure) →
      .loaded client key (.error failure) ∈ past ++ seen)
    (failed : ∀ {other key failure},
      .answered other key (.error failure) ∈ seen →
      .loaded other key (.error failure) ∈ past ++ seen) :
    Consistent (state.set client place) (past ++ seen) where
  loaded there := by
    obtain ⟨loader, member⟩ := consistent.loaded there
    exact ⟨loader, List.mem_append_left _ member⟩
  below := consistent.below
  apart := consistent.apart
  once key := by
    rw [List.countP_append, nothing, consistent.once]
    rfl
  served := by
    intro other key made here
    rw [State.set_clients] at here
    split at here
    · exact served here
    · exact consistent.served here
  answered := by
    intro other key made member
    rcases List.mem_append.mp member with before | now
    · exact consistent.answered before
    · exact answered now
  fails := by
    intro other key failure here
    rw [State.set_clients] at here
    split at here
    · rename_i same
      rw [same]
      exact fails here
    · exact List.mem_append_left _ (consistent.fails here)
  failed := by
    intro other key failure member
    rcases List.mem_append.mp member with before | now
    · exact List.mem_append_left _ (consistent.failed before)
    · exact failed now

/-- A new object is unlike all others. -/
theorem make (consistent : Consistent state past) {client : τ} {key : κ}
    {value : ν} (absent : state.table key = none) :
    Consistent
      ((state.make true key value).set client
        (.served key (.ok (state.next value))))
      (past ++ [.loaded client key (.ok value)]) := by
  have kept : ∀ {other made}, state.table other = some made →
      (state.make true key value).table other = some made := by
    intro other made there
    rw [State.make_table, if_neg, there]
    rintro rfl
    rw [absent] at there
    cases there
  constructor
  case loaded =>
    intro other made there
    rw [State.set_table, State.make_table] at there
    split at there
    · rename_i same
      cases there
      rw [same]
      exact ⟨client, List.mem_append_right _ (List.mem_singleton.mpr rfl)⟩
    · obtain ⟨loader, member⟩ := consistent.loaded there
      exact ⟨loader, List.mem_append_left _ member⟩
  case below =>
    intro other made there
    rw [State.set_table, State.make_table] at there
    split at there
    · cases there
      exact Nat.lt_succ_self _
    · exact Nat.lt_succ_of_lt (consistent.below there)
  case apart =>
    intro first second made mades one two equal
    rw [State.set_table, State.make_table] at one two
    split at one <;> split at two
    · rename_i here there
      rw [here, there]
    · cases one
      exact absurd equal.symm (Nat.ne_of_lt (consistent.below two))
    · cases two
      exact absurd equal (Nat.ne_of_lt (consistent.below one))
    · exact consistent.apart one two equal
  case once =>
    intro other
    rw [List.countP_append, consistent.once, State.set_table, State.make_table]
    by_cases same : other = key
    · simp [same, absent, Event.makes]
    · simp [same, Ne.symm same, Event.makes]
  case served =>
    intro other others made here
    rw [State.set_clients] at here
    split at here
    · cases here
      rw [State.set_table, State.make_table, if_pos rfl]
    · exact kept (consistent.served here)
  case answered =>
    intro other others made member
    rcases List.mem_append.mp member with before | now
    · exact kept (consistent.answered before)
    · cases List.mem_singleton.mp now
  case fails =>
    intro other others failure here
    rw [State.set_clients] at here
    split at here
    · cases here
    · exact List.mem_append_left _ (consistent.fails here)
  case failed =>
    intro other others failure member
    rcases List.mem_append.mp member with before | now
    · exact List.mem_append_left _ (consistent.failed before)
    · cases List.mem_singleton.mp now

theorem step (consistent : Consistent state past) {next : State τ κ ν ε}
    {seen : List (Event τ κ ν ε)} (stepped : Step true state next seen) :
    Consistent next (past ++ seen) := by
  cases stepped with
  | ask idle =>
      apply consistent.quiet
      · intro key
        rfl
      · intro key made same
        cases same
      · intro other key made member
        cases List.mem_singleton.mp member
      · intro key failure same
        cases same
      · intro other key failure member
        cases List.mem_singleton.mp member
  | find waiting there =>
      apply consistent.quiet
      · intro key
        rfl
      · intro key made same
        cases same
        exact there
      · intro other key made member
        cases member
      · intro key failure same
        cases same
      · intro other key failure member
        cases member
  | make waiting absent => exact consistent.make absent
  | fail waiting absent =>
      apply consistent.quiet
      · intro key
        rfl
      · intro key made same
        cases same
      · intro other key made member
        cases List.mem_singleton.mp member
      · intro key failure same
        cases same
        exact List.mem_append_right _ (List.mem_singleton.mpr rfl)
      · intro other key failure member
        cases List.mem_singleton.mp member
  | answer served =>
      apply consistent.quiet
      · intro key
        rfl
      · intro key made same
        cases same
      · intro other key made member
        cases List.mem_singleton.mp member
        exact consistent.served served
      · intro key failure same
        cases same
      · intro other key failure member
        cases List.mem_singleton.mp member
        exact List.mem_append_left _ (consistent.fails served)

omit [DecidableEq τ] in
theorem oneEach (consistent : Consistent state past) : OneEach past where
  same first second := by
    have one := consistent.answered first
    have two := consistent.answered second
    constructor
    · intro equal
      exact consistent.apart one two (congrArg Made.number equal)
    · rintro rfl
      rw [one] at two
      exact Option.some.inj two
  once key := by
    rw [consistent.once]
    split
    · exact Nat.le_refl 1
    · exact Nat.zero_le 1
  origin member := consistent.loaded (consistent.answered member)
  failed := consistent.failed

end Consistent

/-- Whatever the clients do, a table that keeps its objects has one for each
key. -/
theorem oneEach {actions : List (Action τ κ ν ε)} {final : State τ κ ν ε}
    {trace : List (Event τ κ ν ε)}
    (ran : (machine true).run actions State.start = some (final, trace)) :
    OneEach trace := by
  have keeps : (machine (τ := τ) (κ := κ) (ν := ν) (ε := ε) true).Keeps
      Consistent := fun _ _ _ _ _ consistent stepped =>
    consistent.step (step_of_machine stepped)
  exact (keeps.run .start ran).oneEach

/-! ## An object for every request -/

/-- No two clients have got the same object; every client has got what has
been loaded for it. -/
structure OwnEach (trace : List (Event τ κ ν ε)) : Prop where
  apart : (trace.filterMap Event.object).Nodup
  origin : ∀ {client key made}, .answered client key (.ok made) ∈ trace →
    .loaded client key (.ok made.value) ∈ trace
  failed : ∀ {client key failure},
    .answered client key (.error failure) ∈ trace →
    .loaded client key (.error failure) ∈ trace

/-- The value or the failure that a client is going to get. -/
def Made.result (result : Except ε (Made ν)) : Except ε ν :=
  result.map Made.value

/-- What a table that keeps nothing knows of what has been seen. -/
structure Unshared (state : State τ κ ν ε) (past : List (Event τ κ ν ε)) :
    Prop where
  empty : ∀ key, state.table key = none
  given : ∀ number ∈ past.filterMap Event.object, number < state.count
  apart : (past.filterMap Event.object).Nodup
  held : ∀ {client key made},
    state.clients client = .served key (.ok made) →
    made.number < state.count ∧ made.number ∉ past.filterMap Event.object
  own : ∀ {client other key others made mades},
    state.clients client = .served key (.ok made) →
    state.clients other = .served others (.ok mades) →
    made.number = mades.number → client = other
  served : ∀ {client key result},
    state.clients client = .served key result →
    .loaded client key (Made.result result) ∈ past
  answered : ∀ {client key result}, .answered client key result ∈ past →
    .loaded client key (Made.result result) ∈ past

namespace Unshared

variable {state : State τ κ ν ε} {past : List (Event τ κ ν ε)}

omit [DecidableEq τ] [DecidableEq κ] in
theorem start : Unshared (State.start : State τ κ ν ε) [] where
  empty _ := rfl
  given number member := by cases member
  apart := List.nodup_nil
  held there := by cases there
  own there := by cases there
  served there := by cases there
  answered member := by cases member

omit [DecidableEq κ] in
/-- A client that has no object goes on without one. -/
theorem quiet (unshared : Unshared state past)
    {seen : List (Event τ κ ν ε)} {client : τ} {place : Client κ ν ε}
    (nothing : seen.filterMap Event.object = [])
    (without : ∀ {key made}, place ≠ .served key (.ok made))
    (served : ∀ {key result}, place = .served key result →
      .loaded client key (Made.result result) ∈ past ++ seen)
    (answered : ∀ {other key result}, .answered other key result ∈ seen →
      .loaded other key (Made.result result) ∈ past ++ seen) :
    Unshared (state.set client place) (past ++ seen) := by
  have objects : (past ++ seen).filterMap Event.object =
      past.filterMap Event.object := by
    rw [List.filterMap_append, nothing, List.append_nil]
  have held : ∀ {other key made},
      (state.set client place).clients other = .served key (.ok made) →
      state.clients other = .served key (.ok made) := by
    intro other key made here
    rw [State.set_clients] at here
    split at here
    · exact absurd here without
    · exact here
  constructor
  case empty => exact unshared.empty
  case given =>
    rw [objects]
    exact unshared.given
  case apart =>
    rw [objects]
    exact unshared.apart
  case held =>
    intro other key made here
    rw [objects]
    exact unshared.held (held here)
  case own =>
    intro first second key others made mades one two
    exact unshared.own (held one) (held two)
  case served =>
    intro other key result here
    rw [State.set_clients] at here
    split at here
    · rename_i same
      rw [same]
      exact served here
    · exact List.mem_append_left _ (unshared.served here)
  case answered =>
    intro other key result member
    rcases List.mem_append.mp member with before | now
    · exact List.mem_append_left _ (unshared.answered before)
    · exact answered now

theorem make (unshared : Unshared state past) {client : τ} {key : κ}
    {value : ν} :
    Unshared
      ((state.make false key value).set client
        (.served key (.ok (state.next value))))
      (past ++ [.loaded client key (.ok value)]) := by
  have objects : (past ++ [Event.loaded client key (.ok value)]).filterMap
      (Event.object (ε := ε)) = past.filterMap Event.object := by
    rw [List.filterMap_append]
    exact List.append_nil _
  constructor
  case empty => exact unshared.empty
  case given =>
    rw [objects]
    intro number member
    exact Nat.lt_succ_of_lt (unshared.given number member)
  case apart =>
    rw [objects]
    exact unshared.apart
  case held =>
    intro other others made here
    rw [objects]
    rw [State.set_clients] at here
    split at here
    · cases here
      refine ⟨Nat.lt_succ_self _, ?_⟩
      intro member
      exact Nat.lt_irrefl _ (unshared.given _ member)
    · obtain ⟨below, absent⟩ := unshared.held here
      exact ⟨Nat.lt_succ_of_lt below, absent⟩
  case own =>
    intro first second one two made mades here there equal
    rw [State.set_clients] at here there
    split at here <;> split at there
    · rename_i left right
      rw [left, right]
    · cases here
      exact absurd equal.symm (Nat.ne_of_lt (unshared.held there).1)
    · cases there
      exact absurd equal (Nat.ne_of_lt (unshared.held here).1)
    · exact unshared.own here there equal
  case served =>
    intro other others result here
    rw [State.set_clients] at here
    split at here
    · rename_i same
      cases here
      rw [same]
      exact List.mem_append_right _ (List.mem_singleton.mpr rfl)
    · exact List.mem_append_left _ (unshared.served here)
  case answered =>
    intro other others result member
    rcases List.mem_append.mp member with before | now
    · exact List.mem_append_left _ (unshared.answered before)
    · cases List.mem_singleton.mp now

omit [DecidableEq κ] in
/-- A client hands out the object it has. -/
theorem answer (unshared : Unshared state past) {client : τ} {key : κ}
    {made : Made ν} (served : state.clients client = .served key (.ok made)) :
    Unshared (state.set client .idle)
      (past ++ [.answered client key (.ok made)]) := by
  obtain ⟨below, absent⟩ := unshared.held served
  have objects : (past ++ [Event.answered client key (.ok made)]).filterMap
      (Event.object (ε := ε)) = past.filterMap Event.object ++ [made.number] := by
    rw [List.filterMap_append]
    rfl
  have others : ∀ {other key result},
      (state.set client .idle).clients other = .served key result →
      other ≠ client ∧ state.clients other = .served key result := by
    intro other key result here
    rw [State.set_clients] at here
    split at here
    · cases here
    · exact ⟨‹_›, here⟩
  constructor
  case empty => exact unshared.empty
  case given =>
    rw [objects]
    intro number member
    rcases List.mem_append.mp member with before | now
    · exact unshared.given number before
    · rw [List.mem_singleton.mp now]
      exact below
  case apart =>
    rw [objects]
    exact List.nodup_append.mpr ⟨unshared.apart, List.nodup_singleton _,
      fun number before other now => by
        rintro rfl
        rw [List.mem_singleton.mp now] at before
        exact absent before⟩
  case held =>
    intro other key found here
    obtain ⟨different, here⟩ := others here
    rw [objects]
    refine ⟨(unshared.held here).1, ?_⟩
    intro member
    rcases List.mem_append.mp member with before | now
    · exact (unshared.held here).2 before
    · exact different (unshared.own here served (List.mem_singleton.mp now))
  case own =>
    intro first second one two found founds here there
    exact unshared.own (others here).2 (others there).2
  case served =>
    intro other key result here
    exact List.mem_append_left _ (unshared.served (others here).2)
  case answered =>
    intro other key result member
    apply List.mem_append_left
    rcases List.mem_append.mp member with before | now
    · exact unshared.answered before
    · cases List.mem_singleton.mp now
      exact unshared.served served

theorem step (unshared : Unshared state past) {next : State τ κ ν ε}
    {seen : List (Event τ κ ν ε)} (stepped : Step false state next seen) :
    Unshared next (past ++ seen) := by
  cases stepped with
  | ask idle =>
      apply unshared.quiet rfl
      · intro key made same
        cases same
      · intro key result same
        cases same
      · intro other key result member
        cases List.mem_singleton.mp member
  | find waiting there =>
      rw [unshared.empty] at there
      cases there
  | make waiting absent => exact unshared.make
  | fail waiting absent =>
      apply unshared.quiet rfl
      · intro key made same
        cases same
      · intro key result same
        cases same
        exact List.mem_append_right _ (List.mem_singleton.mpr rfl)
      · intro other key result member
        cases List.mem_singleton.mp member
  | @answer client key result served =>
      cases result with
      | ok made => exact unshared.answer served
      | error failure =>
          apply unshared.quiet rfl
          · intro key made same
            cases same
          · intro key result same
            cases same
          · intro other key result member
            cases List.mem_singleton.mp member
            exact List.mem_append_left _ (unshared.served served)

omit [DecidableEq τ] [DecidableEq κ] in
theorem ownEach (unshared : Unshared state past) : OwnEach past where
  apart := unshared.apart
  origin := unshared.answered
  failed := unshared.answered

end Unshared

/-- Whatever the clients do, a table that keeps nothing has an object for
every request. -/
theorem ownEach {actions : List (Action τ κ ν ε)} {final : State τ κ ν ε}
    {trace : List (Event τ κ ν ε)}
    (ran : (machine false).run actions State.start = some (final, trace)) :
    OwnEach trace := by
  have keeps : (machine (τ := τ) (κ := κ) (ν := ν) (ε := ε) false).Keeps
      Unshared := fun _ _ _ _ _ unshared stepped =>
    unshared.step (step_of_machine stepped)
  exact (keeps.run .start ran).ownEach

end Memo
