import DbPager.Bindings
import DbPager.Library.Endings
import DbPager.Reconnection

/-!
# Runs through pgsql tags

A database tag publishes its connection in a variable with the id in its name,
and a transaction tag publishes its transaction in a variable that has none.
This is what a run through nested tags looks like, with the connection and the
transaction every query finds.
-/

namespace DbPager.Pgsql

open Effect

variable {W : Type}

/-! ## The variables -/

/-- The variable of the database with the id. -/
def databaseName (id : Str) : Str :=
  databaseHandle.toList ++ id

/-- The variables of the module. -/
inductive Internal : Str → Prop where
  | database (id : Str) : Internal (databaseName id)
  | work : Internal workHandle

theorem upName_databaseName {first second : Str} :
    upName (databaseName first) = upName (databaseName second) ↔
      upName first = upName second := by
  rw [databaseName, databaseName, upName_append, upName_append]
  exact List.append_right_inj _

theorem databaseName_ne_work (id : Str) :
    upName (databaseName id) ≠ upName workHandle := by
  intro same
  have start : (upName databaseHandle.toList).take 8 =
      (upName workHandle).take 8 := by
    rw [← same, databaseName, upName_append]
    exact (List.take_append_of_le_length (by decide)).symm
  exact absurd start (by decide)

/-- How pointers are written and read. -/
structure Handles (dcl : Dcl) : Prop where
  read : ∀ pointer, dcl.fromStringPtr (dcl.toStringPtr pointer) = some pointer
  filled : ∀ pointer, dcl.toStringPtr pointer ≠ []

/-! ## The enclosing tags -/

/-- An item of the pool and the connection it holds. -/
structure Lease where
  item : Nat
  connection : Nat

/-- An enclosing tag.  A database tag has a lease when it has found no
connection for its id. -/
inductive Frame where
  | database (id dsn : Str) (lease : Option Lease)
  | transaction (id : Str) (work : Nat)

namespace Frame

/-- The dsn of a database tag with this id. -/
def dsn (id : Str) : Frame → Option Str
  | database other dsn _ => if other = id then some dsn else none
  | transaction _ _ => none

/-- The dsn of a database tag whose id is this one up to case. -/
def named (id : Str) : Frame → Option Str
  | database other dsn _ => if upName other = upName id then some dsn else none
  | transaction _ _ => none

/-- What a database tag has opened under the variable of this id. -/
def opened (id : Str) : Frame → Option (Str × Lease)
  | database other dsn (some lease) =>
      if upName other = upName id then some (dsn, lease) else none
  | database _ _ none | transaction _ _ => none

/-- The id and the transaction of a transaction tag. -/
def begun : Frame → Option (Str × Nat)
  | database _ _ _ => none
  | transaction id work => some (id, work)

/-- The lease of a database tag, with its dsn. -/
def leased : Frame → Option (Str × Lease)
  | database _ dsn lease => lease.map fun lease => (dsn, lease)
  | transaction _ _ => none

end Frame

/-- The enclosing tags, the innermost one first. -/
abbrev Scope := List Frame

namespace Scope

/-- The dsn of the innermost database tag with the id. -/
def dsn (id : Str) (scope : Scope) : Option Str :=
  scope.findSome? (Frame.dsn id)

/-- The dsn of the outermost database tag with the id up to case. -/
def outermost (id : Str) : Scope → Option Str
  | [] => none
  | frame :: scope => (outermost id scope).or (frame.named id)

/-- What the variable of the id stands for. -/
def opened (id : Str) (scope : Scope) : Option (Str × Lease) :=
  scope.findSome? (Frame.opened id)

/-- The open transactions with their ids. -/
def works (scope : Scope) : List (Str × Nat) :=
  scope.filterMap Frame.begun

/-- The transaction of the innermost transaction tag with the id. -/
def work (id : Str) (scope : Scope) : Option Nat :=
  (scope.works.find? fun begun => begun.1 = id).map Prod.snd

def leases (scope : Scope) : List (Str × Lease) :=
  scope.filterMap Frame.leased

end Scope

/-! ## What happens in a run -/

/-- A call of the library on behalf of a query. -/
inductive Call where
  | begin (connection work : Nat)
  | prepare (connection work : Nat)
  | exec (work : Nat)

/-- The transaction of a query: one that is open, or one of its own. -/
inductive Transaction where
  | enclosing (work : Nat)
  | own (work : Nat)

namespace Transaction

def work : Transaction → Nat
  | enclosing work | own work => work

/-- The calls that execute a statement on the connection in the transaction. -/
def calls (connection : Nat) : Transaction → List Call
  | enclosing work => [.prepare connection work, .exec work]
  | own work =>
      [.begin connection work, .prepare connection work, .exec work]

end Transaction

/-- The calls execute a statement on the connection, in the transaction if there
is one, and otherwise in one that is begun for it. -/
def Executes (connection : Nat) (calls : List Call) : Option Nat → Prop
  | some work => calls = [.prepare connection work, .exec work]
  | none => ∃ own,
      calls = [.begin connection own, .prepare connection own, .exec own]

theorem Executes.unique {connection : Nat} {calls : List Call}
    {first second : Option Nat} (one : Executes connection calls first)
    (two : Executes connection calls second) : first = second := by
  cases first with
  | none =>
      obtain ⟨own, rfl⟩ := one
      cases second with
      | none => rfl
      | some work => simp [Executes] at two
  | some work =>
      cases one
      cases second with
      | none =>
          obtain ⟨own, same⟩ := two
          simp at same
      | some other =>
          simp only [Executes, List.cons.injEq, Call.prepare.injEq] at two
          rw [two.1.2]

/-- A query executes its statement with these calls, on a connection that has
been opened with the dsn.  Or the logger raises an exception when a reconnection
is announced. -/
inductive Happening where
  | query (scope : Scope) (id : Str) (connection : Nat) (dsn : Option Str)
      (calls : List Call)
  | leaked

namespace Happening

/-- The query gets a connection that has been opened by the outermost database
tag with its id up to case, and the innermost transaction. -/
def Gets : Happening → Prop
  | query scope id connection dsn calls =>
      (∃ given, scope.outermost id = some given ∧ dsn = some given) ∧
        Executes connection calls (scope.works.head?.map Prod.snd) ∧
        (scope.works.map Prod.snd).Nodup
  | leaked => True

/-- The query gets what the tags with its id name. -/
def Right : Happening → Prop
  | query scope id connection dsn calls =>
      (∃ given, scope.dsn id = some given ∧ dsn = some given) ∧
        Executes connection calls (scope.work id)
  | leaked => True

/-- The innermost database tag with the id has the dsn of the outermost one with
the id up to case, and the innermost transaction tag, if there is one, has the
id. -/
def Meets : Happening → Prop
  | query scope id _ _ _ =>
      (∃ given, scope.dsn id = some given ∧
        scope.outermost id = some given) ∧
      ∀ begun, scope.works.head? = some begun → begun.1 = id
  | leaked => True

theorem work_of_same {id : Str} {works : List (Str × Nat)}
    (same : ∀ begun ∈ works, begun.1 = id) :
    (works.find? fun begun => begun.1 = id) = works.head? := by
  cases works with
  | nil => rfl
  | cons begun rest => simp [same begun List.mem_cons_self]

theorem work_right {id : Str} {works : List (Str × Nat)}
    (nodup : (works.map Prod.snd).Nodup) :
    works.head?.map Prod.snd =
        (works.find? fun begun => begun.1 = id).map Prod.snd ↔
      ∀ begun, works.head? = some begun → begun.1 = id := by
  cases works with
  | nil => simp
  | cons begun rest =>
      rw [List.map_cons, List.nodup_cons] at nodup
      by_cases same : begun.1 = id
      · simp [same]
      · have other : ¬ (some begun.2 =
            (rest.find? fun begun => begun.1 = id).map Prod.snd) := by
          intro found
          obtain ⟨later, there, equal⟩ :=
            Option.map_eq_some_iff.mp found.symm
          have member := List.mem_of_find?_eq_some there
          exact nodup.1 (equal ▸ List.mem_map_of_mem member)
        simp [same, other]

theorem Gets.right_iff {happening : Happening} (gets : happening.Gets) :
    happening.Right ↔ happening.Meets := by
  cases happening with
  | leaked => exact Iff.rfl
  | query scope id connection dsn calls =>
      obtain ⟨⟨given, outermost, rfl⟩, executes, nodup⟩ := gets
      have works : Executes connection calls (scope.work id) ↔
          ∀ begun, scope.works.head? = some begun → begun.1 = id := by
        rw [← work_right nodup]
        constructor
        · exact fun right => executes.unique right
        · intro same
          rw [Scope.work, ← same]
          exact executes
      refine and_congr ?_ works
      rw [outermost]

/-- How many statements have been executed. -/
def executions (happened : List Happening) : Nat :=
  happened.countP fun
    | query .. => true
    | leaked => false

theorem executions_query (scope : Scope) (id : Str) (connection : Nat)
    (dsn : Option Str) (calls : List Call) :
    executions [query scope id connection dsn calls] = 1 := rfl

theorem executions_append (first second : List Happening) :
    executions (first ++ second) = executions first + executions second :=
  List.countP_append

end Happening

/-! ## The state inside the tags -/

/-- What is known about the library: the dsn a connection has been opened with,
the dsn an item is filed under, and how many statements have been executed. -/
structure Records (W : Type) where
  opened : W → Nat → Option Str
  filed : W → Nat → Option Str
  executed : W → Nat

/-- An item is filed under the dsn it is acquired for, and then its connection
has been opened with this dsn. -/
structure PoolLaws (api : PgsqlApi W) (records : Records W) : Prop where
  acquired : ∀ {dsn world after item},
    api.acquire dsn world = (after, .value item) →
    records.filed after item = some dsn
  absent : ∀ {item world after},
    api.connection item world = (after, .value none) →
    records.filed after item = records.filed world item
  found : ∀ {item dsn world after connection},
    records.filed world item = some dsn →
    api.connection item world = (after, .value (some connection)) →
    records.filed after item = some dsn ∧
      records.opened after connection = some dsn
  connected : ∀ {item dsn world after connection},
    records.filed world item = some dsn →
    api.connect item dsn world = (after, .value connection) →
    records.filed after item = some dsn ∧
      records.opened after connection = some dsn

/-- The executed statements are counted, and nothing else is. -/
structure Counts (api : PgsqlApi W) (executed : W → Nat) : Prop where
  exec : ∀ work bound world,
    executed (api.exec work bound world).1 = executed world + 1
  acquire : ∀ dsn world, executed (api.acquire dsn world).1 = executed world
  connection : ∀ item world,
    executed (api.connection item world).1 = executed world
  connect : ∀ item dsn world,
    executed (api.connect item dsn world).1 = executed world
  work : ∀ connection world,
    executed (api.work connection world).1 = executed world
  commit : ∀ work world, executed (api.commit work world).1 = executed world
  abort : ∀ work world, executed (api.abort work world) = executed world
  prepare : ∀ connection work statement world,
    executed (api.prepare connection work statement world).1 = executed world

/-- The connections in use stay as they are. -/
def Keeps (records : Records W) (scope : Scope) (before after : W) : Prop :=
  ∀ lease ∈ scope.leases,
    records.opened after lease.2.connection =
        records.opened before lease.2.connection ∧
      records.filed after lease.2.item = records.filed before lease.2.item

/-- The variables of the module and the connections in use are as they were. -/
structure Undisturbed (records : Records W) (scope : Scope)
    (before after : St W) : Prop where
  same : ∀ name, Internal name →
    bindings name after.contexts = bindings name before.contexts
  kept : Keeps records scope before.world after.world

/-- The variables and the connections are those of the enclosing tags. -/
structure Inside (dcl : Dcl) (records : Records W) (scope : Scope)
    (state : St W) : Prop where
  chain : state.contexts ≠ []
  database : ∀ id, Chain.getValue (databaseName id) state.contexts =
    (scope.opened id).elim [] fun opened =>
      dcl.toStringPtr opened.2.connection
  work : Chain.getValue workHandle state.contexts =
    scope.works.head?.elim [] fun begun => dcl.toStringPtr begun.2
  outermost : ∀ id, (scope.opened id).map Prod.fst = scope.outermost id
  opened : ∀ lease ∈ scope.leases,
    records.opened state.world lease.2.connection = some lease.1
  filed : ∀ lease ∈ scope.leases,
    records.filed state.world lease.2.item = some lease.1
  works : (scope.works.map Prod.snd).Nodup

/-- A database tag has entered its layer, in which the variable of its own id
may be bound. -/
structure InLayer (dcl : Dcl) (records : Records W) (scope : Scope)
    (id dsn : Str) (item : Nat) (state : St W) : Prop where
  inside : Inside dcl records scope state.dropLayer
  fresh : scope.opened id = none
  layer : ∃ layer,
    state.contexts = Chain.withLayer layer state.dropLayer.contexts ∧
      ∀ name, Internal name → upName name ≠ upName (databaseName id) →
        layer.lookup (upName name) = none
  filed : records.filed state.world item = some dsn

section Invariant

variable {dcl : Dcl} {records : Records W} {scope : Scope} {id dsn : Str}
  {item : Nat} {before middle after : St W}

theorem Keeps.refl (world : W) : Keeps records scope world world :=
  fun _ _ => ⟨rfl, rfl⟩

theorem Keeps.trans {first second third : W}
    (one : Keeps records scope first second)
    (two : Keeps records scope second third) :
    Keeps records scope first third :=
  fun lease member =>
    ⟨(two lease member).1.trans (one lease member).1,
      (two lease member).2.trans (one lease member).2⟩

theorem Keeps.tail {frame : Frame} {first second : W}
    (keeps : Keeps records (frame :: scope) first second) :
    Keeps records scope first second := by
  intro lease member
  apply keeps
  unfold Scope.leases at member ⊢
  rw [List.filterMap_cons]
  cases frame.leased with
  | none => exact member
  | some own => exact List.mem_cons_of_mem _ member

theorem Undisturbed.refl (state : St W) :
    Undisturbed records scope state state :=
  ⟨fun _ _ => rfl, Keeps.refl _⟩

/-- The library may do anything that keeps the connections in use. -/
theorem Undisturbed.world {state : St W} {world : W}
    (kept : Keeps records scope state.world world) :
    Undisturbed records scope state { state with world } :=
  ⟨fun _ _ => rfl, kept⟩

theorem Undisturbed.trans (first : Undisturbed records scope before middle)
    (second : Undisturbed records scope middle after) :
    Undisturbed records scope before after :=
  ⟨fun name internal =>
      (second.same name internal).trans (first.same name internal),
    first.kept.trans second.kept⟩

/-- A layer that is left again is no disturbance. -/
theorem Undisturbed.dropLayer {layer : Vars}
    (same : Undisturbed records scope (before.withLayer layer) after) :
    Undisturbed records scope before after.dropLayer :=
  ⟨fun name internal => bindings_left (same.same name internal), same.kept⟩

theorem Inside.undisturbed (inside : Inside dcl records scope before)
    (same : Undisturbed records scope before after) :
    Inside dcl records scope after := by
  constructor
  · exact chain_of_bindings (same.same _ .work) inside.chain
  · intro other
    exact (getValue_of_bindings (same.same _ (.database other))).trans
      (inside.database other)
  · exact (getValue_of_bindings (same.same _ .work)).trans inside.work
  · exact inside.outermost
  · intro lease member
    exact (same.kept lease member).1.trans (inside.opened lease member)
  · intro lease member
    exact (same.kept lease member).2.trans (inside.filed lease member)
  · exact inside.works

theorem Inside.withLayer (inside : Inside dcl records scope before) :
    Inside dcl records scope (before.withLayer ∅) := by
  have chain := inside.chain
  have plain (name : Str) :
      Chain.getValue name (before.withLayer ∅).contexts =
        Chain.getValue name before.contexts := by
    rw [St.withLayer, Chain.getValue_withLayer _ _ chain]
    rfl
  constructor
  · obtain ⟨context, parents, split⟩ := List.exists_cons_of_ne_nil chain
    simp [St.withLayer, Chain.withLayer, split]
  · exact fun other => (plain _).trans (inside.database other)
  · exact (plain _).trans inside.work
  · exact inside.outermost
  · exact inside.opened
  · exact inside.filed
  · exact inside.works

end Invariant

/-! ## Runs -/

/-- Where a program runs: inside of the enclosing tags, or in the layer of a
database tag, where it is one attempt or the loop that leaves the layer, or in
a query that has found its connection, where it fetches the rows or executes the
statement in a transaction. -/
inductive Place where
  | inside (scope : Scope)
  | attempt (scope : Scope) (id dsn : Str) (item : Nat)
  | loop (scope : Scope) (id dsn : Str) (item : Nat)
  | query (scope : Scope) (id : Str) (connection : Nat) (pointer : Str)
  | statement (scope : Scope) (id : Str) (connection : Nat)
      (transaction : Transaction)

/-- The connection is the one of the outermost database tag with the id up to
case. -/
def Serves (scope : Scope) (id : Str) (connection : Nat) : Prop :=
  ∃ lease ∈ scope.leases,
    scope.outermost id = some lease.1 ∧ lease.2.connection = connection

/-- What the variable of the innermost transaction holds. -/
def workPointer (dcl : Dcl) (scope : Scope) : Str :=
  scope.works.head?.elim [] fun begun => dcl.toStringPtr begun.2

/-- What a program finds at its place. -/
def Starts (dcl : Dcl) (records : Records W) : Place → St W → Prop
  | .inside scope, state => Inside dcl records scope state
  | .attempt scope id dsn item, state | .loop scope id dsn item, state =>
      InLayer dcl records scope id dsn item state
  | .query scope id connection pointer, state =>
      Inside dcl records scope state ∧ Serves scope id connection ∧
        pointer = workPointer dcl scope
  | .statement scope id connection transaction, state =>
      Inside dcl records scope state ∧ Serves scope id connection ∧
        Executes connection (transaction.calls connection)
          (scope.works.head?.map Prod.snd)

/-- What a program leaves at its place. -/
def Kept (dcl : Dcl) (records : Records W) : Place → St W → St W → Prop
  | .inside scope, before, after | .query scope _ _ _, before, after
  | .statement scope _ _ _, before, after =>
      Undisturbed records scope before after
  | .attempt scope id dsn item, before, after =>
      Undisturbed records scope before.dropLayer after.dropLayer ∧
        InLayer dcl records scope id dsn item after
  | .loop scope _ _ _, before, after =>
      Undisturbed records scope before.dropLayer after

/-- The rows of a result. -/
abbrev Rows := List (List (Str × PgsqlField))

/-- What a query does with its rows. -/
def deliver (interp : Interp W) (self : Loc) (caller : Option Loc)
    (rows : Rows) : M W Unit := do
  let stem ← interp.getParameter self "prefix"
  Prog.forEach (fun row =>
      executeRow interp self caller
        (row.map fun field => (stem ++ field.1, TagQuery.columnText field.2)))
    rows

/-- The state in which the children of a transaction tag are executed. -/
def working (dcl : Dcl) (work : Nat) (asked : St W) (world : W) : St W :=
  { asked.withLayer ((∅ : Vars).insert (upName workHandle)
      (dcl.toStringPtr work)) with world }

/-- How a transaction ends when its children have come to an end. -/
inductive Finishes (api : PgsqlApi W) (work : Nat) :
    Outcome Exc Unit → W → Outcome Exc Unit → W → Prop where
  | committed {world after : W}
      (commits : api.commit work world = (after, .value ())) :
      Finishes api work (.value ()) world (.value ()) after
  | refused {world after : W} {exception : Exc}
      (commits : api.commit work world = (after, .error exception)) :
      Finishes api work (.value ()) world (.error exception)
        (api.abort work after)
  | aborted {world : W} {exception : Exc} :
      Finishes api work (.error exception) world (.error exception)
        (api.abort work world)

/-- The exception a query raises in place of one of the library or of a
parameter. -/
def rewrapped (exception : Exc) : Exc :=
  if exception.isStd then .dbp exception.what else exception

/-- The world when a query has handled an exception in its own transaction. -/
def cleaned (api : PgsqlApi W) (work : Nat) (exception : Exc) (world : W) : W :=
  if exception.isStd then api.abort work world else world

/-- How the transaction of a query's own ends. -/
inductive Ends (api : PgsqlApi W) (work : Nat) :
    Outcome Exc Rows → W → Outcome Exc Rows → W → Prop where
  | committed {rows : Rows} {world after : W}
      (commits : api.commit work world = (after, .value ())) :
      Ends api work (.value rows) world (.value rows) after
  | refused {rows : Rows} {world after : W} {exception : Exc}
      (commits : api.commit work world = (after, .error exception)) :
      Ends api work (.value rows) world (.error (rewrapped exception))
        (cleaned api work exception after)
  | raised {world : W} {exception : Exc} :
      Ends api work (.error exception) world (.error (rewrapped exception))
        (cleaned api work exception world)

/-- A tag of the module finds a connection for the id. -/
structure Finds (dcl : Dcl) (id : Str) (connection : Nat) (asked : St W) :
    Prop where
  filled : Chain.getValue (databaseName id) asked.contexts ≠ []
  read : dcl.fromStringPtr (Chain.getValue (databaseName id) asked.contexts) =
    some connection

/-- The runs inside of pgsql tags, with the statements executed in them.
Everything else computes in any way that leaves the variables of the module and
the connections in use alone and executes no statement. -/
inductive Runs (outside : Outside W) (records : Records W) : Place →
    {α : Type} → M W α → St W → List Happening → St W → Outcome Exc α →
    Prop where
  | aside {α : Type} {place : Place} {program : M W α} {state final : St W}
      {out : Str} {outcome : Outcome Exc α}
      (ran : program state = ⟨final, out, outcome⟩)
      (kept : Kept outside.dcl records place state final)
      (quiet : records.executed final.world = records.executed state.world) :
      Runs outside records place program state [] final outcome
  | unstated {scope : Scope} {interp : Interp W} {self : Loc}
      {state final : St W} {id : Str} {connection : Nat}
      {transaction : Transaction} {happened : List Happening} {exception : Exc}
      (stating : Runs outside records (.inside scope)
        (interp.getParameter self "statement") state happened final
        (.error exception)) :
      Runs outside records (.statement scope id connection transaction)
        (TagQuery.run interp self connection transaction.work) state happened
        final (.error exception)
  | unprepared {scope : Scope} {interp : Interp W} {self : Loc}
      {state stated : St W} {id text statement : Str} {connection : Nat}
      {transaction : Transaction} {names : List Str} {world : W}
      {happened : List Happening} {exception : Exc}
      (served : interp.outside = outside)
      (stating : Runs outside records (.inside scope)
        (interp.getParameter self "statement") state happened stated
        (.value text))
      (parsed : TagQuery.parse outside.dcl text = some (statement, names))
      (prepares : outside.pgsql.prepare connection transaction.work statement
        stated.world = (world, .error exception))
      (kept : Keeps records scope stated.world world) :
      Runs outside records (.statement scope id connection transaction)
        (TagQuery.run interp self connection transaction.work) state happened
        { stated with world } (.error exception)
  | unpassed {scope : Scope} {interp : Interp W} {self : Loc}
      {state stated final : St W} {id text statement : Str} {connection : Nat}
      {transaction : Transaction} {names : List Str} {world : W}
      {happened more : List Happening} {exception : Exc}
      (served : interp.outside = outside)
      (stating : Runs outside records (.inside scope)
        (interp.getParameter self "statement") state happened stated
        (.value text))
      (parsed : TagQuery.parse outside.dcl text = some (statement, names))
      (prepares : outside.pgsql.prepare connection transaction.work statement
        stated.world = (world, .value ()))
      (kept : Keeps records scope stated.world world)
      (passing : Runs outside records (.inside scope)
        (interp.getParameter self "parameters") { stated with world } more final
        (.error exception)) :
      Runs outside records (.statement scope id connection transaction)
        (TagQuery.run interp self connection transaction.work) state
        (happened ++ more) final (.error exception)
  | executed {scope : Scope} {interp : Interp W} {self : Loc}
      {state stated passed : St W} {id text statement values : Str}
      {connection : Nat} {transaction : Transaction} {names : List Str}
      {bound : List (Option Str)} {world after : W}
      {happened more : List Happening} {outcome : Outcome Exc Rows}
      (served : interp.outside = outside)
      (stating : Runs outside records (.inside scope)
        (interp.getParameter self "statement") state happened stated
        (.value text))
      (parsed : TagQuery.parse outside.dcl text = some (statement, names))
      (prepares : outside.pgsql.prepare connection transaction.work statement
        stated.world = (world, .value ()))
      (kept : Keeps records scope stated.world world)
      (passing : Runs outside records (.inside scope)
        (interp.getParameter self "parameters") { stated with world } more
        passed (.value values))
      (binds : TagQuery.values names (outside.dcl.tokens values) passed =
        ⟨passed, [], .value bound⟩)
      (executes : outside.pgsql.exec transaction.work bound passed.world =
        (after, outcome)) (left : Keeps records scope passed.world after) :
      Runs outside records (.statement scope id connection transaction)
        (TagQuery.run interp self connection transaction.work) state
        (happened ++ (more ++ [.query scope id connection
          (records.opened passed.world connection)
          (transaction.calls connection)]))
        { passed with world := after } outcome
  | enclosed {scope : Scope} {interp : Interp W} {self : Loc}
      {state final : St W} {id pointer : Str} {connection work : Nat}
      {happened : List Happening} {rows : Rows}
      (served : interp.outside = outside) (filled : pointer ≠ [])
      (read : outside.dcl.fromStringPtr pointer = some work)
      (sends : Runs outside records
        (.statement scope id connection (.enclosing work))
        (TagQuery.run interp self connection work) state happened final
        (.value rows)) :
      Runs outside records (.query scope id connection pointer)
        (TagQuery.fetch interp self connection pointer) state happened final
        (.value rows)
  | enclosedFails {scope : Scope} {interp : Interp W} {self : Loc}
      {state final : St W} {id pointer : Str} {connection work : Nat}
      {happened : List Happening} {exception : Exc}
      (served : interp.outside = outside) (filled : pointer ≠ [])
      (read : outside.dcl.fromStringPtr pointer = some work)
      (sends : Runs outside records
        (.statement scope id connection (.enclosing work))
        (TagQuery.run interp self connection work) state happened final
        (.error exception)) :
      Runs outside records (.query scope id connection pointer)
        (TagQuery.fetch interp self connection pointer) state happened final
        (.error (rewrapped exception))
  | own {scope : Scope} {interp : Interp W} {self : Loc} {state sent : St W}
      {id : Str} {connection work : Nat} {world after : W}
      {happened : List Happening} {how outcome : Outcome Exc Rows}
      (served : interp.outside = outside)
      (begins : outside.pgsql.work connection state.world =
        (world, .value work)) (kept : Keeps records scope state.world world)
      (sends : Runs outside records (.statement scope id connection (.own work))
        (TagQuery.run interp self connection work) { state with world } happened
        sent how)
      (ends : Ends outside.pgsql work how sent.world outcome after)
      (left : Keeps records scope sent.world after) :
      Runs outside records (.query scope id connection [])
        (TagQuery.fetch interp self connection []) state happened
        { sent with world := after } outcome
  | refused {scope : Scope} {interp : Interp W} {self : Loc} {state : St W}
      {id : Str} {connection : Nat} {world : W} {exception : Exc}
      (served : interp.outside = outside)
      (begins : outside.pgsql.work connection state.world =
        (world, .error exception))
      (kept : Keeps records scope state.world world) :
      Runs outside records (.query scope id connection [])
        (TagQuery.fetch interp self connection []) state [] { state with world }
        (.error (rewrapped exception))
  | query {scope : Scope} {interp : Interp W} {self : Loc} {caller : Option Loc}
      {state asked answered final : St W} {id : Str} {connection : Nat}
      {earlier happened later : List Happening} {rows : Rows}
      {outcome : Outcome Exc Unit} (served : interp.outside = outside)
      (asking : Runs outside records (.inside scope)
        (interp.getParameter self "database") state earlier asked (.value id))
      (finds : Finds outside.dcl id connection asked)
      (fetching : Runs outside records
        (.query scope id connection (Chain.getValue workHandle asked.contexts))
        (TagQuery.fetch interp self connection
          (Chain.getValue workHandle asked.contexts)) asked happened answered
        (.value rows))
      (delivering : Runs outside records (.inside scope)
        (deliver interp self caller rows) answered later final outcome) :
      Runs outside records (.inside scope)
        (TagQuery.execute interp self caller) state
        (earlier ++ (happened ++ later)) final outcome
  | queryFails {scope : Scope} {interp : Interp W} {self : Loc}
      {caller : Option Loc} {state asked final : St W} {id : Str}
      {connection : Nat} {earlier happened : List Happening} {exception : Exc}
      (served : interp.outside = outside)
      (asking : Runs outside records (.inside scope)
        (interp.getParameter self "database") state earlier asked (.value id))
      (finds : Finds outside.dcl id connection asked)
      (fetching : Runs outside records
        (.query scope id connection (Chain.getValue workHandle asked.contexts))
        (TagQuery.fetch interp self connection
          (Chain.getValue workHandle asked.contexts)) asked happened final
        (.error exception)) :
      Runs outside records (.inside scope)
        (TagQuery.execute interp self caller) state (earlier ++ happened) final
        (.error exception)
  | transaction {scope : Scope} {interp : Interp W} {self : Loc}
      {caller : Option Loc} {state asked last : St W} {id : Str}
      {connection work : Nat} {world after : W}
      {earlier happened : List Happening} {how outcome : Outcome Exc Unit}
      (served : interp.outside = outside)
      (asking : Runs outside records (.inside scope)
        (interp.getParameter self "database") state earlier asked (.value id))
      (finds : Finds outside.dcl id connection asked)
      (begins : outside.pgsql.work connection asked.world =
        (world, .value work)) (fresh : work ∉ scope.works.map Prod.snd)
      (kept : Keeps records scope asked.world world)
      (chain : asked.contexts ≠ [])
      (body : Runs outside records (.inside (.transaction id work :: scope))
        (interp.executeChilds self caller)
        (working outside.dcl work asked world) happened last how)
      (layered : last.Layered)
      (finishes : Finishes outside.pgsql work how last.world outcome after)
      (left : Keeps records scope last.world after) :
      Runs outside records (.inside scope)
        (TagTransaction.execute interp self caller) state (earlier ++ happened)
        { last.dropLayer with world := after } outcome
  | nested {scope : Scope} {interp : Interp W} {self : Loc}
      {caller : Option Loc} {state named asked final : St W} {id dsn : Str}
      {first second happened : List Happening} {outcome : Outcome Exc Unit}
      (served : interp.outside = outside)
      (naming : Runs outside records (.inside scope)
        (interp.getParameter self "dsn") state first named (.value dsn))
      (asking : Runs outside records (.inside scope)
        (interp.getParameter self "id") named second asked (.value id))
      (filled : dsn ≠ [])
      (bound : Chain.getValue (databaseName id) asked.contexts ≠ [])
      (body : Runs outside records (.inside (.database id dsn none :: scope))
        (interp.executeChilds self caller) asked happened final outcome) :
      Runs outside records (.inside scope)
        (TagDatabase.execute interp self caller) state
        (first ++ (second ++ happened)) final outcome
  | opens {scope : Scope} {interp : Interp W} {self : Loc}
      {caller : Option Loc} {state named asked final : St W} {id dsn : Str}
      {item : Nat} {world : W} {first second happened : List Happening}
      {outcome : Outcome Exc Unit} (served : interp.outside = outside)
      (naming : Runs outside records (.inside scope)
        (interp.getParameter self "dsn") state first named (.value dsn))
      (asking : Runs outside records (.inside scope)
        (interp.getParameter self "id") named second asked (.value id))
      (filled : dsn ≠ [])
      (unbound : Chain.getValue (databaseName id) asked.contexts = [])
      (acquires : outside.pgsql.acquire dsn asked.world = (world, .value item))
      (kept : Keeps records scope asked.world world)
      (loops : Runs outside records (.loop scope id dsn item)
        (TagDatabase.loop interp self caller dsn item 3)
        { asked.withLayer ∅ with world } happened final outcome) :
      Runs outside records (.inside scope)
        (TagDatabase.execute interp self caller) state
        (first ++ (second ++ happened)) final outcome
  | attempt {scope : Scope} {interp : Interp W} {self : Loc}
      {caller : Option Loc} {state asked started last : St W} {id dsn : Str}
      {item connection : Nat} {world : W} {happened : List Happening}
      {how : Outcome Exc Unit} (served : interp.outside = outside)
      (connects : TagDatabase.connect interp dsn item state =
        ⟨{ state with world }, [], .value connection⟩)
      (kept : Keeps records scope state.world world)
      (given : interp.getParameter self "id" { state with world } =
        ⟨asked, [], .value id⟩)
      (same : Undisturbed records
        (.database id dsn (some ⟨item, connection⟩) :: scope)
        { state with world } asked)
      (quiet : records.executed asked.world = records.executed world)
      (publishes : M.addValue interp.dcl (databaseName id)
        (interp.dcl.toStringPtr connection) asked = ⟨started, [], .value ()⟩)
      (layered : last.Layered)
      (body : Runs outside records
        (.inside (.database id dsn (some ⟨item, connection⟩) :: scope))
        (interp.executeChilds self caller) started happened last how) :
      Runs outside records (.attempt scope id dsn item)
        (TagDatabase.attempt interp self caller dsn item) state happened last
        how
  | returns {scope : Scope} {interp : Interp W} {self : Loc}
      {caller : Option Loc} {state last : St W} {id dsn : Str}
      {item attempts : Nat} {happened : List Happening}
      (tried : Runs outside records (.attempt scope id dsn item)
        (TagDatabase.attempt interp self caller dsn item) state happened last
        (.value ())) (layered : last.Layered) :
      Runs outside records (.loop scope id dsn item)
        (TagDatabase.loop interp self caller dsn item (attempts + 1)) state
        happened last.dropLayer (.value ())
  | gives {scope : Scope} {interp : Interp W} {self : Loc}
      {caller : Option Loc} {state last : St W} {id dsn : Str}
      {item attempts : Nat} {happened : List Happening} {exception : Exc}
      (tried : Runs outside records (.attempt scope id dsn item)
        (TagDatabase.attempt interp self caller dsn item) state happened last
        (.error exception)) (other : exception.cls ≠ .brokenConnection)
      (layered : last.Layered) :
      Runs outside records (.loop scope id dsn item)
        (TagDatabase.loop interp self caller dsn item (attempts + 1)) state
        happened last.dropLayer (.error exception)
  | breaks {scope : Scope} {interp : Interp W} {self : Loc}
      {caller : Option Loc} {state last final : St W} {id dsn : Str}
      {item : Nat} {happened : List Happening} {exception : Exc} {out : Str}
      {outcome : Outcome Exc Unit}
      (tried : Runs outside records (.attempt scope id dsn item)
        (TagDatabase.attempt interp self caller dsn item) state happened last
        (.error exception)) (broken : exception.cls = .brokenConnection)
      (gives : TagDatabase.giveUp interp item exception last =
        ⟨final, out, outcome⟩)
      (kept : Undisturbed records scope last.dropLayer final)
      (quiet : records.executed final.world = records.executed last.world) :
      Runs outside records (.loop scope id dsn item)
        (TagDatabase.loop interp self caller dsn item 1) state happened final
        outcome
  | again {scope : Scope} {interp : Interp W} {self : Loc}
      {caller : Option Loc} {state last later final : St W} {id dsn : Str}
      {item attempts : Nat} {happened more : List Happening} {exception : Exc}
      {outcome : Outcome Exc Unit}
      (tried : Runs outside records (.attempt scope id dsn item)
        (TagDatabase.attempt interp self caller dsn item) state happened last
        (.error exception)) (broken : exception.cls = .brokenConnection)
      (announces : TagDatabase.announce interp item exception last =
        ⟨later, [], .value ()⟩)
      (kept : Keeps records scope last.world later.world)
      (filed : records.filed later.world item = records.filed last.world item)
      (quiet : records.executed later.world = records.executed last.world)
      (rest : Runs outside records (.loop scope id dsn item)
        (TagDatabase.loop interp self caller dsn item (attempts + 1)) later more
        final outcome) :
      Runs outside records (.loop scope id dsn item)
        (TagDatabase.loop interp self caller dsn item (attempts + 2)) state
        (happened ++ more) final outcome
  | leaks {scope : Scope} {interp : Interp W} {self : Loc}
      {caller : Option Loc} {state last later : St W} {id dsn : Str}
      {item attempts : Nat} {happened : List Happening}
      {exception raised : Exc}
      (tried : Runs outside records (.attempt scope id dsn item)
        (TagDatabase.attempt interp self caller dsn item) state happened last
        (.error exception)) (broken : exception.cls = .brokenConnection)
      (announces : TagDatabase.announce interp item exception last =
        ⟨later, [], .error raised⟩)
      (quiet : records.executed later.world = records.executed last.world) :
      Runs outside records (.loop scope id dsn item)
        (TagDatabase.loop interp self caller dsn item (attempts + 2)) state
        (happened ++ [.leaked]) later (.error raised)
  | layer {α : Type} {scope : Scope} {program : M W α} {state last : St W}
      {happened : List Happening} {outcome : Outcome Exc α}
      (body : Runs outside records (.inside scope) program
        (state.withLayer ∅) happened last outcome)
      (finished : outcome.Finished) (layered : last.Layered) :
      Runs outside records (.inside scope) (M.withLayer program) state happened
        last.dropLayer outcome
  | next {α β : Type} {scope : Scope} {program : M W α} {rest : α → M W β}
      {state middle final : St W} {first second : List Happening} {result : α}
      {outcome : Outcome Exc β}
      (before : Runs outside records (.inside scope) program state first middle
        (.value result))
      (after : Runs outside records (.inside scope) (rest result) middle second
        final outcome) :
      Runs outside records (.inside scope) (program >>= rest) state
        (first ++ second) final outcome
  | raises {α β : Type} {scope : Scope} {program : M W α} {rest : α → M W β}
      {state final : St W} {happened : List Happening} {exception : Exc}
      (before : Runs outside records (.inside scope) program state happened
        final (.error exception)) :
      Runs outside records (.inside scope) (program >>= rest) state happened
        final (.error exception)
  | caught {α : Type} {scope : Scope} {program : M W α}
      {handler : Exc → M W α} {state middle final : St W}
      {first second : List Happening} {exception : Exc}
      {outcome : Outcome Exc α}
      (body : Runs outside records (.inside scope) program state first middle
        (.error exception))
      (handled : Runs outside records (.inside scope) (handler exception) middle
        second final outcome) :
      Runs outside records (.inside scope) (Prog.tryCatch program handler)
        state (first ++ second) final outcome
  | same {α : Type} {place : Place} {program other : M W α} {state final : St W}
      {happened : List Happening} {out : Str} {outcome : Outcome Exc α}
      (runs : Runs outside records place program state happened final outcome)
      (ran : other state = ⟨final, out, outcome⟩) :
      Runs outside records place other state happened final outcome

section Proofs

variable {outside : Outside W} {records : Records W} {place : Place}
  {scope : Scope} {interp : Interp W} {self : Loc} {caller : Option Loc}
  {state named asked last final : St W} {id dsn : Str}
  {item connection work attempts : Nat} {world after : W}
  {happened : List Happening} {how outcome : Outcome Exc Unit}
  {exception : Exc} {out : Str}

/-! ## The programs of the tags -/

theorem leads_io {α : Type} {operation : Io W α} {result : Outcome Exc α}
    (answers : operation state.world = (world, result)) :
    (M.io operation).Leads state { state with world } result :=
  ⟨[], M.io_eq answers⟩

theorem leads_rewrap {α : Type} {body : M W α} {cleanup : M W Unit}
    (raised : body.Leads state last (.error exception))
    (cleans : exception.isStd = true → cleanup last = ⟨final, [], .value ()⟩)
    (stays : exception.isStd = false → final = last) :
    (rewrap body cleanup).Leads state final (.error (rewrapped exception)) := by
  refine raised.caught ⟨[], ?_⟩
  unfold rewrapped
  cases std : exception.isStd with
  | true => exact Prog.bind_silent (cleans std) _
  | false =>
      rw [stays std]
      rfl

theorem Finds.databasePointer (finds : Finds interp.dcl id connection asked)
    (given : (interp.getParameter self "database").Leads state asked
      (.value id)) :
    (databasePointer interp self databaseHandle).Leads state asked
      (.value connection) := by
  refine given.bind ⟨[], ?_⟩
  have filled : (Chain.getValue (databaseName id) asked.contexts).isEmpty =
      false := by
    simpa using finds.filled
  have read : M.getValue (databaseHandle.toList ++ id) asked =
      ⟨asked, [], .value (Chain.getValue (databaseName id) asked.contexts)⟩ :=
    rfl
  rw [Prog.bind_silent read, filled]
  change M.pointer interp.dcl _ asked = _
  rw [M.pointer, finds.read]
  rfl

section Query

variable {stated passed sent answered : St W} {text statement values : Str}
  {names : List Str} {bound : List (Option Str)} {pointer : Str} {rows : Rows}
  {fetched : Outcome Exc Rows}

section Statement

variable (stating : (interp.getParameter self "statement").Leads state stated
    (.value text))
  (parsed : TagQuery.parse interp.dcl text = some (statement, names))

include stating parsed

/-- The program of a statement from where it is parsed. -/
theorem run_parsed (rest : (do
      M.io (interp.outside.pgsql.prepare connection work statement)
      let passed ← interp.getParameter self "parameters"
      let bound ← TagQuery.values names (interp.dcl.tokens passed)
      M.io (interp.outside.pgsql.exec work bound)).Leads stated final fetched) :
    (TagQuery.run interp self connection work).Leads state final fetched := by
  refine stating.bind ?_
  rw [parsed]
  exact rest

theorem run_unprepared
    (prepares : interp.outside.pgsql.prepare connection work statement
      stated.world = (world, .error exception)) :
    (TagQuery.run interp self connection work).Leads state
      { stated with world } (.error exception) :=
  run_parsed stating parsed (leads_io prepares).raise

variable (prepares : interp.outside.pgsql.prepare connection work statement
  stated.world = (world, .value ()))

include prepares

theorem run_unpassed
    (passing : (interp.getParameter self "parameters").Leads
      { stated with world } final (.error exception)) :
    (TagQuery.run interp self connection work).Leads state final
      (.error exception) :=
  run_parsed stating parsed ((leads_io prepares).bind passing.raise)

theorem run_executed
    (passing : (interp.getParameter self "parameters").Leads
      { stated with world } passed (.value values))
    (binds : TagQuery.values names (interp.dcl.tokens values) passed =
      ⟨passed, [], .value bound⟩)
    (executes : interp.outside.pgsql.exec work bound passed.world =
      (after, fetched)) :
    (TagQuery.run interp self connection work).Leads state
      { passed with world := after } fetched := by
  have executed := leads_io executes
  have bounds : (do
      let bound ← TagQuery.values names (interp.dcl.tokens values)
      M.io (interp.outside.pgsql.exec work bound)).Leads passed
      { passed with world := after } fetched :=
    Prog.Leads.bind ⟨[], binds⟩ executed
  exact run_parsed stating parsed
    ((leads_io prepares).bind (passing.bind bounds))

end Statement

theorem fetch_enclosed (filled : pointer ≠ [])
    (read : interp.dcl.fromStringPtr pointer = some work)
    (ran : (rewrap (TagQuery.run interp self connection work) (pure ())).Leads
      state final fetched) :
    (TagQuery.fetch interp self connection pointer).Leads state final
      fetched := by
  have given : pointer.isEmpty = false := by simpa using filled
  have found : M.pointer interp.dcl pointer state =
      ⟨state, [], .value work⟩ := by
    rw [M.pointer, read]
    rfl
  unfold TagQuery.fetch
  rw [given]
  exact Prog.Leads.bind ⟨[], found⟩ ran

theorem fetch_refused
    (begins : interp.outside.pgsql.work connection state.world =
      (world, .error exception)) :
    (TagQuery.fetch interp self connection []).Leads state { state with world }
      (.error (rewrapped exception)) :=
  (leads_rewrap (leads_io begins) (fun _ => rfl) fun _ => rfl).raise

theorem leads_cleaned {body : M W Rows}
    (raised : body.Leads state sent (.error exception)) :
    (rewrap body (M.change (interp.outside.pgsql.abort work))).Leads state
      { sent with
        world := cleaned interp.outside.pgsql work exception sent.world }
      (.error (rewrapped exception)) := by
  unfold cleaned
  refine leads_rewrap raised (fun std => ?_) (fun std => ?_)
  · rw [if_pos std]
    rfl
  · rw [if_neg (by simp [std])]

theorem Ends.leads {answer : Outcome Exc Rows}
    (ends : Ends interp.outside.pgsql work fetched sent.world answer after)
    (ran : (TagQuery.run interp self connection work).Leads state sent
      fetched) :
    (rewrap
      (do
        let rows ← TagQuery.run interp self connection work
        M.io (interp.outside.pgsql.commit work)
        pure rows)
      (M.change (interp.outside.pgsql.abort work))).Leads state
      { sent with world := after } answer := by
  generalize world : sent.world = before at ends
  cases ends with
  | committed commits =>
      have committed := leads_io (world ▸ commits)
      exact (ran.bind (committed.bind ⟨[], rfl⟩)).tryCatch
  | @refused _ _ middle exception commits =>
      have refused := leads_io (world ▸ commits)
      have raised : (do
          let rows ← TagQuery.run interp self connection work
          M.io (interp.outside.pgsql.commit work)
          pure rows).Leads state { sent with world := middle }
          (.error exception) := ran.bind refused.raise
      exact leads_cleaned raised
  | raised =>
      rw [← world]
      exact leads_cleaned ran.raise

theorem fetch_own
    (begins : interp.outside.pgsql.work connection state.world =
      (world, .value work))
    (ran : (TagQuery.run interp self connection work).Leads
      { state with world } sent fetched) {answer : Outcome Exc Rows}
    (ends : Ends interp.outside.pgsql work fetched sent.world answer after) :
    (TagQuery.fetch interp self connection []).Leads state
      { sent with world := after } answer :=
  (leads_io begins).tryCatch.bind (ends.leads ran)

theorem Finds.query (finds : Finds interp.dcl id connection asked)
    (given : (interp.getParameter self "database").Leads state asked
      (.value id))
    (rest : (TagQuery.fetch interp self connection
        (Chain.getValue workHandle asked.contexts) >>=
      deliver interp self caller).Leads asked final outcome) :
    (TagQuery.execute interp self caller).Leads state final outcome :=
  (finds.databasePointer given).bind
    (Prog.Leads.bind ⟨[], M.getValue_eq workHandle asked⟩ rest)

end Query

theorem Finishes.leads {body : M W Unit} {start entered : St W}
    {program : M W Unit}
    (finishes : Finishes interp.outside.pgsql work how last.world outcome after)
    (enters : program start =
      (body >>= fun _ => M.io (interp.outside.pgsql.commit work)) entered)
    (ran : body.Leads entered last how) :
    (program.onError (M.change (interp.outside.pgsql.abort work))).Leads start
      { last with world := after } outcome := by
  generalize world : last.world = before at finishes
  cases finishes with
  | committed commits =>
      have committed := leads_io (world ▸ commits)
      exact ((ran.bind committed).congr enters).tryCatch
  | @refused _ middle exception commits =>
      have refused := leads_io (world ▸ commits)
      exact ((ran.bind refused).congr enters).caught ⟨[], rfl⟩
  | aborted =>
      rw [← world]
      exact (ran.raise.congr enters).caught ⟨[], rfl⟩

theorem Finds.transaction (finds : Finds interp.dcl id connection asked)
    (given : (interp.getParameter self "database").Leads state asked
      (.value id))
    (begins : interp.outside.pgsql.work connection asked.world =
      (world, .value work)) (chain : asked.contexts ≠ [])
    (ran : (interp.executeChilds self caller).Leads
      (working interp.dcl work asked world) last how)
    (layered : last.Layered)
    (finishes : Finishes interp.outside.pgsql work how last.world outcome
      after) :
    (TagTransaction.execute interp self caller).Leads state
      { last.dropLayer with world := after } outcome := by
  have added : M.addValue interp.dcl workHandle (interp.dcl.toStringPtr work)
      { asked.withLayer ∅ with world } =
      ⟨working interp.dcl work asked world, [], .value ()⟩ :=
    M.addValue_withLayer interp.dcl _ _ ∅ chain rfl
  have finished : outcome.Finished := by
    cases finishes <;> trivial
  have enters : (do
      M.addValue interp.dcl workHandle (interp.dcl.toStringPtr work)
      interp.executeChilds self caller
      M.io (interp.outside.pgsql.commit work))
        { asked.withLayer ∅ with world } =
      (interp.executeChilds self caller >>= fun _ =>
        M.io (interp.outside.pgsql.commit work))
        (working interp.dcl work asked world) := Prog.bind_silent added _
  obtain ⟨out, body⟩ := finishes.leads enters ran
  refine (finds.databasePointer given).bind ((leads_io begins).tryCatch.bind
    ⟨out, ?_⟩)
  exact @M.withLayer_finished W Unit _ { asked with world }
    { last with world := after } out outcome body finished layered

section Database

variable (naming : (interp.getParameter self "dsn").Leads state named
    (.value dsn))
  (given : (interp.getParameter self "id").Leads named asked (.value id))
  (filled : dsn ≠ [])

include naming given filled

theorem database_asked
    (rest : ((if !(Chain.getValue (databaseName id) asked.contexts).isEmpty then
        interp.executeChilds self caller
      else do
        let item ← M.io (interp.outside.pgsql.acquire dsn)
        M.enter
        TagDatabase.loop interp self caller dsn item 3)).Leads asked final
      outcome) :
    (TagDatabase.execute interp self caller).Leads state final outcome := by
  have full : dsn.isEmpty = false := by simpa using filled
  have passes : Prog.when dsn.isEmpty (Prog.throw (interp.dcl.exception
      "data source name (dsn) is not defined" [])) asked =
      (⟨asked, [], .value ()⟩ : Run (St W) Exc Char Unit) := by
    rw [full]
    rfl
  have read : M.getValue (databaseHandle.toList ++ id) asked =
      ⟨asked, [], .value (Chain.getValue (databaseName id) asked.contexts)⟩ :=
    rfl
  exact naming.bind (given.bind
    (Prog.Leads.bind ⟨[], passes⟩ (Prog.Leads.bind ⟨[], read⟩ rest)))

theorem database_nested
    (bound : Chain.getValue (databaseName id) asked.contexts ≠ [])
    (ran : (interp.executeChilds self caller).Leads asked final outcome) :
    (TagDatabase.execute interp self caller).Leads state final outcome := by
  apply database_asked naming given filled
  have there : (Chain.getValue (databaseName id) asked.contexts).isEmpty =
      false := by
    simpa using bound
  rw [there]
  exact ran

theorem database_opens
    (unbound : Chain.getValue (databaseName id) asked.contexts = [])
    (acquires : interp.outside.pgsql.acquire dsn asked.world =
      (world, .value item))
    (ran : (TagDatabase.loop interp self caller dsn item 3).Leads
      { asked.withLayer ∅ with world } final outcome) :
    (TagDatabase.execute interp self caller).Leads state final outcome := by
  apply database_asked naming given filled
  have entered : (M.enter : M W Unit) { asked with world } =
      ⟨{ asked.withLayer ∅ with world }, [], .value ()⟩ := rfl
  rw [unbound]
  exact (leads_io acquires).bind (Prog.Leads.bind ⟨[], entered⟩ ran)

end Database

namespace TagDatabase

variable {started later : St W} {raised : Exc}

theorem attempt_eq
    (connects : connect interp dsn item state =
      ⟨{ state with world }, [], .value connection⟩)
    (given : interp.getParameter self "id" { state with world } =
      ⟨asked, [], .value id⟩)
    (publishes : M.addValue interp.dcl (databaseName id)
      (interp.dcl.toStringPtr connection) asked = ⟨started, [], .value ()⟩)
    (ran : interp.executeChilds self caller started = ⟨last, out, how⟩) :
    attempt interp self caller dsn item state = ⟨last, out, how⟩ := by
  unfold attempt
  rw [Prog.bind_silent connects, Prog.bind_silent given]
  exact (Prog.bind_silent publishes _).trans ran

theorem loop_returns
    (ran : attempt interp self caller dsn item state = ⟨last, out, .value ()⟩)
    (layered : last.Layered) :
    loop interp self caller dsn item (attempts + 1) state =
      ⟨last.dropLayer, out, .value ()⟩ := by
  have body : (attempt interp self caller dsn item >>= fun _ => M.leave)
      state = ⟨last.dropLayer, out, .value ()⟩ := by
    rw [Prog.bind_eq ran, M.leave_eq layered, List.append_nil]
  rw [loop_succ, Prog.tryCatch_eq body]

section Raised

variable (ran : attempt interp self caller dsn item state =
  ⟨last, out, .error exception⟩)

include ran

theorem loop_gives (other : exception.cls ≠ .brokenConnection)
    (layered : last.Layered) :
    loop interp self caller dsn item (attempts + 1) state =
      ⟨last.dropLayer, out, .error exception⟩ := by
  have hands : (M.leave >>= fun _ => Prog.throw exception : M W Unit) last =
      ⟨last.dropLayer, [], .error exception⟩ :=
    Prog.bind_silent (M.leave_eq layered) _
  rw [loop_succ, Prog.tryCatch_error (Prog.bind_error ran _),
    if_neg (by simpa using other), hands, List.append_nil]

theorem loop_breaks (broken : exception.cls = .brokenConnection) {rest : Str}
    (gives : giveUp interp item exception last = ⟨final, rest, outcome⟩) :
    loop interp self caller dsn item 1 state =
      ⟨final, out ++ rest, outcome⟩ := by
  rw [loop_succ, Prog.tryCatch_error (Prog.bind_error ran _),
    if_pos (by simpa using broken), if_pos rfl, gives]

theorem loop_again (broken : exception.cls = .brokenConnection) {rest : Str}
    (announces : announce interp item exception last =
      ⟨later, [], .value ()⟩)
    (more : loop interp self caller dsn item (attempts + 1) later =
      ⟨final, rest, outcome⟩) :
    loop interp self caller dsn item (attempts + 2) state =
      ⟨final, out ++ rest, outcome⟩ := by
  rw [loop_succ, Prog.tryCatch_error (Prog.bind_error ran _),
    if_pos (by simpa using broken), if_neg (Nat.succ_ne_zero attempts),
    Prog.bind_silent announces, more]

theorem loop_leaks (broken : exception.cls = .brokenConnection)
    (announces : announce interp item exception last =
      ⟨later, [], .error raised⟩) :
    loop interp self caller dsn item (attempts + 2) state =
      ⟨later, out, .error raised⟩ := by
  rw [loop_succ, Prog.tryCatch_error (Prog.bind_error ran _),
    if_pos (by simpa using broken), if_neg (Nat.succ_ne_zero attempts),
    Prog.bind_error announces, List.append_nil]

end Raised

end TagDatabase

/-- Every run is the run of its program. -/
theorem Runs.leads {α : Type} {program : M W α} {outcome : Outcome Exc α}
    (runs : Runs outside records place program state happened final outcome) :
    program.Leads state final outcome := by
  induction runs with
  | aside ran _ _ => exact ⟨_, ran⟩
  | unstated _ stating => exact stating.raise
  | unprepared served _ parsed prepares _ stating =>
      subst served
      exact run_unprepared stating parsed prepares
  | unpassed served _ parsed prepares _ _ stating passing =>
      subst served
      exact run_unpassed stating parsed prepares passing
  | executed served _ parsed prepares _ _ binds executes _ stating passing =>
      subst served
      exact run_executed stating parsed prepares passing binds executes
  | enclosed served filled read _ sends =>
      subst served
      exact fetch_enclosed filled read sends.tryCatch
  | enclosedFails served filled read _ sends =>
      subst served
      exact fetch_enclosed filled read
        (leads_rewrap sends (fun _ => rfl) fun _ => rfl)
  | own served begins _ _ ends _ sends =>
      subst served
      exact fetch_own begins sends ends
  | refused served begins _ =>
      subst served
      exact fetch_refused begins
  | query served _ finds _ _ given fetching delivering =>
      subst served
      exact finds.query given (fetching.bind delivering)
  | queryFails served _ finds _ given fetching =>
      subst served
      exact finds.query given fetching.raise
  | transaction served _ finds begins _ _ chain _ layered finishes _ given
      body =>
      subst served
      exact finds.transaction given begins chain body layered finishes
  | nested served _ _ filled bound _ naming given body =>
      subst served
      exact database_nested naming given filled bound body
  | opens served _ _ filled unbound acquires _ _ naming given loops =>
      subst served
      exact database_opens naming given filled unbound acquires loops
  | attempt _ connects _ given _ _ publishes _ _ body =>
      obtain ⟨out, ran⟩ := body
      exact ⟨out, TagDatabase.attempt_eq connects given publishes ran⟩
  | returns _ layered tried =>
      obtain ⟨out, ran⟩ := tried
      exact ⟨out, TagDatabase.loop_returns ran layered⟩
  | gives _ other layered tried =>
      obtain ⟨out, ran⟩ := tried
      exact ⟨out, TagDatabase.loop_gives ran other layered⟩
  | breaks _ broken gives _ _ tried =>
      obtain ⟨out, ran⟩ := tried
      exact ⟨_, TagDatabase.loop_breaks ran broken gives⟩
  | again _ broken announces _ _ _ _ tried rest =>
      obtain ⟨out, ran⟩ := tried
      obtain ⟨more, others⟩ := rest
      exact ⟨_, TagDatabase.loop_again ran broken announces others⟩
  | leaks _ broken announces _ tried =>
      obtain ⟨out, ran⟩ := tried
      exact ⟨out, TagDatabase.loop_leaks ran broken announces⟩
  | layer _ finished layered body =>
      obtain ⟨out, ran⟩ := body
      exact ⟨out, M.withLayer_finished ran finished layered⟩
  | next _ _ first second => exact first.bind second
  | raises _ body => exact body.raise
  | caught _ _ first second => exact first.caught second
  | same _ ran _ => exact ⟨_, ran⟩

end Proofs

end DbPager.Pgsql
