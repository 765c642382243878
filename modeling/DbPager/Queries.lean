import DbPager.Databases
import DbPager.Template

/-!
# The connections of pgsql queries

Inside of nested database and transaction tags the variables of the module are
those of the enclosing tags.  So a query gets the connection of the outermost
database tag with its id, and the innermost transaction, whatever its id is.
-/

namespace DbPager.Pgsql

open Effect

variable {W : Type} {outside : Outside W} {records : Records W} {place : Place}
  {scope : Scope} {interp : Interp W} {self : Loc} {caller : Option Loc}
  {state asked last final : St W} {id dsn : Str}
  {item connection work : Nat} {world after : W}
  {happened : List Happening} {dcl : Dcl}

/-! ## What a query gets -/

theorem mem_leases {opened : Str × Lease}
    (found : scope.opened id = some opened) : opened ∈ scope.leases := by
  obtain ⟨frame, member, there⟩ := List.exists_of_findSome?_eq_some found
  refine List.mem_filterMap.mpr ⟨frame, member, ?_⟩
  cases frame with
  | transaction other work => cases there
  | database other dsn lease =>
      cases lease with
      | none => cases there
      | some lease =>
          change (if upName other = upName id then some (dsn, lease)
            else none) = some opened at there
          split at there
          · exact there
          · cases there

/-- A connection that is found is the one of the outermost database tag. -/
theorem Inside.serves (handles : Handles dcl)
    (inside : Inside dcl records scope asked)
    (finds : Finds dcl id connection asked) : Serves scope id connection := by
  obtain ⟨filled, read⟩ := finds
  rw [inside.database id] at filled read
  cases found : scope.opened id with
  | none =>
      rw [found] at filled
      exact absurd rfl filled
  | some opened =>
      rw [found] at read
      refine ⟨opened, mem_leases found, ?_, ?_⟩
      · rw [← inside.outermost id, found]
        rfl
      · exact Option.some.inj ((handles.read _).symm.trans read)

theorem Serves.opened (serves : Serves scope id connection)
    (inside : Inside dcl records scope asked) :
    ∃ given, scope.outermost id = some given ∧
      records.opened asked.world connection = some given := by
  obtain ⟨lease, member, outermost, rfl⟩ := serves
  exact ⟨lease.1, outermost, inside.opened lease member⟩

/-- A transaction that is found is the innermost one. -/
theorem executes_enclosing (handles : Handles dcl)
    (filled : workPointer dcl scope ≠ [])
    (read : dcl.fromStringPtr (workPointer dcl scope) = some work) :
    Executes connection ((Transaction.enclosing work).calls connection)
      (scope.works.head?.map Prod.snd) := by
  unfold workPointer at filled read
  cases found : scope.works.head? with
  | none =>
      rw [found] at filled
      exact absurd rfl filled
  | some begun =>
      rw [found] at read
      have same : begun.2 = work :=
        Option.some.inj ((handles.read _).symm.trans read)
      rw [← same]
      rfl

theorem executes_own (handles : Handles dcl)
    (free : [] = workPointer dcl scope) :
    Executes connection ((Transaction.own work).calls connection)
      (scope.works.head?.map Prod.snd) := by
  unfold workPointer at free
  cases found : scope.works.head? with
  | none => exact ⟨work, rfl⟩
  | some begun =>
      rw [found] at free
      exact absurd free.symm (handles.filled _)

/-! ## The state inside the tags -/

theorem Frame.named_of_ne {other : Str} {lease : Option Lease}
    (differs : upName id ≠ upName other) :
    (Frame.database id dsn lease).named other = none :=
  if_neg differs

theorem Scope.opened_congr {first second : Str}
    (same : upName first = upName second) :
    scope.opened first = scope.opened second := by
  have frames : Frame.opened first = Frame.opened second := by
    funext frame
    unfold Frame.opened
    rw [same]
  unfold Scope.opened
  rw [frames]

theorem Inside.nested (inside : Inside dcl records scope state)
    (bound : Chain.getValue (databaseName id) state.contexts ≠ []) :
    Inside dcl records (.database id dsn none :: scope) state := by
  refine ⟨inside.chain, inside.database, inside.work, ?_, inside.opened,
    inside.filed, inside.works⟩
  intro other
  have there := inside.outermost other
  refine there.trans ?_
  change scope.outermost other = (scope.outermost other).or _
  by_cases same : upName id = upName other
  · rw [← there, ← Scope.opened_congr same]
    rw [inside.database id] at bound
    cases found : scope.opened id with
    | none =>
        rw [found] at bound
        exact absurd rfl bound
    | some opened => rfl
  · rw [Frame.named_of_ne same, Option.or_none]

theorem Inside.working (inside : Inside dcl records scope asked)
    (kept : Keeps records scope asked.world world)
    (fresh : work ∉ scope.works.map Prod.snd) :
    Inside dcl records (.transaction id work :: scope)
      (working dcl work asked world) := by
  have chain := inside.chain
  constructor
  · obtain ⟨context, parents, split⟩ := List.exists_cons_of_ne_nil chain
    simp [Pgsql.working, St.withLayer, Chain.withLayer, split]
  · intro other
    refine (Chain.getValue_withLayer _ _ chain).trans ?_
    rw [AList.lookup_insert_ne (databaseName_ne_work other)]
    exact inside.database other
  · refine (Chain.getValue_withLayer _ _ chain).trans ?_
    rw [AList.lookup_insert]
    rfl
  · intro other
    exact (inside.outermost other).trans Option.or_none.symm
  · intro lease member
    exact (kept lease member).1.trans (inside.opened lease member)
  · intro lease member
    exact (kept lease member).2.trans (inside.filed lease member)
  · exact List.nodup_cons.mpr ⟨fresh, inside.works⟩

theorem dropLayer_entered (chain : asked.contexts ≠ []) :
    ({ asked.withLayer ∅ with world } : St W).dropLayer =
      { asked with world } := by
  obtain ⟨context, parents, split⟩ := List.exists_cons_of_ne_nil chain
  simp [St.dropLayer, St.mapHead, St.withLayer, Chain.withLayer, split,
    Context.dropLayer]

theorem Inside.entered (handles : Handles dcl)
    (inside : Inside dcl records scope asked)
    (unbound : Chain.getValue (databaseName id) asked.contexts = [])
    (kept : Keeps records scope asked.world world)
    (filed : records.filed world item = some dsn) :
    InLayer dcl records scope id dsn item
      { asked.withLayer ∅ with world } := by
  have left := @dropLayer_entered W asked world inside.chain
  have same : Undisturbed records scope asked { asked with world } :=
    ⟨fun _ _ => rfl, kept⟩
  constructor
  · rw [left]
    exact inside.undisturbed same
  · rw [inside.database id] at unbound
    cases found : scope.opened id with
    | none => rfl
    | some opened =>
        rw [found] at unbound
        exact absurd unbound (handles.filled _)
  · refine ⟨∅, ?_, fun name _ _ => rfl⟩
    rw [left]
    rfl
  · exact filed

theorem InLayer.undisturbed {before after : St W}
    (inLayer : InLayer dcl records scope id dsn item before)
    (same : ∀ name, Internal name →
      bindings name after.contexts = bindings name before.contexts)
    (layered : after.Layered)
    (kept : Keeps records scope before.world after.world)
    (filed : records.filed after.world item = some dsn) :
    Undisturbed records scope before.dropLayer after.dropLayer ∧
      InLayer dcl records scope id dsn item after := by
  obtain ⟨layer, contexts, own⟩ := inLayer.layer
  obtain ⟨other, others⟩ := exists_layer layered
  have apart (name : Str) (internal : Internal name) :
      bindings name (Chain.withLayer other after.dropLayer.contexts) =
        bindings name (Chain.withLayer layer before.dropLayer.contexts) := by
    rw [← contexts, ← others]
    exact same name internal
  have undisturbed : Undisturbed records scope before.dropLayer
      after.dropLayer := by
    refine ⟨fun name internal => ?_, kept⟩
    apply bindings_left
    rw [← contexts]
    exact same name internal
  refine ⟨undisturbed, inLayer.inside.undisturbed undisturbed, inLayer.fresh,
    ⟨other, others, ?_⟩, filed⟩
  intro name internal differs
  rw [lookup_of_bindings inLayer.inside.chain (apart name internal)]
  exact own name internal differs

theorem InLayer.layered
    (inLayer : InLayer dcl records scope id dsn item state) :
    state.Layered := by
  obtain ⟨layer, contexts, -⟩ := inLayer.layer
  obtain ⟨context, parents, split⟩ :=
    List.exists_cons_of_ne_nil inLayer.inside.chain
  rw [split] at contexts
  exact ⟨_, _, contexts, List.cons_ne_nil _ _⟩

/-- The variable of the id is bound to the connection in the layer of the
tag. -/
theorem InLayer.publishes {started : St W}
    (inLayer : InLayer dcl records scope id dsn item asked)
    (opened : records.opened asked.world connection = some dsn)
    (publishes : M.addValue dcl (databaseName id) (dcl.toStringPtr connection)
      asked = ⟨started, [], .value ()⟩) :
    started.dropLayer = asked.dropLayer ∧
      InLayer dcl records scope id dsn item started ∧
      Inside dcl records (.database id dsn (some ⟨item, connection⟩) :: scope)
        started := by
  obtain ⟨layer, contexts, own⟩ := inLayer.layer
  have inside := inLayer.inside
  have chain := inside.chain
  let filled := layer.insert (upName (databaseName id))
    (dcl.toStringPtr connection)
  have bound : started =
      { asked with
        contexts := Chain.withLayer filled asked.dropLayer.contexts } := by
    have added := M.addValue_withLayer dcl (databaseName id)
      (dcl.toStringPtr connection) layer chain contexts
    rw [publishes] at added
    exact congrArg Run.state added
  have left : started.dropLayer = asked.dropLayer := by
    rw [bound]
    obtain ⟨context, parents, split⟩ := List.exists_cons_of_ne_nil chain
    simp [St.dropLayer, St.mapHead] at split ⊢
    simp [split, Chain.withLayer, Context.dropLayer]
  have apart (name : Str) (internal : Internal name)
      (differs : upName name ≠ upName (databaseName id)) :
      Chain.getValue name started.contexts =
        Chain.getValue name asked.dropLayer.contexts := by
    rw [bound]
    refine (Chain.getValue_withLayer name filled chain).trans ?_
    rw [AList.lookup_insert_ne differs, own name internal differs]
    rfl
  have mine (other : Str) (same : upName id = upName other) :
      Scope.opened other
        (.database id dsn (some ⟨item, connection⟩) :: scope) =
        some (dsn, ⟨item, connection⟩) := by
    simp [Scope.opened, Frame.opened, same]
  have rest (other : Str) (differs : upName id ≠ upName other) :
      Scope.opened other
        (.database id dsn (some ⟨item, connection⟩) :: scope) =
        scope.opened other := by
    simp [Scope.opened, Frame.opened, differs]
  refine ⟨left, ⟨left ▸ inside, inLayer.fresh, ⟨filled, ?_, ?_⟩, ?_⟩, ?_⟩
  · rw [left, bound]
  · intro name internal differs
    exact (AList.lookup_insert_ne differs).trans (own name internal differs)
  · rw [bound]
    exact inLayer.filed
  · constructor
    · rw [bound]
      obtain ⟨context, parents, split⟩ := List.exists_cons_of_ne_nil chain
      simp [Chain.withLayer, split]
    · intro other
      by_cases same : upName id = upName other
      · have key : upName (databaseName other) = upName (databaseName id) :=
          upName_databaseName.mpr same.symm
        rw [mine other same, bound]
        refine (Chain.getValue_withLayer _ filled chain).trans ?_
        rw [key, AList.lookup_insert]
        rfl
      · rw [rest other same, apart _ (.database other)
          (fun equal => same (upName_databaseName.mp equal).symm)]
        exact inside.database other
    · rw [apart _ .work (databaseName_ne_work id).symm]
      exact inside.work
    · intro other
      change _ = (scope.outermost other).or _
      rw [← inside.outermost other]
      by_cases same : upName id = upName other
      · rw [mine other same, ← Scope.opened_congr same, inLayer.fresh]
        exact (if_pos same).symm
      · rw [rest other same, Frame.named_of_ne same, Option.or_none]
    · intro lease member
      rw [bound]
      rcases List.mem_cons.mp member with rfl | member
      · exact opened
      · exact inside.opened lease member
    · intro lease member
      rw [bound]
      rcases List.mem_cons.mp member with rfl | member
      · exact inLayer.filed
      · exact inside.filed lease member
    · exact inside.works

theorem connect_opens (laws : PoolLaws interp.outside.pgsql records)
    (filed : records.filed state.world item = some dsn)
    (connects : TagDatabase.connect interp dsn item state =
      ⟨{ state with world }, [], .value connection⟩) :
    records.filed world item = some dsn ∧
      records.opened world connection = some dsn := by
  rcases asked : interp.outside.pgsql.connection item state.world with
    ⟨middle, found | exception | reason⟩
  · have silent := M.io_eq asked
    unfold TagDatabase.connect at connects
    rw [Prog.bind_silent silent] at connects
    cases found with
    | some found =>
        cases connects
        exact laws.found filed asked
    | none =>
        have there := (laws.absent asked).trans filed
        rcases opened : interp.outside.pgsql.connect item dsn middle with
          ⟨after, outcome⟩
        have ran : M.io (interp.outside.pgsql.connect item dsn)
            { state with world := middle } =
            ⟨{ state with world := after }, [], outcome⟩ := M.io_eq opened
        have same := ran.symm.trans connects
        cases same
        exact laws.connected there opened
  · unfold TagDatabase.connect at connects
    rw [Prog.bind_error (M.io_eq asked)] at connects
    cases connects
  · unfold TagDatabase.connect at connects
    rw [Prog.bind_halt (M.io_eq asked)] at connects
    cases connects

/-! ## Queries in a run -/

/-- What the queries get, and that the program keeps to its place. -/
structure Follows (dcl : Dcl) (records : Records W) (place : Place)
    (happened : List Happening) (before after : St W) : Prop where
  gets : ∀ happening ∈ happened, happening.Gets
  kept : Kept dcl records place before after

section Follows

variable {first second : List Happening} {middle : St W}

theorem Follows.append
    (before : ∀ happening ∈ first, happening.Gets)
    (after : Follows dcl records place second state final) :
    Follows dcl records place (first ++ second) state final := by
  refine ⟨?_, after.kept⟩
  intro happening member
  rcases List.mem_append.mp member with member | member
  · exact before happening member
  · exact after.gets happening member

/-- One run behind the other. -/
theorem Follows.next
    (before : Follows dcl records (.inside scope) first state middle)
    (after : Follows dcl records (.inside scope) second middle final) :
    Follows dcl records (.inside scope) (first ++ second) state final :=
  .append before.gets ⟨after.gets, before.kept.trans after.kept⟩

end Follows

/-- The children of an attempt. -/
theorem Follows.attempt {started : St W}
    (laws : PoolLaws interp.outside.pgsql records)
    (inLayer : InLayer interp.dcl records scope id dsn item state)
    (connects : TagDatabase.connect interp dsn item state =
      ⟨{ state with world }, [], .value connection⟩)
    (kept : Keeps records scope state.world world)
    (same : Undisturbed records
      (.database id dsn (some ⟨item, connection⟩) :: scope)
      { state with world } asked)
    (publishes : M.addValue interp.dcl (databaseName id)
      (interp.dcl.toStringPtr connection) asked = ⟨started, [], .value ()⟩)
    (layered : last.Layered)
    (body : Inside interp.dcl records
        (.database id dsn (some ⟨item, connection⟩) :: scope) started →
      Follows interp.dcl records
        (.inside (.database id dsn (some ⟨item, connection⟩) :: scope)) happened
        started last) :
    Follows interp.dcl records (.attempt scope id dsn item) happened state
      last := by
  have own : (dsn, Lease.mk item connection) ∈ Scope.leases
      (.database id dsn (some ⟨item, connection⟩) :: scope) :=
    List.mem_cons_self
  obtain ⟨filed, opened⟩ := connect_opens laws inLayer.filed connects
  obtain ⟨openedThere, filedThere⟩ := same.kept _ own
  have there := inLayer.undisturbed same.same
    (layered_of_bindings (same.same _ .work) inLayer.layered)
    (kept.trans same.kept.tail) (filedThere.trans filed)
  obtain ⟨left, startedLayer, inside⟩ :=
    there.2.publishes (openedThere.trans opened) publishes
  have follows := body inside
  obtain ⟨-, filedLast⟩ := follows.kept.kept _ own
  have ended := startedLayer.undisturbed follows.kept.same layered
    follows.kept.kept.tail (filedLast.trans startedLayer.filed)
  exact ⟨follows.gets, there.1.trans (left ▸ ended.1), ended.2⟩

/-- The statement is executed, after what happened in the parameters. -/
theorem Follows.executed {transaction : Transaction} {stated passed : St W}
    {first second : List Happening}
    (starts : Starts dcl records (.statement scope id connection transaction)
      state)
    (stating : Follows dcl records (.inside scope) first state stated)
    (kept : Keeps records scope stated.world world)
    (passing : Follows dcl records (.inside scope) second
      { stated with world } passed)
    (left : Keeps records scope passed.world after) :
    Follows dcl records (.statement scope id connection transaction)
      (first ++ (second ++ [.query scope id connection
        (records.opened passed.world connection)
        (transaction.calls connection)])) state
      { passed with world := after } := by
  obtain ⟨inside, serves, executes⟩ := starts
  have there := (stating.kept.trans (.world kept)).trans passing.kept
  have ended := inside.undisturbed there
  have gets : ∀ happening ∈ [Happening.query scope id connection
      (records.opened passed.world connection) (transaction.calls connection)],
      happening.Gets := by
    rw [List.forall_mem_singleton]
    exact ⟨serves.opened ended, executes, inside.works⟩
  exact .append stating.gets
    (.append passing.gets ⟨gets, there.trans (.world left)⟩)

/-- What the queries of a run get. -/
theorem Runs.follows {α : Type} {program : M W α} {outcome : Outcome Exc α}
    (handles : Handles outside.dcl) (laws : PoolLaws outside.pgsql records)
    (runs : Runs outside records place program state happened final outcome)
    (tight : ∀ happening ∈ happened, happening ≠ .leaked)
    (starts : Starts outside.dcl records place state) :
    Follows outside.dcl records place happened state final := by
  induction runs with
  | aside _ kept _ => exact ⟨List.forall_mem_nil _, kept⟩
  | unstated _ stating =>
      have ran := stating tight starts.1
      exact ⟨ran.gets, ran.kept⟩
  | unprepared _ _ _ _ kept stating =>
      have ran := stating tight starts.1
      exact ⟨ran.gets, ran.kept.trans (.world kept)⟩
  | unpassed _ _ _ _ kept _ stating passing =>
      obtain ⟨before, after⟩ := List.forall_mem_append.mp tight
      have ran := stating before starts.1
      have stated := ran.kept.trans (.world kept)
      have more := passing after (starts.1.undisturbed stated)
      exact .append ran.gets ⟨more.gets, stated.trans more.kept⟩
  | executed _ _ _ _ kept _ _ _ left stating passing =>
      obtain ⟨before, after⟩ := List.forall_mem_append.mp tight
      obtain ⟨between, -⟩ := List.forall_mem_append.mp after
      have ran := stating before starts.1
      have stated := ran.kept.trans (.world kept)
      have more := passing between (starts.1.undisturbed stated)
      exact .executed starts ran kept more left
  | enclosed _ filled read _ sends | enclosedFails _ filled read _ sends =>
      obtain ⟨inside, serves, rfl⟩ := starts
      have ran := sends tight
        ⟨inside, serves, executes_enclosing handles filled read⟩
      exact ⟨ran.gets, ran.kept⟩
  | own _ _ kept _ _ left sends =>
      obtain ⟨inside, serves, free⟩ := starts
      have ran := sends tight ⟨inside.undisturbed (.world kept), serves,
        executes_own handles free⟩
      exact ⟨ran.gets,
        (Undisturbed.world kept).trans (ran.kept.trans (.world left))⟩
  | refused _ _ kept => exact ⟨List.forall_mem_nil _, .world kept⟩
  | query _ _ finds _ _ asking fetching delivering =>
      obtain ⟨before, after⟩ := List.forall_mem_append.mp tight
      obtain ⟨between, rest⟩ := List.forall_mem_append.mp after
      have given := asking before starts
      have there := Inside.undisturbed starts given.kept
      have fetched := fetching between
        ⟨there, there.serves handles finds, there.work⟩
      have answered := there.undisturbed fetched.kept
      exact given.next (.next ⟨fetched.gets, fetched.kept⟩
        (delivering rest answered))
  | queryFails _ _ finds _ asking fetching =>
      obtain ⟨before, after⟩ := List.forall_mem_append.mp tight
      have given := asking before starts
      have there := Inside.undisturbed starts given.kept
      have fetched := fetching after
        ⟨there, there.serves handles finds, there.work⟩
      exact given.next ⟨fetched.gets, fetched.kept⟩
  | @transaction _ _ _ _ _ asked last _ _ work world after _ _ _ _ served _
      finds begins fresh kept chain _ layered finishes left asking body =>
      obtain ⟨before, rest⟩ := List.forall_mem_append.mp tight
      have given := asking before starts
      have there := Inside.undisturbed starts given.kept
      have ran := body rest (there.working kept fresh)
      have dropped : Undisturbed records _ { asked with world } last.dropLayer :=
        Undisturbed.dropLayer ⟨ran.kept.same, ran.kept.kept.tail⟩
      refine given.next ⟨ran.gets, ?_⟩
      exact ⟨dropped.same, (kept.trans dropped.kept).trans left⟩
  | nested _ _ _ _ bound _ naming asking body =>
      obtain ⟨before, after⟩ := List.forall_mem_append.mp tight
      obtain ⟨between, rest⟩ := List.forall_mem_append.mp after
      have named := naming before starts
      have given := asking between (Inside.undisturbed starts named.kept)
      have there := Inside.undisturbed starts (named.kept.trans given.kept)
      have ran := body rest (there.nested bound)
      exact named.next (given.next
        ⟨ran.gets, ran.kept.same, ran.kept.kept.tail⟩)
  | @opens scope _ _ _ _ _ asked _ _ _ _ world _ _ _ _ _ _ _ _ unbound acquires
      kept _ naming asking loops =>
      obtain ⟨before, after⟩ := List.forall_mem_append.mp tight
      obtain ⟨between, rest⟩ := List.forall_mem_append.mp after
      have named := naming before starts
      have given := asking between (Inside.undisturbed starts named.kept)
      have there := Inside.undisturbed starts (named.kept.trans given.kept)
      have ran := loops rest
        (there.entered handles unbound kept (laws.acquired acquires))
      have same : Undisturbed records scope asked { asked with world } :=
        .world kept
      have looped := ran.kept
      rw [Kept, dropLayer_entered there.chain] at looped
      exact named.next (given.next ⟨ran.gets, same.trans looped⟩)
  | attempt served connects kept given same _ publishes layered _ body =>
      subst served
      exact Follows.attempt laws starts connects kept same publishes layered
        (body tight)
  | returns _ layered tried =>
      have ran := tried tight starts
      exact ⟨ran.gets, ran.kept.1⟩
  | gives _ other layered tried =>
      have ran := tried tight starts
      exact ⟨ran.gets, ran.kept.1⟩
  | breaks _ broken gives kept _ tried =>
      have ran := tried tight starts
      exact ⟨ran.gets, ran.kept.1.trans kept⟩
  | @again _ interp _ _ _ last later _ _ _ item _ _ _ exception _ _ broken
      announces kept filed _ _ tried rest =>
      obtain ⟨before, after⟩ := List.forall_mem_append.mp tight
      have ran := tried before starts
      have contexts : later.contexts = last.contexts := by
        have same := TagDatabase.announce_contexts interp item exception last
        rwa [announces] at same
      have layered : later.Layered := by
        obtain ⟨context, parents, chain, layers⟩ := ran.kept.2.layered
        exact ⟨context, parents, contexts.trans chain, layers⟩
      have more := ran.kept.2.undisturbed
        (fun name _ => congrArg (bindings name) contexts) layered kept
        (filed.trans ran.kept.2.filed)
      have again := rest after more.2
      exact .append ran.gets
        ⟨again.gets, (ran.kept.1.trans more.1).trans again.kept⟩
  | leaks _ broken announces _ tried =>
      obtain ⟨-, leaked⟩ := List.forall_mem_append.mp tight
      exact absurd rfl (leaked _ (List.mem_singleton_self _))
  | layer _ _ _ body =>
      have ran := body tight (Inside.withLayer starts)
      exact ⟨ran.gets, Undisturbed.dropLayer ran.kept⟩
  | next _ _ first second =>
      obtain ⟨before, after⟩ := List.forall_mem_append.mp tight
      have one := first before starts
      exact one.next (second after (Inside.undisturbed starts one.kept))
  | raises _ body => exact body tight starts
  | caught _ _ first second =>
      obtain ⟨before, after⟩ := List.forall_mem_append.mp tight
      have one := first before starts
      exact one.next (second after (Inside.undisturbed starts one.kept))
  | same _ _ body => exact body tight starts

/-- Every query gets what the tags with its id name exactly when it meets the
condition. -/
theorem Runs.right_iff {α : Type} {program : M W α} {outcome : Outcome Exc α}
    (handles : Handles outside.dcl) (laws : PoolLaws outside.pgsql records)
    (runs : Runs outside records (.inside scope) program state happened final
      outcome)
    (tight : ∀ happening ∈ happened, happening ≠ .leaked)
    (inside : Inside outside.dcl records scope state) :
    ∀ happening ∈ happened, happening.Right ↔ happening.Meets := by
  intro happening member
  exact ((runs.follows handles laws tight inside).gets happening
    member).right_iff

/-! ## Every statement is recorded -/

theorem executed_of {α : Type} {executed : W → Nat} {operation : Io W α}
    {result : Outcome Exc α}
    (counted : ∀ world, executed (operation world).1 = executed world)
    (ran : operation world = (after, result)) :
    executed after = executed world := by
  rw [← counted world, ran]

section Counts

variable {api : PgsqlApi W} {executed : W → Nat} (counts : Counts api executed)

include counts

theorem executed_exec {bound : List (Option Str)} {result : Outcome Exc Rows}
    (ran : api.exec work bound world = (after, result)) :
    executed after = executed world + 1 := by
  rw [← counts.exec work bound world, ran]

theorem executed_cleaned (exception : Exc) :
    executed (cleaned api work exception world) = executed world := by
  unfold cleaned
  split
  · exact counts.abort work world
  · rfl

theorem Finishes.executed_eq {how outcome : Outcome Exc Unit}
    (finishes : Finishes api work how world outcome after) :
    executed after = executed world := by
  cases finishes with
  | committed commits => exact executed_of (counts.commit work) commits
  | refused commits =>
      exact (counts.abort work _).trans
        (executed_of (counts.commit work) commits)
  | aborted => exact counts.abort work world

theorem Ends.executed_eq {how outcome : Outcome Exc Rows}
    (ends : Ends api work how world outcome after) :
    executed after = executed world := by
  cases ends with
  | committed commits => exact executed_of (counts.commit work) commits
  | refused commits =>
      exact (executed_cleaned counts _).trans
        (executed_of (counts.commit work) commits)
  | raised => exact executed_cleaned counts _

end Counts

theorem executed_connect {executed : W → Nat}
    (counts : Counts interp.outside.pgsql executed)
    (connects : TagDatabase.connect interp dsn item state =
      ⟨{ state with world }, [], .value connection⟩) :
    executed world = executed state.world := by
  rcases asked : interp.outside.pgsql.connection item state.world with
    ⟨middle, found | exception | reason⟩
  · have there := executed_of (counts.connection item) asked
    unfold TagDatabase.connect at connects
    rw [Prog.bind_silent (M.io_eq asked)] at connects
    cases found with
    | some found =>
        cases connects
        exact there
    | none =>
        rcases opened : interp.outside.pgsql.connect item dsn middle with
          ⟨after, outcome⟩
        have ran : M.io (interp.outside.pgsql.connect item dsn)
            { state with world := middle } =
            ⟨{ state with world := after }, [], outcome⟩ := M.io_eq opened
        have same := ran.symm.trans connects
        cases same
        exact (executed_of (counts.connect item dsn) opened).trans there
  · unfold TagDatabase.connect at connects
    rw [Prog.bind_error (M.io_eq asked)] at connects
    cases connects
  · unfold TagDatabase.connect at connects
    rw [Prog.bind_halt (M.io_eq asked)] at connects
    cases connects

/-- Every statement executed in a run is recorded. -/
theorem Runs.executions_eq {α : Type} {program : M W α}
    {outcome : Outcome Exc α} (counts : Counts outside.pgsql records.executed)
    (runs : Runs outside records place program state happened final outcome) :
    records.executed final.world =
      records.executed state.world + Happening.executions happened := by
  induction runs with
  | aside _ _ quiet => exact quiet
  | unstated _ stating => exact stating
  | unprepared _ _ _ prepares _ stating =>
      exact (executed_of (counts.prepare _ _ _) prepares).trans stating
  | unpassed _ _ _ prepares _ _ stating passing =>
      have prepared := executed_of (counts.prepare _ _ _) prepares
      rw [passing, prepared, stating, Happening.executions_append]
      omega
  | executed _ _ _ prepares _ _ _ executes _ stating passing =>
      have prepared := executed_of (counts.prepare _ _ _) prepares
      have sent := executed_exec counts executes
      rw [sent, passing, prepared, stating, Happening.executions_append,
        Happening.executions_append, Happening.executions_query]
      omega
  | enclosed _ _ _ _ sends | enclosedFails _ _ _ _ sends => exact sends
  | own _ begins _ _ ends _ sends =>
      have begun := executed_of (counts.work _) begins
      rw [ends.executed_eq counts, sends, begun]
  | refused _ begins _ => exact executed_of (counts.work _) begins
  | query _ _ _ _ _ asking fetching delivering =>
      rw [delivering, fetching, asking, Happening.executions_append,
        Happening.executions_append]
      omega
  | queryFails _ _ _ _ asking fetching =>
      rw [fetching, asking, Happening.executions_append]
      omega
  | transaction _ _ _ begins _ _ _ _ _ finishes _ asking body =>
      have begun := executed_of (counts.work _) begins
      have finished := finishes.executed_eq counts
      rw [Happening.executions_append]
      exact (finished.trans body).trans (by
        rw [Pgsql.working, begun, asking]
        omega)
  | nested _ _ _ _ _ _ naming asking body =>
      rw [body, asking, naming, Happening.executions_append,
        Happening.executions_append]
      omega
  | opens _ _ _ _ _ acquires _ _ naming asking loops =>
      have acquired := executed_of (counts.acquire _) acquires
      rw [loops, acquired, asking, naming, Happening.executions_append,
        Happening.executions_append]
      omega
  | @attempt _ interp _ _ _ asked _ _ id _ _ connection _ _ _ served connects _
      _ _ quiet publishes _ _ body =>
      subst served
      have connected := executed_connect counts connects
      have published := M.addValue_world interp.dcl (databaseName id)
        (interp.dcl.toStringPtr connection) asked
      rw [publishes] at published
      rw [body, published, quiet, connected]
  | returns _ _ tried | gives _ _ _ tried => exact tried
  | breaks _ _ _ _ quiet tried => rw [quiet, tried]
  | again _ _ _ _ _ quiet _ tried rest =>
      rw [rest, quiet, tried, Happening.executions_append]
      omega
  | leaks _ _ _ quiet tried =>
      rw [quiet, tried, Happening.executions_append]
      rfl
  | layer _ _ _ body => exact body
  | next _ _ before after =>
      rw [after, before, Happening.executions_append]
      omega
  | raises _ before => exact before
  | caught _ _ before after =>
      rw [after, before, Happening.executions_append]
      omega
  | same _ _ runs => exact runs

/-- The connections and transactions of the queries in a run. -/
theorem queries_reach_outermost (handles : Handles outside.dcl)
    (laws : PoolLaws outside.pgsql records) :
    (∀ {state : St W}, state.contexts ≠ [] →
      (∀ name, Internal name → Chain.lookup name state.contexts = none) →
      Inside outside.dcl records [] state) ∧
    ∀ {scope : Scope} {α : Type} {program : M W α} {state final : St W}
      {happened : List Happening} {outcome : Outcome Exc α},
      Inside outside.dcl records scope state →
      Runs outside records (.inside scope) program state happened final
        outcome →
      (∃ out, program state = ⟨final, out, outcome⟩) ∧
        (Counts outside.pgsql records.executed →
          records.executed final.world =
            records.executed state.world + Happening.executions happened) ∧
        ((∀ happening ∈ happened, happening ≠ .leaked) →
          ∀ {within : Scope} {id : Str} {connection : Nat} {dsn : Option Str}
            {calls : List Call},
            .query within id connection dsn calls ∈ happened →
            (∃ given, within.outermost id = some given ∧ dsn = some given) ∧
              ((∀ begun ∈ within.works, begun.1 = id) →
                Executes connection calls (within.work id))) := by
  constructor
  · intro state chain unbound
    have missing (name : Str) (internal : Internal name) :
        Chain.getValue name state.contexts = [] := by
      rw [Chain.getValue, unbound name internal]
      rfl
    exact ⟨chain, fun id => missing _ (.database id), missing _ .work,
      fun _ => rfl, List.forall_mem_nil _, List.forall_mem_nil _,
      List.nodup_nil⟩
  · intro scope α program state final happened outcome inside runs
    refine ⟨runs.leads, fun counts => runs.executions_eq counts, ?_⟩
    intro tight within id connection dsn calls member
    obtain ⟨given, executes, -⟩ :=
      (runs.follows handles laws tight inside).gets _ member
    refine ⟨given, fun same => ?_⟩
    rw [Scope.work, Happening.work_of_same same]
    exact executes

/-! ## A pool of two databases -/

section Pages

/-- A library that opens a connection for every request: the data source names
of the connections, and the number of executed statements. -/
structure Server where
  opened : List Str
  executed : Nat

namespace Server

def openWith (dsn : Str) (server : Server) : Server :=
  { server with opened := server.opened ++ [dsn] }

def execute (server : Server) : Server :=
  { server with executed := server.executed + 1 }

end Server

def openingOutside : Outside Server :=
  let closed := Outside.closed Server
  { closed with
    pgsql := { closed.pgsql with
      acquire := fun dsn world =>
        (world.openWith dsn, .value world.opened.length)
      connection := fun item world => (world, .value (some item))
      work := fun connection world => (world, .value connection)
      commit := fun _ world => (world, .value ())
      abort := fun _ world => world
      prepare := fun _ _ _ world => (world, .value ())
      exec := fun _ _ world => (world.execute, .value []) } }

def openingRecords : Records Server :=
  ⟨fun world connection => world.opened[connection]?,
    fun world item => world.opened[item]?, Server.executed⟩

theorem openingOutside_laws :
    PoolLaws openingOutside.pgsql openingRecords := by
  constructor
  · intro dsn world after item acquired
    cases acquired
    exact List.getElem?_concat_length
  · intro item world after absent
    cases absent
  · intro item dsn world after connection filed found
    cases found
    exact ⟨filed, filed⟩
  · intro item dsn world after connection filed connected
    cases connected

theorem openingOutside_counts :
    Counts openingOutside.pgsql openingRecords.executed := by
  constructor <;> intros <;> rfl

def openingInterp (depth : Nat) : Interp Server :=
  .ofRun openingOutside depth (execute openingOutside depth)

def queryTag (id : String) : Tag :=
  .mk 4 .pgsqlQuery [("database".toList, id.toList),
    ("statement".toList, "s".toList)] [] []

def databaseTag (id dsn : String) (childs : List Tag) : Tag :=
  .mk 3 .pgsqlDatabase [("id".toList, id.toList), ("dsn".toList, dsn.toList)]
    childs []

def transactionTag (id : String) (childs : List Tag) : Tag :=
  .mk 2 .pgsqlTransaction [("database".toList, id.toList)] childs []

/-- A page about to open a database. -/
def connectingState : St Server :=
  { contexts := [Context.newLocal], vectors := ∅, maps := ∅, nextAddr := 1,
    world := ⟨[], 0⟩, trace := [] }

/-- The state behind the execution of a statement. -/
def executedState (state : St Server) : St Server :=
  { state with world := state.world.execute }

section Tags

variable {depth : Nat} {up : List Tag} {name : String} {childs : List Tag}
  {state last : St Server} {happened : List Happening}

theorem given_plain {tag : Tag} {value : Str}
    (found : Loc.findParam ⟨tag, up⟩ name.toList = some value)
    (plain : value.all isPlainChar = true) :
    (openingInterp depth).getParameter ⟨tag, up⟩ name state =
      ⟨state, [], .value value⟩ := by
  unfold Interp.getParameter
  rw [found]
  exact Evaluator.eval_plain openingOutside _ _ _ state plain

/-- A program that leaves the state alone. -/
theorem Runs.still {α : Type} {program : M Server α} {result : α}
    (ran : program state = ⟨state, [], .value result⟩) :
    Runs openingOutside openingRecords (.inside scope) program state [] state
      (.value result) :=
  .aside ran (Undisturbed.refl state) rfl

theorem statement_runs {id : String} (transaction : Transaction) :
    Runs openingOutside openingRecords
      (.statement scope id.toList connection transaction)
      (TagQuery.run (openingInterp depth) ⟨queryTag id, up⟩ connection
        transaction.work) state
      [.query scope id.toList connection state.world.opened[connection]?
        (transaction.calls connection)] (executedState state) (.value []) := by
  have stating : (openingInterp depth).getParameter ⟨queryTag id, up⟩
      "statement" state = ⟨state, [], .value "s".toList⟩ :=
    given_plain rfl rfl
  exact @Runs.executed _ _ _ _ _ _ _ _ _ _ _ _ _ _ _ _ _ _ _ [] [] _ rfl
    (.still stating) rfl rfl (Keeps.refl _) (.still rfl) rfl rfl
    fun _ _ => ⟨rfl, rfl⟩

section Query

variable {id : String} (plain : id.toList.all isPlainChar = true)
  (finds : Finds Dcl.plain id.toList connection state)

include plain finds

/-- A query without rows, whose parameters leave the state alone. -/
theorem queryTag_runs
    (fetching : Runs openingOutside openingRecords
      (.query scope id.toList connection
        (Chain.getValue workHandle state.contexts))
      (TagQuery.fetch (openingInterp depth) ⟨queryTag id, up⟩ connection
        (Chain.getValue workHandle state.contexts)) state happened last
      (.value [])) :
    Runs openingOutside openingRecords (.inside scope)
      (TagQuery.execute (openingInterp depth) ⟨queryTag id, up⟩ none) state
      happened last (.value ()) := by
  have asking : Runs openingOutside openingRecords (.inside scope)
      ((openingInterp depth).getParameter ⟨queryTag id, up⟩ "database") state []
      state (.value id.toList) :=
    .still (given_plain rfl plain)
  have delivering : Runs openingOutside openingRecords (.inside scope)
      (deliver (openingInterp depth) ⟨queryTag id, up⟩ none []) last [] last
      (.value ()) :=
    .still rfl
  have served : (openingInterp depth).outside = openingOutside := rfl
  have whole := Runs.query served asking finds fetching delivering
  rwa [List.nil_append, List.append_nil] at whole

/-- A query in a transaction of its own. -/
theorem queryTag_own
    (free : Chain.getValue workHandle state.contexts = []) :
    Runs openingOutside openingRecords (.inside scope)
      (TagQuery.execute (openingInterp depth) ⟨queryTag id, up⟩ none) state
      [.query scope id.toList connection state.world.opened[connection]?
        ((Transaction.own connection).calls connection)] (executedState state)
      (.value ()) := by
  have fetching : Runs openingOutside openingRecords
      (.query scope id.toList connection [])
      (TagQuery.fetch (openingInterp depth) ⟨queryTag id, up⟩ connection [])
      state [.query scope id.toList connection state.world.opened[connection]?
        ((Transaction.own connection).calls connection)] (executedState state)
      (.value []) := by
    have ends : Ends openingOutside.pgsql connection (.value [])
        (executedState state).world (.value []) (executedState state).world :=
      .committed rfl
    exact @Runs.own _ _ _ _ _ _ state (executedState state) _ _ _ _ _ _ _ _
      rfl rfl (Keeps.refl _) (statement_runs (.own connection)) ends
      (Keeps.refl _)
  rw [← free] at fetching
  exact queryTag_runs plain finds fetching

/-- A query in the enclosing transaction. -/
theorem queryTag_enclosed {work : Nat}
    (filled : Chain.getValue workHandle state.contexts ≠ [])
    (read : Dcl.plain.fromStringPtr
      (Chain.getValue workHandle state.contexts) = some work) :
    Runs openingOutside openingRecords (.inside scope)
      (TagQuery.execute (openingInterp depth) ⟨queryTag id, up⟩ none) state
      [.query scope id.toList connection state.world.opened[connection]?
        ((Transaction.enclosing work).calls connection)] (executedState state)
      (.value ()) :=
  queryTag_runs plain finds
    (.enclosed rfl filled read (statement_runs (.enclosing work)))

end Query

/-- The frame of a database tag that opens the next connection. -/
def nextFrame (id dsn : String) (state : St Server) : Frame :=
  .database id.toList dsn.toList
    (some ⟨state.world.opened.length, state.world.opened.length⟩)

/-- The state in which the children of such a tag are executed. -/
def nextState (id dsn : String) (state : St Server) : St Server :=
  { state.withLayer ((∅ : Vars).insert (upName (databaseName id.toList))
      (Dcl.plain.toStringPtr state.world.opened.length)) with
    world := state.world.openWith dsn.toList }

theorem databaseTag_runs {id dsn : String}
    (plainId : id.toList.all isPlainChar = true)
    (plainDsn : dsn.toList.all isPlainChar = true) (filled : dsn.toList ≠ [])
    (unbound : Chain.getValue (databaseName id.toList) state.contexts = [])
    (kept : Keeps openingRecords scope state.world
      (state.world.openWith dsn.toList)) (chain : state.contexts ≠ [])
    (body : Runs openingOutside openingRecords
      (.inside (nextFrame id dsn state :: scope))
      ((openingInterp depth).executeChilds ⟨databaseTag id dsn childs, up⟩ none)
      (nextState id dsn state) happened last (.value ()))
    (layered : last.Layered) :
    Runs openingOutside openingRecords (.inside scope)
      (TagDatabase.execute (openingInterp depth)
        ⟨databaseTag id dsn childs, up⟩ none) state happened last.dropLayer
      (.value ()) := by
  let entered : St Server :=
    { state.withLayer ∅ with world := state.world.openWith dsn.toList }
  have publishes : M.addValue Dcl.plain (databaseName id.toList)
      (Dcl.plain.toStringPtr state.world.opened.length) entered =
      ⟨nextState id dsn state, [], .value ()⟩ :=
    M.addValue_withLayer Dcl.plain _ _ ∅ chain rfl
  have tried : Runs openingOutside openingRecords
      (.attempt scope id.toList dsn.toList state.world.opened.length)
      (TagDatabase.attempt (openingInterp depth)
        ⟨databaseTag id dsn childs, up⟩ none dsn.toList
        state.world.opened.length) entered happened last (.value ()) :=
    .attempt rfl rfl (Keeps.refl _) (given_plain rfl plainId)
      (Undisturbed.refl entered) rfl publishes layered body
  exact @Runs.opens _ _ _ _ _ _ _ _ _ _ _ _ _ _ _ [] [] _ _ rfl
    (.still (given_plain rfl plainDsn)) (.still (given_plain rfl plainId))
    filled unbound rfl kept (.returns tried layered)

end Tags

/-- A query in its database. -/
def queryPage : Tag :=
  databaseTag "a" "x" [queryTag "a"]

/-- Inside of the database `a`. -/
def stateA : St Server :=
  nextState "a" "x" connectingState

/-- What a query on the first connection records in a transaction of its
own. -/
def queriedFirst (scope : Scope) : Happening :=
  .query scope "a".toList 0 (some "x".toList)
    [.begin 0 0, .prepare 0 0, .exec 0]

theorem queryPage_runs :
    Runs openingOutside openingRecords (.inside [])
      (TagDatabase.execute (openingInterp 3) ⟨queryPage, []⟩ none)
      connectingState [queriedFirst [nextFrame "a" "x" connectingState]]
      (executedState stateA).dropLayer (.value ()) := by
  have query : Runs openingOutside openingRecords
      (.inside [nextFrame "a" "x" connectingState])
      (TagQuery.execute (openingInterp 2) ⟨queryTag "a", [queryPage]⟩ none)
      stateA [queriedFirst [nextFrame "a" "x" connectingState]]
      (executedState stateA) (.value ()) :=
    queryTag_own rfl ⟨by decide, rfl⟩ rfl
  have childs := @Runs.same _ _ _ _ _ _ ((openingInterp 3).executeChilds
    ⟨queryPage, []⟩ none) _ _ _ [] _ query rfl
  exact databaseTag_runs rfl rfl (by decide) rfl (List.forall_mem_nil _)
    (by decide) childs ⟨_, _, rfl, by decide⟩

/-- Decimal numbers are read as they are written. -/
theorem plain_handles : Handles Dcl.plain := by
  have digits (pointer : Nat) :
      Dcl.plain.toStringPtr pointer = Nat.toDigits 10 pointer :=
    Nat.toList_repr
  constructor
  · intro pointer
    have filled : (Nat.toDigits 10 pointer).isEmpty = false := by
      simp
    have all : (Nat.toDigits 10 pointer).all Char.isDigit = true := by
      rw [List.all_eq_true]
      exact fun c => Nat.isDigit_of_mem_toDigits (by decide) (by decide)
    have value : (Nat.toDigits 10 pointer).foldl
        (fun number c => 10 * number + (c.toNat - 48)) 0 = pointer :=
      Nat.ofDigitChars_ten_toDigits
    rw [digits]
    change parseNat _ = _
    rw [parseNat, filled, all, value]
    rfl
  · intro pointer
    rw [digits]
    exact Nat.toDigits_ne_nil

theorem queries_reach_outermost_page :
    connectingState.contexts ≠ [] ∧
      (∃ given, Scope.outermost "a".toList
          [nextFrame "a" "x" connectingState] = some given ∧
        some "x".toList = some given) ∧
      Executes 0 [.begin 0 0, .prepare 0 0, .exec 0] none := by
  have chain : connectingState.contexts ≠ [] := List.cons_ne_nil _ _
  obtain ⟨starts, runs⟩ :=
    queries_reach_outermost plain_handles openingOutside_laws
  obtain ⟨-, -, gets⟩ := runs (starts chain fun _ _ => rfl) queryPage_runs
  have tight : ∀ happening ∈
      [queriedFirst [nextFrame "a" "x" connectingState]],
      happening ≠ .leaked := by
    rw [List.forall_mem_singleton]
    exact Happening.noConfusion
  obtain ⟨given, executes⟩ := gets tight (List.mem_singleton_self _)
  exact ⟨chain, given, executes (List.forall_mem_nil _)⟩

/-- A query in two databases with one id. -/
def nestedTag : Tag :=
  databaseTag "a" "y" [queryTag "a"]

def nestedPage : Tag :=
  databaseTag "a" "x" [nestedTag]

def nestedScope : Scope :=
  [.database "a".toList "y".toList none, nextFrame "a" "x" connectingState]

theorem nestedPage_runs :
    Runs openingOutside openingRecords (.inside [])
      (TagDatabase.execute (openingInterp 4) ⟨nestedPage, []⟩ none)
      connectingState [queriedFirst nestedScope]
      (executedState stateA).dropLayer (.value ()) := by
  have query : Runs openingOutside openingRecords (.inside nestedScope)
      (TagQuery.execute (openingInterp 2)
        ⟨queryTag "a", [nestedTag, nestedPage]⟩ none) stateA
      [queriedFirst nestedScope] (executedState stateA) (.value ()) :=
    queryTag_own rfl ⟨by decide, rfl⟩ rfl
  have childs := @Runs.same _ _ _ _ _ _ ((openingInterp 3).executeChilds
    ⟨nestedTag, [nestedPage]⟩ none) _ _ _ [] _ query rfl
  have database : Runs openingOutside openingRecords
      (.inside [nextFrame "a" "x" connectingState])
      (TagDatabase.execute (openingInterp 3) ⟨nestedTag, [nestedPage]⟩ none)
      stateA [queriedFirst nestedScope] (executedState stateA) (.value ()) :=
    @Runs.nested _ _ _ _ _ _ _ _ _ _ _ _ _ [] [] _ _ rfl
      (.still (given_plain rfl rfl)) (.still (given_plain rfl rfl))
      (by decide) (by decide) childs
  have page := @Runs.same _ _ _ _ _ _ ((openingInterp 4).executeChilds
    ⟨nestedPage, []⟩ none) _ _ _ [] _ database rfl
  exact databaseTag_runs rfl rfl (by decide) rfl (List.forall_mem_nil _)
    (by decide) page ⟨_, _, rfl, by decide⟩

/-- A query on one database inside of a transaction on another one. -/
def capturedTag : Tag :=
  databaseTag "b" "y" [queryTag "b"]

def capturingTag : Tag :=
  transactionTag "a" [capturedTag]

def capturingPage : Tag :=
  databaseTag "a" "x" [capturingTag]

/-- Inside of the transaction. -/
def workingState : St Server :=
  working Dcl.plain 0 stateA stateA.world

def capturedScope : Scope :=
  [nextFrame "b" "y" workingState, .transaction "a".toList 0,
    nextFrame "a" "x" connectingState]

/-- What the query records. -/
def queriedSecond : Happening :=
  .query capturedScope "b".toList 1 (some "y".toList)
    [.prepare 1 0, .exec 0]

theorem capturingPage_runs :
    ∃ final, Runs openingOutside openingRecords (.inside [])
      (TagDatabase.execute (openingInterp 5) ⟨capturingPage, []⟩ none)
      connectingState [queriedSecond] final (.value ()) := by
  let started := nextState "b" "y" workingState
  have query : Runs openingOutside openingRecords (.inside capturedScope)
      (TagQuery.execute (openingInterp 2)
        ⟨queryTag "b", [capturedTag, capturingTag, capturingPage]⟩ none)
      started [queriedSecond] (executedState started) (.value ()) :=
    queryTag_enclosed rfl ⟨by decide, rfl⟩ (by decide) rfl
  have childs := @Runs.same _ _ _ _ _ _ ((openingInterp 3).executeChilds
    ⟨capturedTag, [capturingTag, capturingPage]⟩ none) _ _ _ [] _ query rfl
  have kept : Keeps openingRecords
      [.transaction "a".toList 0, nextFrame "a" "x" connectingState]
      workingState.world (workingState.world.openWith "y".toList) := by
    intro lease member
    rcases List.mem_singleton.mp member with rfl
    exact ⟨rfl, rfl⟩
  have database : Runs openingOutside openingRecords
      (.inside [.transaction "a".toList 0,
        nextFrame "a" "x" connectingState])
      (TagDatabase.execute (openingInterp 3)
        ⟨capturedTag, [capturingTag, capturingPage]⟩ none) workingState
      [queriedSecond] (executedState started).dropLayer (.value ()) :=
    databaseTag_runs rfl rfl (by decide) rfl kept (by decide) childs
      ⟨_, _, rfl, by decide⟩
  have body := @Runs.same _ _ _ _ _ _ ((openingInterp 4).executeChilds
    ⟨capturingTag, [capturingPage]⟩ none) _ _ _ [] _ database rfl
  have layered : (executedState started).dropLayer.Layered :=
    ⟨_, _, rfl, by decide⟩
  have finds : Finds Dcl.plain "a".toList 0 stateA := ⟨by decide, rfl⟩
  have transaction : Runs openingOutside openingRecords
      (.inside [nextFrame "a" "x" connectingState])
      (TagTransaction.execute (openingInterp 4)
        ⟨capturingTag, [capturingPage]⟩ none) stateA [queriedSecond]
      { (executedState started).dropLayer.dropLayer with
        world := (executedState started).world } (.value ()) :=
    @Runs.transaction _ _ _ _ _ _ _ _ _ _ _ _ _ _ _ [] _ _ _ rfl
      (.still (given_plain rfl rfl)) finds rfl List.not_mem_nil (Keeps.refl _)
      (List.cons_ne_nil _ _) body layered (.committed rfl) (Keeps.refl _)
  have page := @Runs.same _ _ _ _ _ _ ((openingInterp 5).executeChilds
    ⟨capturingPage, []⟩ none) _ _ _ [] _ transaction rfl
  exact ⟨_, databaseTag_runs rfl rfl (by decide) rfl (List.forall_mem_nil _)
    (by decide) page ⟨_, _, rfl, by decide⟩⟩

/-- The second database tag with an id is passed over, and a transaction takes
the queries on every database. -/
theorem innermost_tags_passed_over :
    ((∃ final, Runs openingOutside openingRecords (.inside [])
        (TagDatabase.execute (openingInterp 4) ⟨nestedPage, []⟩ none)
        connectingState [queriedFirst nestedScope] final (.value ())) ∧
      ¬ (queriedFirst nestedScope).Right) ∧
    (∃ final, Runs openingOutside openingRecords (.inside [])
        (TagDatabase.execute (openingInterp 5) ⟨capturingPage, []⟩ none)
        connectingState [queriedSecond] final (.value ())) ∧
      ¬ queriedSecond.Right := by
  have names : Scope.dsn "a".toList nestedScope = some "y".toList := rfl
  refine ⟨⟨⟨_, nestedPage_runs⟩, ?_⟩, capturingPage_runs, ?_⟩
  · rintro ⟨⟨given, named, same⟩, -⟩
    have equal := (names.symm.trans named).trans same.symm
    exact absurd equal (by decide)
  · rintro ⟨-, own, calls⟩
    simp at calls

end Pages

end DbPager.Pgsql
