import DbPager.Connections
import DbPager.Library.Output
import DbPager.Transactions

/-!
# Pooled connections

`redis:connection` and `odbc:database` take their connection from a pool and
open it only if it is not open already.  The pool files the connections under
a text that the tag puts together from its parameters; a connection that was
opened for other parameters with the same text is handed out as it is.
-/

namespace DbPager

open Effect

open Pool (Items Item Known Told Acquired)

variable {W : Type}

/-- What both tags do once their parameters are known: `opening` opens the
connection if necessary, `restore` cleans up after an exception. -/
structure Lending (W : Type) where
  acquire : Io W Nat
  opening : Nat → M W Unit
  publish : Nat → M W Unit
  restore : Nat → M W Unit

namespace Lending

variable (lending : Lending W)

/-- Everything up to the body.  The result is the connection the body gets. -/
def handOver : M W Nat := do
  let connection ← M.io lending.acquire
  M.enter
  lending.opening connection
  lending.publish connection
  pure connection

/-- The whole tag. -/
def execute (body : M W Unit) : M W Unit := do
  let connection ← M.io lending.acquire
  M.enter
  Prog.onError
    (do
      lending.opening connection
      lending.publish connection
      body)
    (lending.restore connection)
  M.leave

/-- The body starts where the connection has been handed over. -/
theorem execute_of_handOver {state start : St W} {out : Str}
    {connection : Nat}
    (handed : lending.handOver state = ⟨start, out, .value connection⟩)
    (body : M W Unit) :
    lending.execute body state =
      Prog.behind out ((Prog.onError body (lending.restore connection) >>=
        fun _ => M.leave) start) := by
  obtain ⟨taken, address, _, _, acquired, afterAcquire, rfl⟩ :=
    Prog.of_bind_value handed
  obtain ⟨entered, _, _, _, enters, afterEnter, rfl⟩ :=
    Prog.of_bind_value afterAcquire
  obtain ⟨opened, _, first, _, opens, afterOpening, rfl⟩ :=
    Prog.of_bind_value afterEnter
  obtain ⟨published, _, second, _, publishes, afterPublish, rfl⟩ :=
    Prog.of_bind_value afterOpening
  cases afterPublish
  have inside : (do
      lending.opening connection
      lending.publish connection
      body : M W Unit) entered =
      Prog.behind (first ++ second) (body start) := by
    rw [Prog.behind_append]
    exact (Prog.bind_eq opens _).trans
      (congrArg (Prog.behind first) (Prog.bind_eq publishes _))
  unfold execute
  rw [Prog.bind_eq acquired, Prog.bind_eq enters]
  rw [List.append_nil, Prog.behind_append, Prog.behind_append]
  have ran := Prog.bind_behind
    (Prog.onError_behind inside (lending.restore connection)) fun _ =>
      (M.leave : M W Unit)
  rw [ran]
  rfl

/-- How the pool, the opening and the clean-up treat the items of the pool.
A failed opening leaves the item as it was, once the clean-up is done. -/
structure Lawful {ρ : Type} (view : W → Items Str ρ) (key : Str)
    (request : ρ) : Prop where
  acquired : ∀ {world after connection},
    lending.acquire world = (after, .value connection) →
    Acquired key (view world) (view after) connection
  refused : ∀ {world after exception},
    lending.acquire world = (after, .error exception) →
    view after = view world
  opened : ∀ {connection state final out found},
    view state.world connection = some ⟨key, found⟩ →
    lending.opening connection state = ⟨final, out, .value ()⟩ →
    view final.world =
      if found.isSome then view state.world
      else (view state.world).set connection key (some request)
  failed : ∀ {connection state middle final out after exception outcome found},
    view state.world connection = some ⟨key, found⟩ →
    lending.opening connection state = ⟨middle, out, .error exception⟩ →
    lending.restore connection middle = ⟨final, after, outcome⟩ →
    outcome.Finished →
    ∃ left, (left = none ∨ left = found) ∧
      view final.world = (view state.world).set connection key left
  published : ∀ connection state,
    view (lending.publish connection state).state.world = view state.world
  restored : ∀ {connection state final out outcome found},
    view state.world connection = some ⟨key, found⟩ →
    lending.restore connection state = ⟨final, out, outcome⟩ →
    outcome.Finished →
    ∃ left, (left = none ∨ left = found) ∧
      view final.world = (view state.world).set connection key left

theorem io_eq {α : Type} {operation : Io W α} {state final : St W}
    {out : Str} {outcome : Outcome Exc α}
    (ran : M.io operation state = ⟨final, out, outcome⟩) :
    operation state.world = (final.world, outcome) := by
  cases ran
  rfl

section Serving

variable {lending} {ρ : Type} {view : W → Items Str ρ} {key : Str}
  {request : ρ} {served : List (Str × ρ)}

/-- The item after the opening, whether it had to be opened or not. -/
theorem Lawful.opens (lawful : lending.Lawful view key request)
    {state final : St W} {out : Str} {connection : Nat} {found : Option ρ}
    (known : Known served (view state.world))
    (there : view state.world connection = some ⟨key, found⟩)
    (ran : lending.opening connection state = ⟨final, out, .value ()⟩) :
    Known ((key, request) :: served) (view final.world) ∧
      ∃ opened, view final.world connection = some ⟨key, some opened⟩ := by
  have after := lawful.opened there ran
  have more : Known ((key, request) :: served) (view state.world) :=
    known.mono fun _ => List.mem_cons_of_mem _
  cases found with
  | some opened =>
      rw [after]
      exact ⟨more, opened, there⟩
  | none =>
      rw [after]
      constructor
      · apply more.set
        intro other same
        cases same
        exact List.mem_cons_self
      · exact ⟨request, Items.set_self ..⟩

/-- The connection a body gets is open for the parameters of its tag, if
equal keys mean equal parameters. -/
theorem Lawful.handed (lawful : lending.Lawful view key request)
    {state start : St W} {out : Str} {connection : Nat}
    (known : Known served (view state.world))
    (told : Told ((key, request) :: served))
    (handed : lending.handOver state = ⟨start, out, .value connection⟩) :
    view start.world connection = some ⟨key, some request⟩ := by
  obtain ⟨taken, address, _, _, acquired, handed, -⟩ :=
    Prog.of_bind_value handed
  obtain ⟨entered, _, _, _, enters, handed, -⟩ := Prog.of_bind_value handed
  cases enters
  obtain ⟨opened, _, _, _, opens, handed, -⟩ := Prog.of_bind_value handed
  obtain ⟨published, _, _, _, publishes, handed, -⟩ :=
    Prog.of_bind_value handed
  cases handed
  obtain ⟨knownTaken, found, there⟩ :=
    known.acquired (lawful.acquired (io_eq acquired))
  have entered : view (taken.mapHead Context.enter).world = view taken.world :=
    rfl
  obtain ⟨knownOpen, cred, there⟩ := lawful.opens (entered ▸ knownTaken)
    (entered ▸ there) opens
  have kept := lawful.published connection opened
  rw [publishes] at kept
  rw [kept, there,
    knownOpen.opened_eq told List.mem_cons_self there]

theorem known_left {items : Items Str ρ} {connection : Nat}
    {found left : Option ρ} (known : Known served items)
    (there : items connection = some ⟨key, found⟩)
    (which : left = none ∨ left = found) :
    Known served (items.set connection key left) := by
  apply known.set
  intro request same
  rcases which with rfl | rfl
  · cases same
  · exact known connection _ request there same

/-- The opening, the body and the clean-up. -/
theorem Lawful.inside (lawful : lending.Lawful view key request)
    {body : M W Unit}
    (quiet : ∀ state, view (body state).state.world = view state.world)
    {state final : St W} {out : Str} {outcome : Outcome Exc Unit}
    {connection : Nat} {found : Option ρ}
    (known : Known served (view state.world))
    (there : view state.world connection = some ⟨key, found⟩)
    (ran : Prog.onError
      (do
        lending.opening connection
        lending.publish connection
        body)
      (lending.restore connection) state = ⟨final, out, outcome⟩)
    (finished : outcome.Finished) :
    Known ((key, request) :: served) (view final.world) := by
  have more : Known ((key, request) :: served) (view state.world) :=
    known.mono fun _ => List.mem_cons_of_mem _
  -- The clean-up of a connection that is open and known.
  have cleaned {middle : St W} {cred : ρ} {rest : Str}
      {ending : Outcome Exc Unit}
      (known : Known ((key, request) :: served) (view middle.world))
      (there : view middle.world connection = some ⟨key, some cred⟩)
      (restored : lending.restore connection middle = ⟨final, rest, ending⟩)
      (ended : ending.Finished) :
      Known ((key, request) :: served) (view final.world) := by
    obtain ⟨left, which, after⟩ := lawful.restored there restored ended
    rw [after]
    exact known_left known there which
  rcases Prog.of_onError_finished ran finished with
    ⟨_, returned⟩ | ⟨middle, _, exception, _, ending, raised, restored, ended⟩
  · obtain ⟨opened, _, _, _, opens, returned, -⟩ :=
      Prog.of_bind_value returned
    obtain ⟨published, _, _, _, publishes, returned, -⟩ :=
      Prog.of_bind_value returned
    obtain ⟨knownOpen, -⟩ := lawful.opens known there opens
    have kept := lawful.published connection opened
    rw [publishes] at kept
    have after := quiet published
    rw [returned] at after
    rw [after, kept]
    exact knownOpen
  · rcases Prog.of_bind_finished raised trivial with
      ⟨_, failed, -⟩ | ⟨opened, _, _, _, opens, raised⟩
    · obtain ⟨left, which, after⟩ := lawful.failed there failed restored ended
      rw [after]
      exact known_left more there which
    · obtain ⟨knownOpen, cred, thereOpen⟩ := lawful.opens known there opens
      have kept := lawful.published connection opened
      rcases Prog.of_bind_finished raised trivial with
        ⟨_, failed, -⟩ | ⟨published, _, _, _, publishes, raised⟩
      · rw [failed] at kept
        exact cleaned (kept.symm ▸ knownOpen) (kept.symm ▸ thereOpen) restored
          ended
      · rw [publishes] at kept
        have after := quiet published
        rw [raised] at after
        have same : view middle.world = view opened.world := after.trans kept
        exact cleaned (same.symm ▸ knownOpen) (same.symm ▸ thereOpen) restored
          ended

/-- Every use of the pool leaves it with connections that were opened for
requests it has served. -/
theorem Lawful.serves (lawful : lending.Lawful view key request)
    {body : M W Unit}
    (quiet : ∀ state, view (body state).state.world = view state.world)
    {state final : St W} {out : Str} {outcome : Outcome Exc Unit}
    (known : Known served (view state.world))
    (ran : lending.execute body state = ⟨final, out, outcome⟩)
    (finished : outcome.Finished) :
    Known ((key, request) :: served) (view final.world) := by
  rcases Prog.of_bind_finished ran finished with
    ⟨exception, failed, -⟩ | ⟨taken, connection, _, _, acquired, ran⟩
  · rw [lawful.refused (io_eq failed)]
    exact known.mono fun _ => List.mem_cons_of_mem _
  · obtain ⟨knownTaken, found, there⟩ :=
      known.acquired (lawful.acquired (io_eq acquired))
    rcases Prog.of_bind_finished ran finished with
      ⟨_, failed, -⟩ | ⟨entered, _, _, _, enters, ran⟩
    · cases failed
    · cases enters
      have same : view (taken.mapHead Context.enter).world =
          view taken.world := rfl
      rcases Prog.of_bind_finished ran finished with
        ⟨exception, raised, -⟩ | ⟨middle, _, _, _, returned, ran⟩
      · exact lawful.inside quiet (same ▸ knownTaken) (same ▸ there) raised
          trivial
      · have inside := lawful.inside quiet (same ▸ knownTaken)
          (same ▸ there) returned trivial
        have left := M.leave_world middle
        rw [ran] at left
        rw [left]
        exact inside

end Serving

end Lending

/-- The modules that take their connections from a pool. -/
inductive PoolModule where
  | redis
  | odbc
  deriving DecidableEq

/-- The parameters of a connection tag; redis has no user. -/
structure PoolRequest where
  source : Str
  user : Str
  password : Str
  id : Str

namespace PoolModule

variable (interp : Interp W)

/-- The `execute` method of the tag. -/
def execute (self : Loc) (caller : Option Loc) : PoolModule → M W Unit
  | .redis => Redis.TagConnection.execute interp self caller
  | .odbc => Odbc.TagDatabase.execute interp self caller

/-- The parameters, read in the order of the tag. -/
def asks (self : Loc) : PoolModule → M W PoolRequest
  | .redis => do
      let server ← interp.getParameter self "server"
      let password ← interp.getParameter self "password"
      let id ← interp.getParameter self "id"
      pure ⟨server, [], password, id⟩
  | .odbc => do
      let dsn ← interp.getParameter self "dsn"
      let user ← interp.getParameter self "user"
      let password ← interp.getParameter self "password"
      let id ← interp.getParameter self "id"
      pure ⟨dsn, user, password, id⟩

/-- The credentials of the tag: redis replaces what is missing by the
settings of the module. -/
def credentials (request : PoolRequest) : PoolModule → Credentials
  | .redis =>
      ⟨if request.source.isEmpty then interp.outside.redis.server
        else request.source, [],
      if request.password.isEmpty then interp.outside.redis.password
        else request.password⟩
  | .odbc => ⟨request.source, request.user, request.password⟩

/-- The text the connection is filed under. -/
def key (request : PoolRequest) : PoolModule → Str
  | .redis =>
      (credentials interp request .redis).source ++ request.id
  | .odbc => request.source ++ request.user ++ request.password

def handle : PoolModule → String
  | .redis => Redis.connectionHandle
  | .odbc => Odbc.databaseHandle

def lending (self : Loc) (request : PoolRequest) : PoolModule → Lending W
  | .redis =>
      let redis := interp.outside.redis
      let credentials := credentials interp request .redis
      { acquire := redis.acquire (key interp request .redis)
        opening := fun connection => do
          let isConfigured ← M.io (redis.isConfigured connection)
          Prog.when (!isConfigured) do
            M.io (redis.configure connection credentials.source)
            Prog.when (!credentials.password.isEmpty)
              (M.io (redis.login connection credentials.password))
            Prog.when (redis.databaseNumber > 0)
              (M.io (redis.selectDatabase connection redis.databaseNumber))
        publish := fun connection =>
          M.addValue interp.dcl
            (Redis.connectionHandle.toList ++ request.id)
            (interp.dcl.toStringPtr connection)
        restore := fun connection => do
          M.change (redis.reset connection)
          M.leave }
  | .odbc =>
      { acquire := interp.outside.odbc.acquire (key interp request .odbc)
        opening := fun connection => do
          let isOpen ← M.io (interp.outside.odbc.isOpen connection)
          Prog.when (!isOpen)
            (M.io (interp.outside.odbc.openConnection connection
              request.source request.user request.password))
        publish := fun connection => do
          let id ← interp.getParameter self "id"
          M.addValue interp.dcl (Odbc.databaseHandle.toList ++ id)
            (interp.dcl.toStringPtr connection)
        restore := fun connection => do
          (M.io (interp.outside.odbc.close connection)).onError
            (M.record (.leak .odbcClose))
          M.leave }

/-- A tag without a data source raises. -/
def check (request : PoolRequest) : PoolModule → M W Unit
  | .redis => pure ()
  | .odbc =>
      Prog.when request.source.isEmpty
        (Prog.throw (interp.dcl.exception
          "data source name (dsn) is not defined" []))

/-- A layer and a cleanup that always returns. -/
theorem withLayer_onError (body : M W Unit) (reset : W → W) :
    M.withLayer (body.onError (M.change reset)) =
      (M.enter >>= fun _ =>
        body.onError (M.change reset >>= fun _ => M.leave) >>= fun _ =>
          M.leave) := by
  have returns (state : St W) : ∃ final,
      (M.change reset : M W Unit) state = ⟨final, [], .value ()⟩ :=
    ⟨_, rfl⟩
  have last : (M.leave >>= fun _ => pure () : M W Unit) = M.leave :=
    Prog.bind_pure M.leave
  rw [← Prog.onError_onError returns M.leave body]
  unfold M.withLayer
  change (M.enter >>= fun _ =>
    (body.onError (M.change reset)).onError M.leave >>= fun _ =>
      (M.leave >>= fun _ => pure () : M W Unit)) = _
  rw [last]

/-- Both tags have one shape. -/
theorem execute_eq (kind : PoolModule) (self : Loc) (caller : Option Loc) :
    kind.execute interp self caller =
      (kind.asks interp self >>= fun request =>
        kind.check interp request >>= fun _ =>
          M.getValue (kind.handle.toList ++ request.id) >>= fun pointer =>
            if !pointer.isEmpty then interp.executeChilds self caller
            else (kind.lending interp self request).execute
              (interp.executeChilds self caller)) := by
  cases kind with
  | redis =>
      unfold execute Redis.TagConnection.execute asks lending Lending.execute
      simp only [withLayer_onError, Prog.bind_assoc]
      rfl
  | odbc =>
      unfold asks lending Lending.execute
      simp only [Prog.bind_assoc]
      rfl

/-- The connections of `dcl`. -/
structure OdbcLaws (api : OdbcApi W) (view : W → Items Str Credentials) :
    Prop where
  pool : PoolLaws view api.acquire
  asked : ∀ connection world,
    view (api.isOpen connection world).1 = view world
  answer : ∀ {connection world after answer key found},
    api.isOpen connection world = (after, .value answer) →
    view world connection = some ⟨key, found⟩ → answer = found.isSome
  opened : ∀ {connection dsn user password world after key},
    api.openConnection connection dsn user password world =
      (after, .value ()) →
    view world connection = some ⟨key, none⟩ →
    view after = (view world).set connection key (some ⟨dsn, user, password⟩)
  unopened : ∀ {connection dsn user password world after exception},
    api.openConnection connection dsn user password world =
      (after, .error exception) →
    view after = view world
  closed : ∀ {connection world key found},
    view world connection = some ⟨key, found⟩ →
    ∃ left, (left = none ∨ left = found) ∧
      view (api.close connection world).1 =
        (view world).set connection key left

/-- How the connections of a module behave: those of redis are objects of
class `redis_connection`. -/
def Laws (view : W → Items Str Credentials) : PoolModule → Prop
  | .redis => ∃ memory : RedisMemory W,
      interp.outside.redis = memory.api interp.dcl ∧
        memory.view = view ∧ PoolLaws memory.view memory.acquire
  | .odbc => OdbcLaws interp.outside.odbc view

/-- The tag names a server to connect to. -/
def Reachable (request : PoolRequest) : PoolModule → Prop
  | .redis => interp.dcl.tokens (interp.dcl.trim
      (credentials interp request .redis).source) ≠ []
  | .odbc => True

/-- Neither the body of a tag nor its parameters use the pool. -/
structure Undisturbed (view : W → Items Str Credentials) (loc : Loc)
    (caller : Option Loc) : Prop where
  childs : ∀ tag ∈ loc.tag.childs, ∀ state,
    view (interp.run (loc.child tag) caller state).state.world =
      view state.world
  params : ∀ param ∈ loc.tag.params, ∀ state,
    view (interp.executeParam loc param.2 state).state.world =
      view state.world

section Laws

variable {interp} {view : W → Items Str Credentials} {request : PoolRequest}
  {self : Loc} {connection : Nat} {key : Str} {found : Option Credentials}
  {state final : St W} {out : Str}

/-- The program changes nothing in the pool but the item. -/
def Touches {α : Type} (view : W → Items Str Credentials) (connection : Nat)
    (key : Str) (program : M W α) : Prop :=
  ∀ state found, view state.world connection = some ⟨key, found⟩ →
    ∃ left, view (program state).state.world =
      (view state.world).set connection key left

namespace Touches

variable {α β : Type}

theorem pure (result : α) :
    Touches view connection key (Pure.pure result : M W α) := by
  intro state found there
  exact ⟨found, (Items.set_same there).symm⟩

theorem bind {first : M W α} {next : α → M W β}
    (touches : Touches view connection key first)
    (rest : ∀ result, Touches view connection key (next result)) :
    Touches view connection key (first >>= next) := by
  intro state found there
  obtain ⟨left, after⟩ := touches state found there
  cases ran : first state with
  | mk middle out outcome =>
      rw [ran] at after
      cases outcome with
      | value result =>
          rw [Prog.bind_eq ran]
          have thereNow : view middle.world connection = some ⟨key, left⟩ := by
            rw [after]
            exact Items.set_self ..
          obtain ⟨last, later⟩ := rest result middle left thereNow
          rw [after, Items.set_set] at later
          exact ⟨last, later⟩
      | error exception =>
          rw [Prog.bind_error ran]
          exact ⟨left, after⟩
      | halt reason =>
          rw [Prog.bind_halt ran]
          exact ⟨left, after⟩

theorem when {condition : Bool} {body : M W Unit}
    (touches : Touches view connection key body) :
    Touches view connection key (Prog.when condition body) := by
  cases condition with
  | true => exact touches
  | false => exact pure ()

end Touches

section RedisModule

variable (laws : RedisLaws interp.dcl interp.outside.redis view)
include laws

theorem redis_opened (reachable : Reachable interp request .redis)
    (there : view state.world connection = some ⟨key, found⟩)
    (ran : (lending interp self request .redis).opening connection state =
      ⟨final, out, .value ()⟩) :
    view final.world =
      if found.isSome then view state.world
      else (view state.world).set connection key
        (some (credentials interp request .redis)) := by
  obtain ⟨middle, answer, _, _, asked, ran, -⟩ := Prog.of_bind_value ran
  have kept : view middle.world = view state.world := by
    have same := laws.asked connection state.world
    rw [Lending.io_eq asked] at same
    exact same
  have told := laws.answer (Lending.io_eq asked) there
  cases found with
  | some opened =>
      subst told
      cases ran
      exact kept
  | none =>
      subst told
      obtain ⟨configured, _, _, _, configures, ran, -⟩ :=
        Prog.of_bind_value ran
      have connected := laws.configured (Lending.io_eq configures)
        (kept ▸ there)
      have some_host : (interp.dcl.tokens (interp.dcl.trim
          (credentials interp request .redis).source)).isEmpty = false :=
        List.isEmpty_eq_false_iff.mpr reachable
      rw [some_host, kept, if_neg Bool.false_ne_true] at connected
      obtain ⟨loggedIn, _, _, _, logsIn, ran, -⟩ := Prog.of_bind_value ran
      have authenticated : view loggedIn.world =
          (view state.world).set connection key
            (some (credentials interp request .redis)) := by
        cases password : (credentials interp request .redis).password with
        | nil =>
            rw [password] at logsIn
            cases logsIn
            have same : Credentials.mk (credentials interp request
                .redis).source [] [] = credentials interp request .redis :=
              congrArg (Credentials.mk _ []) password.symm
            rw [connected, same]
        | cons c rest =>
            have sent : (!(credentials interp request
                .redis).password.isEmpty) = true := by
              rw [password]
              rfl
            rw [sent] at logsIn
            have there : view configured.world connection =
                some ⟨key, some ⟨(credentials interp request .redis).source,
                  [], []⟩⟩ := by
              rw [connected]
              exact Items.set_self ..
            have after : view loggedIn.world = _ :=
              laws.loggedIn (Lending.io_eq logsIn) there
            rw [after, connected, Items.set_set]
            rfl
      have unchanged : view final.world = view loggedIn.world := by
        unfold Prog.when at ran
        split at ran
        · have same := laws.selected connection
            interp.outside.redis.databaseNumber loggedIn.world
          rw [Lending.io_eq ran] at same
          exact same
        · cases ran
          rfl
      rw [unchanged]
      exact authenticated

/-- Whatever the opening does, it does to the item. -/
theorem redis_touches :
    Touches view connection key
      ((lending interp self request .redis).opening connection) := by
  have quiet {α : Type} {operation : Io W α}
      (same : ∀ world, view (operation world).1 = view world) :
      Touches view connection key (M.io operation) := by
    intro state found there
    exact ⟨found, (same state.world).trans (Items.set_same there).symm⟩
  apply Touches.bind (quiet (laws.asked connection))
  intro isConfigured
  apply Touches.when
  apply Touches.bind
  · intro state found there
    exact laws.configures _ there
  intro _
  apply Touches.bind
  · apply Touches.when
    intro state found there
    exact laws.logsIn _ there
  intro _
  exact Touches.when (quiet (laws.selected connection _))

theorem redis_restored {outcome : Outcome Exc Unit}
    (there : view state.world connection = some ⟨key, found⟩)
    (ran : (lending interp self request .redis).restore connection state =
      ⟨final, out, outcome⟩) :
    view final.world = (view state.world).set connection key none := by
  have left : (M.leave { state with
      world := interp.outside.redis.reset connection state.world }) =
      ⟨final, out, outcome⟩ := ran
  have same := M.leave_world { state with
    world := interp.outside.redis.reset connection state.world }
  rw [left] at same
  rw [← laws.reset there]
  exact congrArg view same

end RedisModule

section OdbcModule

variable (laws : OdbcLaws interp.outside.odbc view)
include laws

theorem odbc_opened
    (there : view state.world connection = some ⟨key, found⟩)
    (ran : (lending interp self request .odbc).opening connection state =
      ⟨final, out, .value ()⟩) :
    view final.world =
      if found.isSome then view state.world
      else (view state.world).set connection key
        (some (credentials interp request .odbc)) := by
  obtain ⟨middle, answer, _, _, asked, ran, -⟩ := Prog.of_bind_value ran
  have kept : view middle.world = view state.world := by
    have same := laws.asked connection state.world
    rw [Lending.io_eq asked] at same
    exact same
  have told := laws.answer (Lending.io_eq asked) there
  cases found with
  | some opened =>
      subst told
      cases ran
      exact kept
  | none =>
      subst told
      have after := laws.opened (Lending.io_eq ran) (kept ▸ there)
      rw [kept] at after
      exact after

/-- An opening that raises leaves the item alone. -/
theorem odbc_failed {exception : Exc}
    (ran : (lending interp self request .odbc).opening connection state =
      ⟨final, out, .error exception⟩) :
    view final.world = view state.world := by
  have asked := laws.asked connection state.world
  rcases Prog.of_bind_finished ran trivial with
    ⟨_, raised, -⟩ | ⟨middle, answer, _, _, told, ran⟩
  · rw [Lending.io_eq raised] at asked
    exact asked
  · rw [Lending.io_eq told] at asked
    cases answer with
    | true => cases ran
    | false => exact (laws.unopened (Lending.io_eq ran)).trans asked

theorem odbc_restored {outcome : Outcome Exc Unit}
    (there : view state.world connection = some ⟨key, found⟩)
    (ran : (lending interp self request .odbc).restore connection state =
      ⟨final, out, outcome⟩) :
    ∃ left, (left = none ∨ left = found) ∧
      view final.world = (view state.world).set connection key left := by
  obtain ⟨left, which, after⟩ := laws.closed there
  refine ⟨left, which, ?_⟩
  rw [← after]
  have leaves : ∀ (_ : Unit) (state : St W),
      (M.leave state).state.world = state.world :=
    fun _ state => M.leave_world state
  have closing := (Prog.view_bind leaves
    ((M.io (interp.outside.odbc.close connection)).onError
      (M.record (.leak .odbcClose))) state).trans
    (Prog.view_onError (fun _ => rfl)
      (M.io (interp.outside.odbc.close connection)) state)
  have same : final.world = _ := (congrArg (St.world ∘ Run.state) ran).symm
  exact congrArg view (same.trans closing)

end OdbcModule

variable {caller : Option Loc}

theorem getParameter_view (undisturbed : Undisturbed interp view self caller)
    (name : String) (state : St W) :
    view (interp.getParameter self name state).state.world =
      view state.world := by
  unfold Interp.getParameter
  cases found : self.findParam name.toList with
  | none => rfl
  | some text =>
      obtain ⟨param, there, rfl⟩ := Option.map_eq_some_iff.mp found
      exact undisturbed.params param (List.mem_of_find?_eq_some there) state

theorem executeChilds_view (undisturbed : Undisturbed interp view self caller)
    (state : St W) :
    view (interp.executeChilds self caller state).state.world =
      view state.world := by
  let shown : St W → Items Str Credentials := fun state => view state.world
  have loop (tags : List Tag)
      (quiet : ∀ tag ∈ tags, ∀ state,
        shown (interp.run (self.child tag) caller state).state = shown state)
      (state : St W) :
      shown (Prog.forEach (fun tag => interp.run (self.child tag) caller)
        tags state).state = shown state := by
    induction tags generalizing state with
    | nil => rfl
    | cons tag tags induction =>
        have rest := induction fun other member =>
          quiet other (List.mem_cons_of_mem tag member)
        exact (Prog.view_bind (fun _ state => rest state) _ state).trans
          (quiet tag List.mem_cons_self state)
  have emits (_ : Unit) (state : St W) :
      shown ((Prog.emit self.tag.text : M W Unit) state).state =
        shown state := rfl
  exact (Prog.view_bind emits _ state).trans
    (loop self.tag.childs undisturbed.childs state)

theorem asks_view (undisturbed : Undisturbed interp view self caller)
    (kind : PoolModule) (state : St W) :
    view (kind.asks interp self state).state.world = view state.world := by
  let shown : St W → Items Str Credentials := fun state => view state.world
  have parameter (name : String) (state : St W) :
      shown (interp.getParameter self name state).state = shown state :=
    getParameter_view undisturbed name state
  have reads {α : Type} (name : String) {next : Str → M W α}
      (keeps : ∀ text state, shown (next text state).state = shown state)
      (state : St W) :
      shown ((interp.getParameter self name >>= next) state).state =
        shown state :=
    (Prog.view_bind keeps _ state).trans (parameter name state)
  cases kind with
  | redis =>
      apply reads
      intro server
      apply reads
      intro password
      apply reads
      intro id state
      rfl
  | odbc =>
      apply reads
      intro dsn
      apply reads
      intro user
      apply reads
      intro password
      apply reads
      intro id state
      rfl

/-- The tags treat the pool as a lending must. -/
theorem lawful (kind : PoolModule) (laws : kind.Laws interp view)
    (undisturbed : Undisturbed interp view self caller)
    (reachable : kind.Reachable interp request) :
    (kind.lending interp self request).Lawful view (kind.key interp request)
      (kind.credentials interp request) := by
  cases kind with
  | redis =>
      obtain ⟨memory, objects, same, pool⟩ := laws
      have laws := RedisMemory.redisLaws interp.dcl pool
      rw [← objects, same] at laws
      constructor
      · exact laws.pool.acquired
      · exact laws.pool.refused
      · intro connection state final out found there ran
        exact redis_opened laws reachable there ran
      · intro connection state middle final out after exception outcome found
          there ran restored finished
        obtain ⟨left, opened⟩ := redis_touches laws state found there
        rw [ran] at opened
        have thereNow : view middle.world connection =
            some ⟨PoolModule.key interp request .redis, left⟩ := by
          rw [opened]
          exact Items.set_self ..
        have cleaned := redis_restored laws thereNow restored
        rw [opened, Items.set_set] at cleaned
        exact ⟨none, .inl rfl, cleaned⟩
      · intro connection state
        exact congrArg view (M.addValue_world _ _ _ state)
      · intro connection state final out outcome found there restored finished
        exact ⟨none, .inl rfl, redis_restored laws there restored⟩
  | odbc =>
      have laws : OdbcLaws interp.outside.odbc view := laws
      constructor
      · exact laws.pool.acquired
      · exact laws.pool.refused
      · intro connection state final out found there ran
        exact odbc_opened laws there ran
      · intro connection state middle final out after exception outcome found
          there ran restored finished
        have same := odbc_failed laws ran
        obtain ⟨left, which, cleaned⟩ :=
          odbc_restored laws (same ▸ there) restored
        rw [same] at cleaned
        exact ⟨left, which, cleaned⟩
      · intro connection state
        let shown : St W → Items Str Credentials := fun state =>
          view state.world
        have publishes (id : Str) (state : St W) :
            shown ((M.addValue interp.dcl (Odbc.databaseHandle.toList ++ id)
              (interp.dcl.toStringPtr connection)) state).state =
              shown state :=
          congrArg view (M.addValue_world interp.dcl _ _ state)
        have kept := Prog.view_bind publishes
          (interp.getParameter self "id") state
        exact kept.trans (getParameter_view undisturbed "id" state)
      · intro connection state final out outcome found there restored finished
        exact odbc_restored laws there restored

end Laws

/-- The keys and the credentials of the tags that have been executed. -/
def served (requests : List PoolRequest) (kind : PoolModule) :
    List (Str × Credentials) :=
  requests.map fun request =>
    (kind.key interp request, kind.credentials interp request)

/-- The worlds that a sequence of connection tags can lead to, the last tag
first.  Between two tags anything may happen that does not use the pool. -/
inductive Reaches (kind : PoolModule) (view : W → Items Str Credentials) :
    List PoolRequest → W → Prop where
  | start {world : W} : view world = (fun _ => none) →
      Reaches kind view [] world
  | idle {requests : List PoolRequest} {world other : W} :
      Reaches kind view requests world → view other = view world →
      Reaches kind view requests other
  | next {requests : List PoolRequest} {request : PoolRequest} {self : Loc}
      {caller : Option Loc} {state middle final : St W} {written out : Str}
      {outcome : Outcome Exc Unit} :
      Reaches kind view requests state.world →
      Undisturbed interp view self caller →
      kind.asks interp self state = ⟨middle, written, .value request⟩ →
      kind.execute interp self caller state = ⟨final, out, outcome⟩ →
      outcome.Finished →
      Reaches kind view (request :: requests) final.world

/-- The tags of the sequence name their servers, and tags with the same key
have the same credentials. -/
structure Distinct (kind : PoolModule) (requests : List PoolRequest) :
    Prop where
  reachable : ∀ request ∈ requests, kind.Reachable interp request
  told : Told (kind.served interp requests)

section Sequence

variable {interp} {kind : PoolModule} {view : W → Items Str Credentials}
  {requests : List PoolRequest} {request : PoolRequest} {self : Loc}
  {caller : Option Loc}

theorem Distinct.tail (distinct : kind.Distinct interp (request :: requests)) :
    kind.Distinct interp requests := by
  constructor
  · intro other member
    exact distinct.reachable other (List.mem_cons_of_mem _ member)
  · intro key first second one two
    exact distinct.told key first second (List.mem_cons_of_mem _ one)
      (List.mem_cons_of_mem _ two)

/-- A test that raises leaves the world alone. -/
theorem check_world (kind : PoolModule) (request : PoolRequest)
    (state : St W) :
    (kind.check interp request state).state = state := by
  cases kind with
  | redis => rfl
  | odbc =>
      unfold check Prog.when
      cases request.source.isEmpty with
      | true => rfl
      | false => rfl

/-- One tag: the pool knows its request, or has not been used. -/
theorem execute_known (laws : kind.Laws interp view)
    (undisturbed : Undisturbed interp view self caller)
    (reachable : kind.Reachable interp request)
    {state middle final : St W} {written out : Str}
    {outcome : Outcome Exc Unit}
    (known : Known (kind.served interp requests) (view state.world))
    (asked : kind.asks interp self state = ⟨middle, written, .value request⟩)
    (ran : kind.execute interp self caller state = ⟨final, out, outcome⟩)
    (finished : outcome.Finished) :
    Known (kind.served interp (request :: requests)) (view final.world) := by
  have more {world : W} (same : view world = view state.world) :
      Known (kind.served interp (request :: requests)) (view world) := by
    rw [same]
    exact known.mono fun _ => List.mem_cons_of_mem _
  have kept := asks_view undisturbed kind state
  rw [asked] at kept
  have quiet := executeChilds_view undisturbed
  rw [execute_eq] at ran
  rcases Prog.of_bind_finished ran finished with
    ⟨_, raised, -⟩ | ⟨_, _, _, _, again, ran⟩
  · rw [asked] at raised
    cases raised
  · rw [asked] at again
    cases again
    have tested : (kind.check interp request middle).state = middle :=
      check_world kind request middle
    rcases Prog.of_bind_finished ran finished with
      ⟨_, raised, -⟩ | ⟨checked, _, _, _, passed, rest⟩
    · rw [raised] at tested
      obtain rfl : final = middle := tested
      exact more kept
    · rw [passed] at tested
      obtain rfl : checked = middle := tested
      rcases Prog.of_bind_finished rest finished with
        ⟨_, raised, -⟩ | ⟨_, pointer, _, _, got, last⟩
      · cases raised
      · cases got
        split at last
        · have same := quiet checked
          rw [last] at same
          exact more (same.trans kept)
        · exact (lawful kind laws undisturbed reachable).serves quiet
            (kept.symm ▸ known) last finished

/-- After every sequence of tags, the connections of the pool are open for
requests of the sequence. -/
theorem Reaches.known (laws : kind.Laws interp view) {world : W}
    (reached : Reaches interp kind view requests world)
    (distinct : kind.Distinct interp requests) :
    Known (kind.served interp requests) (view world) := by
  induction reached with
  | start empty =>
      rw [empty]
      exact Known.empty
  | idle reached same induction =>
      rw [same]
      exact induction distinct
  | next reached undisturbed asked ran finished induction =>
      apply execute_known laws undisturbed _ (induction distinct.tail) asked
        ran finished
      exact distinct.reachable _ List.mem_cons_self

end Sequence

/-- Everything up to the body of a tag that takes a connection of its own. -/
def handOver (self : Loc) (kind : PoolModule) :
    M W (PoolRequest × Nat) := do
  let request ← kind.asks interp self
  kind.check interp request
  let pointer ← M.getValue (kind.handle.toList ++ request.id)
  if !pointer.isEmpty then Prog.halt .fault
  else do
    let connection ← (kind.lending interp self request).handOver
    pure (request, connection)

/-- The body of the tag, with the clean-up. -/
def body (self : Loc) (caller : Option Loc) (request : PoolRequest)
    (connection : Nat) (kind : PoolModule) : M W Unit := do
  Prog.onError (interp.executeChilds self caller)
    ((kind.lending interp self request).restore connection)
  M.leave

end PoolModule

open PoolModule in
/-- In every sequence of connection tags, the body of a tag starts with a
connection that was opened with the credentials of the tag, if tags with the
same key have the same credentials and every tag names a server. -/
theorem pooled_connection_opened_for_tag {W : Type} (interp : Interp W)
    (kind : PoolModule) (view : W → Items Str Credentials)
    (laws : kind.Laws interp view) (requests : List PoolRequest)
    (request : PoolRequest) (self : Loc) (caller : Option Loc)
    (state start : St W) (written : Str) (connection : Nat)
    (reached : Reaches interp kind view requests state.world)
    (undisturbed : Undisturbed interp view self caller)
    (distinct : kind.Distinct interp (request :: requests))
    (handed : kind.handOver interp self state =
      ⟨start, written, .value (request, connection)⟩) :
    kind.execute interp self caller state =
        Prog.behind written
          (kind.body interp self caller request connection start) ∧
      view start.world connection =
        some ⟨kind.key interp request,
          some (kind.credentials interp request)⟩ := by
  obtain ⟨middle, _, out, _, asked, afterAsks, rfl⟩ :=
    Prog.of_bind_value handed
  obtain ⟨checked, _, _, _, passed, afterCheck, rfl⟩ :=
    Prog.of_bind_value afterAsks
  obtain ⟨_, pointer, _, _, got, afterPointer, rfl⟩ :=
    Prog.of_bind_value afterCheck
  cases got
  split at afterPointer
  · cases afterPointer
  case isFalse unbound =>
    obtain ⟨lent, _, last, _, lends, returned, rfl⟩ :=
      Prog.of_bind_value afterPointer
    cases returned
    have kept : view checked.world = view state.world := by
      have asks := asks_view undisturbed kind state
      have check : (kind.check interp request middle).state = middle :=
        check_world kind request middle
      rw [asked] at asks
      rw [passed] at check
      rw [show checked = middle from check]
      exact asks
    have known := Reaches.known laws reached distinct.tail
    constructor
    · rw [execute_eq, Prog.bind_eq asked, Prog.bind_eq passed,
        Prog.bind_eq (show M.getValue _ checked = ⟨checked, [], .value _⟩
          from rfl)]
      rw [if_neg unbound, Lending.execute_of_handOver _ lends]
      simp only [Prog.behind, List.append_nil, List.append_assoc,
        List.nil_append]
      rfl
    · apply (lawful kind laws undisturbed _).handed (kept.symm ▸ known) _ lends
      · exact distinct.reachable _ List.mem_cons_self
      · exact distinct.told

/-- A pool that keeps its items in a list, with servers that accept every
connection and every command. -/
def shelf : RedisMemory (List (Str × RedisConnection)) where
  server := []
  password := []
  databaseNumber := 0
  acquire := fun key world =>
    match world.findIdx? fun item => item.1 == key with
    | some address => (world, .value address)
    | none => (world ++ [(key, .initial)], .value world.length)
  filed := fun world address => world[address]?
  write := fun address object world =>
    world.modify address fun item => (item.1, object)
  redisConnect := fun _ _ world => (world, some (1, none))
  redisCommand := fun _ _ world => (world, .ok (.status "OK".toList))
  redisFree := fun _ world => world
  filed_write := by
    intro address world key found object there
    funext other
    rw [List.getElem?_modify]
    by_cases same : address = other
    · subst same
      rw [there, Function.update_self]
      simp
    · rw [Function.update_of_ne (Ne.symm same)]
      simp [same]
  filed_connect := fun _ _ _ => rfl
  filed_command := fun _ _ _ => rfl
  filed_free := fun _ _ => rfl

/-- The shelf is a pool. -/
theorem shelf_pool : PoolLaws shelf.view shelf.acquire := by
  constructor
  · intro key world after connection acquired
    change (match world.findIdx? fun item => item.1 == key with
      | some address => _
      | none => _ : List (Str × RedisConnection) × Outcome Exc Nat) = _
      at acquired
    cases found : world.findIdx? fun item => item.1 == key with
    | some address =>
        rw [found] at acquired
        cases acquired
        obtain ⟨short, same, -⟩ :=
          List.findIdx?_eq_some_iff_getElem.mp found
        have there : shelf.view world connection =
            some ⟨key, (world[connection]).2.credentials⟩ := by
          change (world[connection]?).map _ = _
          rw [List.getElem?_eq_getElem short, ← eq_of_beq same]
          rfl
        exact .again there rfl
    | none =>
        rw [found] at acquired
        cases acquired
        apply Acquired.fresh
        · change (world[world.length]?).map _ = _
          simp
        · funext other
          by_cases same : other = world.length
          · subst same
            rw [Items.set_self]
            change ((world ++ [(key, .initial)])[world.length]?).map _ = _
            rw [List.getElem?_concat_length]
            rfl
          · have elsewhere : (shelf.view world).set world.length key none
                other = shelf.view world other := Function.update_of_ne same ..
            rw [elsewhere]
            change ((world ++ [(key, .initial)])[other]?).map _ =
              (world[other]?).map _
            rw [List.getElem?_append]
            split
            · rfl
            · have beyond : world.length < other := by omega
              have last : [(key, RedisConnection.initial)].length ≤
                  other - world.length := by
                simp only [List.length_singleton]
                omega
              rw [List.getElem?_eq_none last,
                List.getElem?_eq_none (Nat.le_of_lt beyond)]
  · intro key world after exception refused
    change (match world.findIdx? fun item => item.1 == key with
      | some address => _
      | none => _ : List (Str × RedisConnection) × Outcome Exc Nat) = _
      at refused
    cases found : world.findIdx? fun item => item.1 == key with
    | some address =>
        rw [found] at refused
        cases refused
    | none =>
        rw [found] at refused
        cases refused

def shelfOutside : Outside (List (Str × RedisConnection)) :=
  { Outside.closed (List (Str × RedisConnection)) with
    redis := shelf.api Dcl.plain }

def shelfInterp : Interp (List (Str × RedisConnection)) :=
  Interp.ofRun shelfOutside 3 (execute shelfOutside 3)

/-- A connection to one server with the given password. -/
def passwordTag (password : String) : Loc :=
  ⟨.mk 1 .redisConnection
    [("server".toList, "s".toList), ("password".toList, password.toList)] []
    [], []⟩

def shelfState : St (List (Str × RedisConnection)) :=
  { contexts := [Context.newLocal]
    vectors := ∅
    maps := ∅
    nextAddr := 1
    world := []
    trace := [] }

/-- The state after a tag with the given password. -/
def afterPassword (password : String) : St (List (Str × RedisConnection)) :=
  (PoolModule.redis.execute shelfInterp (passwordTag password) none
    shelfState).state

theorem passwordTag_undisturbed :
    PoolModule.Undisturbed shelfInterp shelf.view (passwordTag "a")
      none := by
  constructor
  · intro tag member
    cases member
  · intro param member state
    rcases List.mem_cons.mp member with rfl | member
    · rfl
    · rcases List.mem_cons.mp member with rfl | member
      · rfl
      · cases member

/-- Two tags with the same password. -/
theorem pooled_connection_opened_for_tag_twice :
    shelf.view (PoolModule.redis.handOver shelfInterp (passwordTag "a")
      (afterPassword "a")).state.world 0 =
      some ⟨"s".toList, some ⟨"s".toList, [], "a".toList⟩⟩ := by
  have undisturbed := passwordTag_undisturbed
  have asked : PoolModule.redis.asks shelfInterp (passwordTag "a")
      shelfState =
      ⟨shelfState, [], .value ⟨"s".toList, [], "a".toList, []⟩⟩ := rfl
  have ran : PoolModule.redis.execute shelfInterp (passwordTag "a") none
      shelfState = ⟨afterPassword "a", [], .value ()⟩ := rfl
  have empty : shelf.view shelfState.world = fun _ => none := rfl
  apply (pooled_connection_opened_for_tag shelfInterp .redis shelf.view
    ⟨shelf, rfl, rfl, shelf_pool⟩ [⟨"s".toList, [], "a".toList, []⟩]
    ⟨"s".toList, [], "a".toList, []⟩ (passwordTag "a") none
    (afterPassword "a") _ _ 0
    (.next (.start empty) undisturbed asked ran trivial) undisturbed _
    rfl).2
  constructor
  · intro request member
    rcases List.mem_cons.mp member with rfl | member
    · intro unnamed
      cases unnamed
    · rcases List.mem_cons.mp member with rfl | member
      · intro unnamed
        cases unnamed
      · cases member
  · intro key first second one two
    have both {entry : Str × Credentials}
        (member : entry ∈ PoolModule.redis.served shelfInterp
          [⟨"s".toList, [], "a".toList, []⟩,
            ⟨"s".toList, [], "a".toList, []⟩]) :
        entry = ("s".toList, ⟨"s".toList, [], "a".toList⟩) := by
      rcases List.mem_cons.mp member with rfl | member
      · rfl
      · rcases List.mem_cons.mp member with rfl | member
        · rfl
        · cases member
    cases both one
    cases both two
    rfl

/-- A tag with another password gets the connection that was opened with the
first one. -/
theorem reused_connection_keeps_password :
    (PoolModule.redis.handOver shelfInterp (passwordTag "b")
        (afterPassword "a")).outcome =
        .value (⟨"s".toList, [], "b".toList, []⟩, 0) ∧
      shelf.view (PoolModule.redis.handOver shelfInterp (passwordTag "b")
        (afterPassword "a")).state.world 0 =
        some ⟨"s".toList, some ⟨"s".toList, [], "a".toList⟩⟩ := by
  constructor
  · rfl
  · rfl

end DbPager
