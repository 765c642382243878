import DbPager.Library.Effect
import DbPager.Library.Pool
import DbPager.Outside

/-!
# The connections of the redis module

The pool of the redis module holds objects of class `redis_connection`.  They
live in memory, next to the pool's own records; hiredis and the pool are
parameters.  What an object was configured with and which password it has
sent is not kept by the class; the model records both beside it.
-/

namespace DbPager

open Effect

open Pool (Items Item Acquired)

/-- What a connection is opened with. -/
structure Credentials where
  source : Str
  user : Str
  password : Str
  deriving DecidableEq

/-- A pool hands out a new item, or one that it has filed under the key; when
it raises, nothing has changed. -/
structure PoolLaws {W ρ : Type} (view : W → Items Str ρ)
    (acquire : Str → Io W Nat) : Prop where
  acquired : ∀ {key world after connection},
    acquire key world = (after, .value connection) →
    Acquired key (view world) (view after) connection
  refused : ∀ {key world after exception},
    acquire key world = (after, .error exception) → view after = view world

/-- The members of `redis_connection`; `opened` is the record of the model. -/
structure RedisConnection where
  c : Option Nat
  configured : Bool
  opened : Credentials

namespace RedisConnection

/-- The constructor. -/
def initial : RedisConnection :=
  ⟨none, false, ⟨[], [], []⟩⟩

/-- What the pool says about the object. -/
def credentials (connection : RedisConnection) : Option Credentials :=
  if connection.configured then some connection.opened else none

end RedisConnection

/-- The memory with the objects of the pool, each under the key it is filed
under, and hiredis.  `redisConnect` gives a context with its error text, or
the null pointer. -/
structure RedisMemory (W : Type) where
  server : Str
  password : Str
  databaseNumber : Nat
  acquire : Str → Io W Nat
  filed : W → Nat → Option (Str × RedisConnection)
  write : Nat → RedisConnection → W → W
  redisConnect : Str → Int → W → W × Option (Nat × Option Str)
  redisCommand : Nat → List Str → W → W × Except Str RedisReply
  redisFree : Nat → W → W
  filed_write : ∀ {address world key found} object,
    filed world address = some (key, found) →
    filed (write address object world) =
      Function.update (filed world) address (some (key, object))
  filed_connect : ∀ host port world,
    filed (redisConnect host port world).1 = filed world
  filed_command : ∀ context arguments world,
    filed (redisCommand context arguments world).1 = filed world
  filed_free : ∀ context world, filed (redisFree context world) = filed world

namespace RedisMemory

variable {W : Type} (memory : RedisMemory W)

/-- A member function: it works on the world and on its object. -/
abbrev Method (W α : Type) := Prog (W × RedisConnection) Exc Char α

/-- `redisConnect`, with the test of its result. -/
def connectTo (server host : Str) (port : Int) : Method W Unit := do
  let context ← Prog.act fun (world, object) =>
    let (world, context) := memory.redisConnect (cString host) port world
    ((world, { object with c := context.map Prod.fst }), .value context)
  match context with
  | none => Prog.halt .fault
  | some (_, some errstr) => Prog.throw (.dbp errstr)
  | some (_, none) => Prog.modify fun state =>
      (state.1, { state.2 with
        configured := true
        opened := ⟨server, [], []⟩ })

/-- The port, if the text names one. -/
def portOf (dcl : Dcl) (hp : List Str) : Method W Int :=
  match hp[1]? with
  | some text =>
      Prog.orThrow (dcl.conversionException (dcl.trim text))
        (dcl.fromStringInt (dcl.trim text))
  | none => pure 6379

/-- The body of the loop of `configure`. -/
def configureHost (dcl : Dcl) (server hostAndPort : Str) :
    Method W Unit := do
  let hp := dcl.tokenize hostAndPort ":".toList
  let port ← portOf dcl hp
  match hp[0]? with
  | some host => memory.connectTo server (dcl.trim host) port
  | none => Prog.halt .fault

def configure (dcl : Dcl) (server : Str) : Method W Unit :=
  Prog.forEach (memory.configureHost dcl server)
    (dcl.tokens (dcl.trim server))

/-- A command on the context of the object; without a reply it raises. -/
def command (arguments : List Str) : Method W Unit := do
  let reply ← Prog.act fun (world, object) =>
    match object.c with
    | some context =>
        let (world, reply) := memory.redisCommand context arguments world
        ((world, object), .value reply)
    | none => ((world, object), .halt .fault)
  match reply with
  | .ok _ => pure ()
  | .error errstr => Prog.throw (.dbp errstr)

def login (password : Str) : Method W Unit := do
  let configured ← Prog.read fun state => state.2.configured
  Prog.when configured do
    memory.command ["AUTH".toList, cString password]
    Prog.modify fun state =>
      (state.1, { state.2 with opened := { state.2.opened with password } })

def selectDatabase (dcl : Dcl) (database : Nat) : Method W Unit := do
  let configured ← Prog.read fun state => state.2.configured
  Prog.when configured
    (memory.command ["SELECT".toList, dcl.toStringInt database])

/-- Run a member function on an object of the pool. -/
def run {α : Type} (address : Nat) (method : Method W α) : Io W α :=
  fun world =>
    match memory.filed world address with
    | some (_, object) =>
        let result := method (world, object)
        (memory.write address result.state.2 result.state.1, result.outcome)
    | none => (world, .halt .fault)

/-- `if (c) redisFree(c)`. -/
def free (object : RedisConnection) (world : W) : W :=
  match object.c with
  | some context => memory.redisFree context world
  | none => world

def reset (address : Nat) (world : W) : W :=
  match memory.filed world address with
  | some (_, object) =>
      memory.write address { object with c := none, configured := false }
        (memory.free object world)
  | none => world

/-- The operations the tags use. -/
def api (dcl : Dcl) : RedisApi W where
  server := memory.server
  password := memory.password
  databaseNumber := memory.databaseNumber
  acquire := memory.acquire
  isConfigured := fun address world =>
    match memory.filed world address with
    | some (_, object) => (world, .value object.configured)
    | none => (world, .halt .fault)
  configure := fun address server =>
    memory.run address (memory.configure dcl server)
  login := fun address password => memory.run address (memory.login password)
  selectDatabase := fun address database =>
    memory.run address (memory.selectDatabase dcl database)
  reset := memory.reset
  command := fun address arguments world =>
    match memory.filed world address with
    | some (_, { c := some context, .. }) =>
        let (world, reply) := memory.redisCommand context arguments world
        (world, .value reply)
    | _ => (world, .halt .fault)

/-- The objects as items of the pool. -/
def view (world : W) : Items Str Credentials := fun address =>
  (memory.filed world address).map fun (key, object) =>
    ⟨key, object.credentials⟩

end RedisMemory

/-- How the objects of the pool behave: an object is configured when
`configure` has connected it to at least one host; `login` says which
password was sent. -/
structure RedisLaws {W : Type} (dcl : Dcl) (api : RedisApi W)
    (view : W → Items Str Credentials) : Prop where
  pool : PoolLaws view api.acquire
  asked : ∀ connection world,
    view (api.isConfigured connection world).1 = view world
  answer : ∀ {connection world after answer key found},
    api.isConfigured connection world = (after, .value answer) →
    view world connection = some ⟨key, found⟩ → answer = found.isSome
  configured : ∀ {connection server world after key},
    api.configure connection server world = (after, .value ()) →
    view world connection = some ⟨key, none⟩ →
    view after = (view world).set connection key
      (if (dcl.tokens (dcl.trim server)).isEmpty then none
        else some ⟨server, [], []⟩)
  configures : ∀ {connection world key found} server,
    view world connection = some ⟨key, found⟩ →
    ∃ left, view (api.configure connection server world).1 =
      (view world).set connection key left
  loggedIn : ∀ {connection password world after key found},
    api.login connection password world = (after, .value ()) →
    view world connection = some ⟨key, found⟩ →
    view after = (view world).set connection key
      (found.map fun opened => { opened with password })
  logsIn : ∀ {connection world key found} password,
    view world connection = some ⟨key, found⟩ →
    ∃ left, view (api.login connection password world).1 =
      (view world).set connection key left
  selected : ∀ connection number world,
    view (api.selectDatabase connection number world).1 = view world
  reset : ∀ {connection world key found},
    view world connection = some ⟨key, found⟩ →
    view (api.reset connection world) =
      (view world).set connection key none

namespace RedisMemory

variable {W : Type} {memory : RedisMemory W} {α β : Type}
  {state final : W × RedisConnection} {out : Str}

/-- The member function changes no object but its own. -/
def Private (memory : RedisMemory W) (method : Method W α) : Prop :=
  ∀ state, memory.filed (method state).state.1 = memory.filed state.1

namespace Private

theorem bind {first : Method W α} {next : α → Method W β}
    (here : Private memory first)
    (there : ∀ result, Private memory (next result)) :
    Private memory (first >>= next) := by
  intro state
  let shown : W × RedisConnection → _ := fun state => memory.filed state.1
  have kept : ∀ result state,
      shown (next result state).state = shown state := there
  exact (Prog.view_bind kept first state).trans (here state)

theorem forEach {body : α → Method W Unit}
    (each : ∀ item, Private memory (body item)) (items : List α) :
    Private memory (Prog.forEach body items) := by
  induction items with
  | nil =>
      intro state
      rfl
  | cons item items induction => exact bind (each item) fun _ => induction

theorem when {condition : Bool} {body : Method W Unit}
    (inside : Private memory body) :
    Private memory (Prog.when condition body) := by
  intro state
  cases condition with
  | true => exact inside state
  | false => rfl

end Private

theorem portOf_state (dcl : Dcl) (hp : List Str)
    (state : W × RedisConnection) :
    (portOf dcl hp state).state = state := by
  unfold portOf
  cases hp[1]? with
  | none => rfl
  | some text =>
      change ((Prog.orThrow _ (dcl.fromStringInt (dcl.trim text)) :
        Method W Int) state).state = state
      cases dcl.fromStringInt (dcl.trim text) with
      | none => rfl
      | some port => rfl

theorem connectTo_private (server host : Str) (port : Int) :
    Private memory (memory.connectTo server host port) := by
  apply Private.bind
  · intro state
    exact memory.filed_connect (cString host) port state.1
  · intro context state
    match context with
    | none => rfl
    | some (_, some _) => rfl
    | some (_, none) => rfl

theorem configure_private (dcl : Dcl) (server : Str) :
    Private memory (memory.configure dcl server) := by
  apply Private.forEach
  intro hostAndPort
  apply Private.bind
  · intro state
    rw [portOf_state]
  · intro port
    cases (dcl.tokenize hostAndPort ":".toList)[0]? with
    | none =>
        intro state
        rfl
    | some host => exact connectTo_private server _ port

theorem command_private (arguments : List Str) :
    Private memory (memory.command arguments) := by
  apply Private.bind
  · intro state
    obtain ⟨world, object⟩ := state
    change memory.filed (match object.c with
      | some context => _
      | none => _ : (W × RedisConnection) × _).1.1 = _
    cases object.c with
    | none => rfl
    | some context => exact memory.filed_command context arguments world
  · intro reply state
    cases reply with
    | ok reply => rfl
    | error errstr => rfl

theorem login_private (password : Str) :
    Private memory (memory.login password) := by
  apply Private.bind
  · intro state
    rfl
  · intro configured
    apply Private.when
    apply Private.bind (command_private _)
    intro _ state
    rfl

theorem selectDatabase_private (dcl : Dcl) (database : Nat) :
    Private memory (memory.selectDatabase dcl database) := by
  apply Private.bind
  · intro state
    rfl
  · intro configured
    exact Private.when (command_private _)

/-- Writing an object sets its item. -/
theorem view_write {address : Nat} {world after : W} {key : Str}
    {found : RedisConnection} (object : RedisConnection)
    (there : memory.filed world address = some (key, found))
    (kept : memory.filed after = memory.filed world) :
    memory.view (memory.write address object after) =
      (memory.view world).set address key object.credentials := by
  have written := memory.filed_write object
    ((congrFun kept address).trans there)
  funext other
  by_cases same : other = address
  · subst same
    unfold view
    rw [written, Function.update_self, Items.set_self]
    rfl
  · have elsewhere : (memory.view world).set address key
        object.credentials other = memory.view world other :=
      Function.update_of_ne same ..
    rw [elsewhere]
    unfold view
    rw [written, kept, Function.update_of_ne same]

/-- A member function changes the pool at its object. -/
theorem view_run {method : Method W α} (own : Private memory method)
    {address : Nat} {world : W} {key : Str} {object : RedisConnection}
    (there : memory.filed world address = some (key, object)) :
    memory.view (memory.run address method world).1 =
      (memory.view world).set address key
        (method (world, object)).state.2.credentials := by
  have ran : (memory.run address method world).1 =
      memory.write address (method (world, object)).state.2
        (method (world, object)).state.1 := by
    unfold run
    rw [there]
  rw [ran]
  exact view_write _ there (own (world, object))

/-- After the body of the loop, the object is connected. -/
theorem configureHost_value {dcl : Dcl} {server hostAndPort : Str}
    (ran : memory.configureHost dcl server hostAndPort state =
      ⟨final, out, .value ()⟩) :
    final.2.credentials = some ⟨server, [], []⟩ := by
  obtain ⟨middle, port, _, _, -, ran, -⟩ := Prog.of_bind_value ran
  cases first : (dcl.tokenize hostAndPort ":".toList)[0]? with
  | none =>
      rw [first] at ran
      cases ran
  | some host =>
      rw [first] at ran
      obtain ⟨connected, context, _, _, -, ran, -⟩ := Prog.of_bind_value ran
      match context, ran with
      | none, ran => cases ran
      | some (_, some _), ran => cases ran
      | some (_, none), ran =>
          cases ran
          rfl

theorem forEach_configured {dcl : Dcl} {server : Str} (hosts : List Str)
    (ran : Prog.forEach (memory.configureHost dcl server) hosts state =
      ⟨final, out, .value ()⟩) :
    final.2.credentials =
      if hosts.isEmpty then state.2.credentials
      else some ⟨server, [], []⟩ := by
  induction hosts generalizing state out with
  | nil =>
      cases ran
      rfl
  | cons host hosts induction =>
      obtain ⟨middle, _, _, _, first, rest, -⟩ := Prog.of_bind_value ran
      have after := induction rest
      rw [configureHost_value first] at after
      rw [after]
      split
      · rfl
      · rfl

/-- A command does not change the object. -/
theorem command_object (arguments : List Str)
    (state : W × RedisConnection) :
    (memory.command arguments state).state.2 = state.2 := by
  let shown : W × RedisConnection → RedisConnection := Prod.snd
  have kept (reply : Except Str RedisReply) (state : W × RedisConnection) :
      shown ((match reply with
        | .ok _ => pure ()
        | .error errstr => Prog.throw (.dbp errstr) : Method W Unit)
        state).state = shown state := by
    cases reply with
    | ok reply => rfl
    | error errstr => rfl
  apply (Prog.view_bind kept _ state).trans
  obtain ⟨world, object⟩ := state
  change (match object.c with
    | some context => _
    | none => _ : (W × RedisConnection) × _).1.2 = _
  cases object.c with
  | none => rfl
  | some context => rfl

theorem login_credentials {password : Str}
    (ran : memory.login password state = ⟨final, out, .value ()⟩) :
    final.2.credentials =
      state.2.credentials.map fun opened => { opened with password } := by
  obtain ⟨middle, configured, _, _, asked, ran, -⟩ := Prog.of_bind_value ran
  have told : state.2.configured = configured :=
    Outcome.value.inj (congrArg Run.outcome asked)
  obtain rfl : state = middle := congrArg Run.state asked
  unfold RedisConnection.credentials
  rw [told]
  cases configured with
  | false =>
      cases ran
      rw [told]
      rfl
  | true =>
      obtain ⟨sent, _, _, _, sends, ran, -⟩ := Prog.of_bind_value ran
      have kept : (memory.command ["AUTH".toList, cString password]
        state).state.2 = state.2 := command_object _ state
      rw [sends] at kept
      cases ran
      change (if sent.2.configured then some { sent.2.opened with password }
        else none) = _
      rw [show sent.2 = state.2 from kept, told]
      rfl

theorem selectDatabase_object (dcl : Dcl) (database : Nat)
    (state : W × RedisConnection) :
    (memory.selectDatabase dcl database state).state.2 = state.2 := by
  change (Prog.when state.2.configured (memory.command
    ["SELECT".toList, dcl.toStringInt database]) state).state.2 = _
  cases state.2.configured with
  | false => rfl
  | true => exact command_object _ state

/-- What the pool sees of an object. -/
theorem of_view {world : W} {address : Nat} {key : Str}
    {found : Option Credentials}
    (there : memory.view world address = some ⟨key, found⟩) :
    ∃ object, memory.filed world address = some (key, object) ∧
      object.credentials = found := by
  obtain ⟨⟨_, object⟩, filed, same⟩ := Option.map_eq_some_iff.mp there
  cases same
  exact ⟨object, filed, rfl⟩

theorem run_value {method : Method W α} {address : Nat} {world after : W}
    {key : Str} {object : RedisConnection} {result : α}
    (there : memory.filed world address = some (key, object))
    (ran : memory.run address method world = (after, .value result)) :
    ∃ final out, method (world, object) = ⟨final, out, .value result⟩ := by
  unfold run at ran
  rw [there] at ran
  have ended : (method (world, object)).outcome = .value result :=
    congrArg Prod.snd ran
  refine ⟨(method (world, object)).state, (method (world, object)).out, ?_⟩
  rw [← ended]

/-- The class treats the items of the pool as the tag relies on. -/
theorem redisLaws (dcl : Dcl) (pool : PoolLaws memory.view memory.acquire) :
    RedisLaws dcl (memory.api dcl) memory.view := by
  constructor
  case pool => exact pool
  case asked =>
    intro address world
    change memory.view (match memory.filed world address with
      | some (_, object) => _
      | none => _ : W × Outcome Exc Bool).1 = _
    cases memory.filed world address with
    | none => rfl
    | some entry => rfl
  case answer =>
    intro address world after answer key found asked there
    obtain ⟨object, filed, rfl⟩ := of_view there
    change (match memory.filed world address with
      | some (_, object) => _
      | none => _ : W × Outcome Exc Bool) = _ at asked
    rw [filed] at asked
    cases asked
    unfold RedisConnection.credentials
    cases object.configured with
    | false => rfl
    | true => rfl
  case configured =>
    intro address server world after key ran there
    obtain ⟨object, filed, unconfigured⟩ := of_view there
    have changed := view_run (configure_private dcl server) filed
    obtain ⟨final, out, configures⟩ := run_value filed ran
    have ended := forEach_configured _ configures
    change memory.run address (memory.configure dcl server) world = _ at ran
    rw [ran, configures, ended, unconfigured] at changed
    exact changed
  case configures =>
    intro address world key found server there
    obtain ⟨object, filed, -⟩ := of_view there
    exact ⟨_, view_run (configure_private dcl server) filed⟩
  case loggedIn =>
    intro address password world after key found ran there
    obtain ⟨object, filed, rfl⟩ := of_view there
    have changed := view_run (login_private password) filed
    obtain ⟨final, out, logsIn⟩ := run_value filed ran
    have ended := login_credentials logsIn
    change memory.run address (memory.login password) world = _ at ran
    rw [ran, logsIn, ended] at changed
    exact changed
  case logsIn =>
    intro address world key found password there
    obtain ⟨object, filed, -⟩ := of_view there
    exact ⟨_, view_run (login_private password) filed⟩
  case selected =>
    intro address database world
    change memory.view (memory.run address (memory.selectDatabase dcl database)
      world).1 = _
    cases filed : memory.filed world address with
    | none =>
        unfold run
        rw [filed]
    | some entry =>
        obtain ⟨key, object⟩ := entry
        have changed := view_run (selectDatabase_private dcl database) filed
        rw [selectDatabase_object] at changed
        rw [changed]
        apply Items.set_same
        unfold view
        rw [filed]
        rfl
  case reset =>
    intro address world key found there
    obtain ⟨object, filed, -⟩ := of_view there
    have kept : memory.filed (memory.free object world) =
        memory.filed world := by
      unfold free
      cases object.c with
      | none => rfl
      | some context => exact memory.filed_free context world
    change memory.view (memory.reset address world) = _
    unfold reset
    rw [filed]
    exact view_write _ filed kept

end RedisMemory

end DbPager
