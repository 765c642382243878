import DbPager.Library.Effect
import DbPager.Dcl
import DbPager.Plain
import Mathlib.Logic.Function.Basic

/-!
# Connections to memcached

The module with sessions in memcached keeps its connections in a pool.  A
connection has a handle of the library from the start and adds the servers
when it is first used; after an error it frees the handle and forgets it.
The programs of this file write the library calls they make, each with the
handle it is made with.
-/

namespace DbPager.Memcached

open Effect

/-- What matters of a `memcached_st`: the servers that have been added. -/
abbrev Handle := List (Str × Int)

/-- The members of `memcached_connection`. -/
structure Connection where
  mc : Option Handle
  configured : Bool
  deriving DecidableEq

namespace Connection

/-- The constructor. -/
def initial : Connection := ⟨some [], false⟩

/-- After `reset`. -/
def dropped : Connection := ⟨none, false⟩

end Connection

inductive LibraryCall where
  | serverAdd (mc : Option Handle) (host : Str) (port : Int)
  | get (mc : Option Handle) (key : Str)
  | set (mc : Option Handle) (key value : Str) (ttl : Int)
  | strerror (mc : Option Handle)
  | free (mc : Option Handle)

/-- The call has a handle, and one with servers if it needs them. -/
def LibraryCall.Proper : LibraryCall → Prop
  | .serverAdd mc _ _ | .strerror mc | .free mc => mc ≠ none
  | .get mc _ | .set mc _ _ _ => ∃ server rest, mc = some (server :: rest)

/-- The library and the servers: a value, no value, or the text of an error;
and for `memcached_set` the text of an error, if there is one. -/
structure Api (W : Type) where
  get : Option Handle → Str → W → W × Except Str (Option Str)
  set : Option Handle → Str → Str → Int → W → W × Option Str

variable {W α β : Type}

/-- Programs that work on a connection and write library calls. -/
abbrev Method (W α : Type) := Prog (W × Connection) Exc LibraryCall α

def getPtr : Method W (Option Handle) :=
  Prog.read fun state => state.2.mc

def configure (host : Str) (port : Int) : Method W Unit := do
  let mc ← getPtr
  Prog.emit [.serverAdd mc host port]
  Prog.modify fun state =>
    (state.1, ⟨state.2.mc.map (· ++ [(host, port)]), true⟩)

def reset : Method W Unit := do
  let mc ← getPtr
  Prog.when mc.isSome (Prog.emit [.free mc])
  Prog.modify fun state => (state.1, .dropped)

/-- The port, if the text names one. -/
def portOf (dcl : Dcl) (hp : List Str) : Method W Int :=
  match hp[1]? with
  | some text =>
      Prog.orThrow (dcl.conversionException (dcl.trim text))
        (dcl.fromStringInt (dcl.trim text))
  | none => pure 11211

/-- The body of the loop over the servers. -/
def configureServer (dcl : Dcl) (server : Str) : Method W Unit := do
  let hp := dcl.tokenize server ":".toList
  let port ← portOf dcl hp
  match hp[0]? with
  | some host => configure (cString (dcl.trim host)) port
  | none => Prog.halt .fault

def prepare (dcl : Dcl) (servers : Str) : Method W Unit := do
  let configured ← Prog.read fun state => state.2.configured
  Prog.when (!configured)
    (Prog.forEach (configureServer dcl) (dcl.tokens servers))

/-- Both functions configure the connection, make their call and drop the
handle if anything raises. -/
def withConnection (dcl : Dcl) (servers : Str) (body : Method W α) :
    Method W α :=
  Prog.onError (prepare dcl servers >>= fun _ => body) reset

/-- `throw mod_session_memcached_exception(memcached_strerror(...))`. -/
def raise (text : Str) : Method W α := do
  let mc ← getPtr
  Prog.emit [.strerror mc]
  Prog.throw (.dbp text)

def get (api : Api W) (key : Str) : Method W Str := do
  let mc ← getPtr
  Prog.emit [.get mc key]
  let result ← Prog.act fun state =>
    (((api.get mc key state.1).1, state.2), .value (api.get mc key state.1).2)
  match result with
  | .ok (some value) => pure (cString value)
  | .ok none => pure []
  | .error text => raise text

def set (api : Api W) (ttl : Int) (key value : Str) : Method W Unit := do
  let mc ← getPtr
  Prog.emit [.set mc key value ttl]
  let result ← Prog.act fun state =>
    (((api.set mc key value ttl state.1).1, state.2),
      .value (api.set mc key value ttl state.1).2)
  match result with
  | none => pure ()
  | some text => raise text

/-- `mod_session_memcached::get_value`, from the acquisition on. -/
def getValue (dcl : Dcl) (api : Api W) (servers key : Str) : Method W Str :=
  withConnection dcl servers (get api key)

/-- `mod_session_memcached::put_value`, from the acquisition on. -/
def putValue (dcl : Dcl) (api : Api W) (servers : Str) (ttl : Int)
    (key value : Str) : Method W Unit :=
  withConnection dcl servers (set api ttl key value)

inductive Request where
  | get (key : Str)
  | put (ttl : Int) (key value : Str)

def Request.perform (dcl : Dcl) (api : Api W) (servers : Str) :
    Request → Method W Unit
  | .get key => do
      let _ ← getValue dcl api servers key
      pure ()
  | .put ttl key value => putValue dcl api servers ttl key value

/-- One call of `get_value` or `put_value`: the address of the connection it
was handed, the library calls it made, and how it ended. -/
structure Step where
  servers : Str
  address : Nat
  calls : List LibraryCall
  outcome : Outcome Exc Unit

namespace Step

def Failed (step : Step) : Prop :=
  ∃ exception, step.outcome = .error exception

/-- Every library call of the step has the handle it needs. -/
def Proper (step : Step) : Prop :=
  ∀ call ∈ step.calls, call.Proper

end Step

/-- The connections of the pool, by their addresses, each with the key it is
filed under. -/
abbrev Objects := Nat → Option (Str × Connection)

/-- The pool makes a connection, or hands out one it has filed under the
key. -/
def Handed (objects : Objects) (servers : Str) (address : Nat)
    (object : Connection) : Prop :=
  (objects address = none ∧ object = .initial) ∨
    objects address = some (servers, object)

/-- A sequence of calls over the pool, the latest first.  The servers may
change at any time. -/
inductive Serves (dcl : Dcl) (api : Api W) :
    List Step → W → Objects → Prop where
  | start (world : W) : Serves dcl api [] world fun _ => none
  | idle {steps : List Step} {world : W} {objects : Objects} (later : W) :
      Serves dcl api steps world objects → Serves dcl api steps later objects
  | next {steps : List Step} {world later : W} {objects : Objects}
      {request : Request} {servers : Str} {address : Nat}
      {object left : Connection} {calls : List LibraryCall}
      {outcome : Outcome Exc Unit} :
      Serves dcl api steps world objects →
      (∀ step ∈ steps, step.outcome.Finished) →
      Handed objects servers address object →
      request.perform dcl api servers (world, object) =
        ⟨(later, left), calls, outcome⟩ →
      Serves dcl api (⟨servers, address, calls, outcome⟩ :: steps) later
        (Function.update objects address (some (servers, left)))

/-! ## The condition -/

/-- The loop can add the server: it has a host, and its port is a number. -/
def readable (dcl : Dcl) (server : Str) : Bool :=
  let hp := dcl.tokenize server ":".toList
  hp[0]?.isSome &&
    match hp[1]? with
    | some text => (dcl.fromStringInt (dcl.trim text)).isSome
    | none => true

/-- The call names a server, and no earlier call has failed on the connection
it is handed; unless the first server cannot be added, so that the library is
not called at all. -/
def Step.Usable (dcl : Dcl) (past : List Step) (step : Step) : Prop :=
  ∃ server rest, dcl.tokens step.servers = server :: rest ∧
    ((∀ earlier ∈ past, earlier.address = step.address → ¬ earlier.Failed) ∨
      readable dcl server = false)

/-- All calls of a sequence are of this kind. -/
def Usable (dcl : Dcl) : List Step → Prop
  | [] => True
  | step :: past => step.Usable dcl past ∧ Usable dcl past

/-! ## Connections that are in order -/

/-- A connection with servers. -/
def Ready (object : Connection) : Prop :=
  ∃ server rest, object = ⟨some (server :: rest), true⟩

def Live (object : Connection) : Prop :=
  object.mc ≠ none

theorem Ready.live {object : Connection} (ready : Ready object) :
    Live object := by
  obtain ⟨server, rest, rfl⟩ := ready
  exact Option.some_ne_none _

/-- From a connection with `pre`, the program makes proper calls only and
leaves a connection with `done` when it returns, with `raised` when it
raises. -/
def Sound (pre : Connection → Prop) (program : Method W α)
    (done : α → Connection → Prop) (raised : Connection → Prop) : Prop :=
  ∀ state, pre state.2 →
    (∀ call ∈ (program state).out, call.Proper) ∧
      match (program state).outcome with
      | .value result => done result (program state).state.2
      | .error _ => raised (program state).state.2
      | .halt _ => True

namespace Sound

variable {pre : Connection → Prop} {raised : Connection → Prop}

theorem bind {first : Method W α} {next : α → Method W β}
    {middle : α → Connection → Prop} {done : β → Connection → Prop}
    (here : Sound pre first middle raised)
    (there : ∀ result, Sound (middle result) (next result) done raised) :
    Sound pre (first >>= next) done raised := by
  intro state holds
  have begun := here state holds
  cases ran : first state with
  | mk last calls outcome =>
      rw [ran] at begun
      cases outcome with
      | error exception =>
          rw [Prog.bind_error ran]
          exact begun
      | halt reason =>
          rw [Prog.bind_halt ran]
          exact begun
      | value result =>
          rw [Prog.bind_eq ran]
          obtain ⟨proper, ended⟩ := there result last begun.2
          refine ⟨?_, ended⟩
          intro call member
          rcases List.mem_append.mp member with early | late
          · exact begun.1 call early
          · exact proper call late

theorem pure {done : α → Connection → Prop} (result : α)
    (holds : ∀ object, pre object → done result object) :
    Sound pre (Pure.pure result : Method W α) done raised := by
  intro state here
  exact ⟨fun call member => absurd member List.not_mem_nil,
    holds state.2 here⟩

theorem emit {done : Connection → Prop} {call : LibraryCall}
    (proper : ∀ object, pre object → call.Proper)
    (holds : ∀ object, pre object → done object) :
    Sound pre (Prog.emit [call] : Method W Unit) (fun _ => done) raised := by
  intro state here
  refine ⟨?_, holds state.2 here⟩
  intro other member
  rw [List.mem_singleton.mp member]
  exact proper state.2 here

theorem modify {done : Connection → Prop}
    {change : W × Connection → W × Connection}
    (holds : ∀ state, pre state.2 → done (change state).2) :
    Sound pre (Prog.modify change : Method W Unit) (fun _ => done) raised := by
  intro state here
  exact ⟨fun call member => absurd member List.not_mem_nil,
    holds state here⟩

/-- The pointer to the handle, in a connection with the property. -/
theorem getPtr :
    Sound pre (Memcached.getPtr : Method W (Option Handle))
      (fun mc object => pre object ∧ object.mc = mc) raised := by
  intro state here
  exact ⟨fun call member => absurd member List.not_mem_nil, here, rfl⟩

theorem throw {done : α → Connection → Prop} (exception : Exc)
    (holds : ∀ object, pre object → raised object) :
    Sound pre (Prog.throw exception : Method W α) done raised := by
  intro state here
  exact ⟨fun call member => absurd member List.not_mem_nil,
    holds state.2 here⟩

theorem mono {program : Method W α} {done : α → Connection → Prop}
    {weaker : Connection → Prop} (sound : Sound weaker program done raised)
    (holds : ∀ object, pre object → weaker object) :
    Sound pre program done raised :=
  fun state here => sound state (holds state.2 here)

/-- An exception drops the handle. -/
theorem onError {body : Method W α} {done : α → Connection → Prop}
    (sound : Sound pre body done Live) :
    Sound pre (Prog.onError body reset) done (· = .dropped) := by
  intro state here
  have begun := sound state here
  cases ran : body state with
  | mk last calls outcome =>
      rw [ran] at begun
      cases outcome with
      | value result =>
          rw [Prog.onError_eq ran]
          exact begun
      | halt reason =>
          have ended : Prog.onError body reset state =
              ⟨last, calls, .halt reason⟩ := Prog.tryCatch_halt ran _
          rw [ended]
          exact begun
      | error exception =>
          obtain ⟨world, mc, configured⟩ := last
          obtain ⟨handle, rfl⟩ :=
            Option.ne_none_iff_exists'.mp (begun.2 : mc ≠ none)
          have freed : (reset >>= fun _ => Prog.throw exception : Method W α)
              (world, ⟨some handle, configured⟩) =
              ⟨(world, .dropped), [.free (some handle)],
                .error exception⟩ := rfl
          have ended : Prog.onError body reset state =
              ⟨(world, .dropped), calls ++ [.free (some handle)],
                .error exception⟩ := by
            refine (Prog.tryCatch_error ran _).trans ?_
            rw [freed]
          rw [ended]
          refine ⟨?_, rfl⟩
          intro call member
          rcases List.mem_append.mp member with early | late
          · exact begun.1 call early
          · rw [List.mem_singleton.mp late]
            exact Option.some_ne_none handle

end Sound

theorem configure_sound (host : Str) (port : Int) :
    Sound Live (configure host port : Method W Unit) (fun _ => Ready)
      Live := by
  apply Sound.getPtr.bind
  intro mc
  have emitted : Sound (fun object => Live object ∧ object.mc = mc)
      (Prog.emit [.serverAdd mc host port] : Method W Unit) (fun _ => Live)
      Live := by
    apply Sound.emit
    · rintro object ⟨live, rfl⟩
      exact live
    · rintro object ⟨live, -⟩
      exact live
  apply emitted.bind
  · intro _
    apply Sound.modify
    rintro ⟨world, mc, configured⟩ live
    obtain ⟨handle, rfl⟩ := Option.ne_none_iff_exists'.mp live
    cases handle with
    | nil => exact ⟨_, _, rfl⟩
    | cons server rest => exact ⟨_, _, rfl⟩

theorem portOf_sound (dcl : Dcl) (hp : List Str) :
    Sound Live (portOf dcl hp : Method W Int) (fun _ => Live) Live := by
  intro state live
  unfold portOf
  cases hp[1]? with
  | none => exact ⟨fun call member => absurd member List.not_mem_nil, live⟩
  | some text =>
      have either : ∃ outcome, (Prog.orThrow
          (dcl.conversionException (dcl.trim text))
          (dcl.fromStringInt (dcl.trim text)) : Method W Int) state =
          ⟨state, [], outcome⟩ := by
        cases dcl.fromStringInt (dcl.trim text) with
        | none => exact ⟨_, rfl⟩
        | some port => exact ⟨_, rfl⟩
      obtain ⟨outcome, ran⟩ := either
      simp only [ran]
      refine ⟨fun call member => absurd member List.not_mem_nil, ?_⟩
      cases outcome with
      | value port => exact live
      | error exception => exact live
      | halt reason => trivial

theorem configureServer_sound (dcl : Dcl) (server : Str) :
    Sound Live (configureServer dcl server : Method W Unit) (fun _ => Ready)
      Live := by
  apply (portOf_sound dcl _).bind
  intro port
  cases (dcl.tokenize server ":".toList)[0]? with
  | some host => exact configure_sound _ port
  | none =>
      intro state live
      exact ⟨fun call member => absurd member List.not_mem_nil, trivial⟩

theorem configureAll_sound (dcl : Dcl) (servers : List Str) :
    Sound Ready (Prog.forEach (configureServer dcl) servers : Method W Unit)
      (fun _ => Ready) Live := by
  induction servers with
  | nil => exact Sound.pure () fun _ ready => ready
  | cons server servers induction =>
      apply Sound.bind _ fun _ => induction
      exact (configureServer_sound dcl server).mono fun _ => Ready.live

/-- A connection with servers is used as it is; a new one gets its servers
first. -/
theorem prepare_sound (dcl : Dcl) {servers server : Str} {rest : List Str}
    (named : dcl.tokens servers = server :: rest) :
    Sound (fun object => Ready object ∨ object = .initial)
      (prepare dcl servers : Method W Unit) (fun _ => Ready) Live := by
  rintro ⟨world, object⟩ (⟨first, others, rfl⟩ | rfl)
  · exact ⟨fun call member => absurd member List.not_mem_nil, _, _, rfl⟩
  · have whole : Sound (· = .initial)
        (Prog.forEach (configureServer dcl) (server :: rest) : Method W Unit)
        (fun _ => Ready) Live := by
      apply Sound.bind _ fun _ => configureAll_sound dcl rest
      apply (configureServer_sound dcl server).mono
      rintro _ rfl
      exact Option.some_ne_none _
    have same : prepare dcl servers (world, .initial) =
        (Prog.forEach (configureServer dcl) (server :: rest) : Method W Unit)
          (world, .initial) := by
      rw [← named]
      rfl
    rw [same]
    exact whole (world, .initial) rfl

theorem raise_sound (text : Str) (done : α → Connection → Prop) :
    Sound Ready (raise text : Method W α) done Live := by
  apply Sound.getPtr.bind
  intro mc
  have emitted : Sound (fun object => Ready object ∧ object.mc = mc)
      (Prog.emit [.strerror mc] : Method W Unit) (fun _ => Ready) Live := by
    apply Sound.emit
    · rintro object ⟨ready, rfl⟩
      exact ready.live
    · rintro object ⟨ready, -⟩
      exact ready
  apply emitted.bind
  intro _
  exact Sound.throw _ fun _ => Ready.live

/-- A call of the library with the handle, and what follows the answer. -/
theorem library_sound {γ : Type} (call : Option Handle → LibraryCall)
    (proper : ∀ server rest, (call (some (server :: rest))).Proper)
    (answer : Option Handle → W → W × γ) {next : γ → Method W α}
    {done : α → Connection → Prop}
    (sound : ∀ result, Sound Ready (next result) done Live) :
    Sound Ready (getPtr >>= fun mc => Prog.emit [call mc] >>= fun _ =>
      Prog.act (fun state => (((answer mc state.1).1, state.2),
        .value (answer mc state.1).2)) >>= next) done Live := by
  apply Sound.getPtr.bind
  intro mc
  have emitted : Sound (fun object => Ready object ∧ object.mc = mc)
      (Prog.emit [call mc] : Method W Unit) (fun _ => Ready) Live := by
    apply Sound.emit
    · rintro object ⟨⟨server, rest, rfl⟩, rfl⟩
      exact proper server rest
    · rintro object ⟨ready, -⟩
      exact ready
  have answered : Sound Ready (Prog.act (fun state =>
      (((answer mc state.1).1, state.2), .value (answer mc state.1).2)) :
      Method W γ) (fun _ => Ready) Live := by
    intro state ready
    exact ⟨fun call member => absurd member List.not_mem_nil, ready⟩
  apply emitted.bind
  intro _
  exact answered.bind sound

theorem get_sound (api : Api W) (key : Str) :
    Sound Ready (get api key) (fun _ => Ready) Live := by
  refine library_sound (fun mc => .get mc key)
    (fun server rest => ⟨server, rest, rfl⟩) (fun mc => api.get mc key)
    fun result => ?_
  match result with
  | .ok (some value) => exact Sound.pure _ fun _ ready => ready
  | .ok none => exact Sound.pure _ fun _ ready => ready
  | .error text => exact raise_sound text _

theorem set_sound (api : Api W) (ttl : Int) (key value : Str) :
    Sound Ready (set api ttl key value) (fun _ => Ready) Live := by
  refine library_sound (fun mc => .set mc key value ttl)
    (fun server rest => ⟨server, rest, rfl⟩)
    (fun mc => api.set mc key value ttl) fun result => ?_
  match result with
  | none => exact Sound.pure _ fun _ ready => ready
  | some text => exact raise_sound text _

/-- A call that is handed a connection in order. -/
theorem perform_sound (dcl : Dcl) (api : Api W) {servers server : Str}
    {rest : List Str} (named : dcl.tokens servers = server :: rest)
    (request : Request) :
    Sound (fun object => Ready object ∨ object = .initial)
      (request.perform dcl api servers) (fun _ => Ready) (· = .dropped) := by
  have prepared {α : Type} {body : Method W α}
      (sound : Sound Ready body (fun _ => Ready) Live) :
      Sound (fun object => Ready object ∨ object = .initial)
        (withConnection dcl servers body) (fun _ => Ready) (· = .dropped) :=
    ((prepare_sound dcl named).bind fun _ => sound).onError
  cases request with
  | get key =>
      apply (prepared (get_sound api key)).bind
      intro text
      exact Sound.pure () fun _ ready => ready
  | put ttl key value => exact prepared (set_sound api ttl key value)

/-! ## Connections that are not in order -/

theorem mem_out_bind {first : Method W α} {next : α → Method W β}
    {state : W × Connection} {call : LibraryCall}
    (member : call ∈ (first state).out) :
    call ∈ ((first >>= next) state).out := by
  cases ran : first state with
  | mk last calls outcome =>
      rw [ran] at member
      cases outcome with
      | value result =>
          rw [Prog.bind_eq ran]
          exact List.mem_append_left _ member
      | error exception =>
          rw [Prog.bind_error ran]
          exact member
      | halt reason =>
          rw [Prog.bind_halt ran]
          exact member

theorem mem_out_onError {body : Method W α} {cleanup : Method W Unit}
    {state : W × Connection} {call : LibraryCall}
    (member : call ∈ (body state).out) :
    call ∈ (body.onError cleanup state).out := by
  cases ran : body state with
  | mk last calls outcome =>
      rw [ran] at member
      cases outcome with
      | value result =>
          rw [Prog.onError_eq ran]
          exact member
      | error exception =>
          have ended := Prog.tryCatch_error ran fun exception =>
            (cleanup >>= fun _ => Prog.throw exception : Method W α)
          change call ∈ (Prog.tryCatch body _ state).out
          rw [ended]
          exact List.mem_append_left _ member
      | halt reason =>
          change call ∈ (Prog.tryCatch body _ state).out
          rw [Prog.tryCatch_halt ran]
          exact member

/-- The calls that add servers come first. -/
theorem mem_out_perform {dcl : Dcl} (api : Api W) {servers : Str}
    (request : Request) {state : W × Connection} {call : LibraryCall}
    (member : call ∈ (prepare dcl servers state : Run _ Exc _ _).out) :
    call ∈ (request.perform dcl api servers state).out := by
  cases request with
  | get key => exact mem_out_bind (mem_out_onError (mem_out_bind member))
  | put ttl key value => exact mem_out_onError (mem_out_bind member)

/-- The call of the library a request is about. -/
def Request.call (mc : Option Handle) : Request → LibraryCall
  | .get key => .get mc key
  | .put ttl key value => .set mc key value ttl

/-- Without servers to add, the request's own call is made at once. -/
theorem call_mem_out {dcl : Dcl} (api : Api W) {servers : Str}
    (request : Request) {state : W × Connection}
    (silent : prepare dcl servers state = ⟨state, [], .value ()⟩) :
    request.call state.2.mc ∈ (request.perform dcl api servers state).out := by
  cases request with
  | get key =>
      apply mem_out_bind
      apply mem_out_onError
      rw [Prog.bind_silent silent]
      exact List.mem_cons_self
  | put ttl key value =>
      apply mem_out_onError
      rw [Prog.bind_silent silent]
      exact List.mem_cons_self

/-- Without servers, a connection that has none is used without. -/
theorem perform_unnamed {dcl : Dcl} (api : Api W) {servers : Str}
    (unnamed : dcl.tokens servers = []) (request : Request) (world : W)
    {object : Connection} (fresh : object = .initial ∨ object = .dropped) :
    ∃ call ∈ (request.perform dcl api servers (world, object)).out,
      ¬ call.Proper := by
  have silent : prepare dcl servers (world, object) =
      ⟨(world, object), [], .value ()⟩ := by
    unfold prepare
    rw [unnamed]
    rcases fresh with rfl | rfl
    · rfl
    · rfl
  refine ⟨_, call_mem_out api request silent, ?_⟩
  have bare (mc : Option Handle) (none : ∀ server rest,
      mc ≠ some (server :: rest)) : ¬ (request.call mc).Proper := by
    cases request with
    | get key =>
        rintro ⟨server, rest, same⟩
        exact none server rest same
    | put ttl key value =>
        rintro ⟨server, rest, same⟩
        exact none server rest same
  apply bare
  intro server rest same
  rcases fresh with rfl | rfl
  · cases same
  · cases same

theorem configureServer_readable {dcl : Dcl} {server : Str}
    (fine : readable dcl server = true) :
    ∃ host port, (configureServer dcl server : Method W Unit) =
      configure host port := by
  unfold readable at fine
  simp only [Bool.and_eq_true] at fine
  obtain ⟨host, found⟩ := Option.isSome_iff_exists.mp fine.1
  have port : ∃ port, (portOf dcl (dcl.tokenize server ":".toList) :
      Method W Int) = pure port := by
    unfold portOf
    cases second : (dcl.tokenize server ":".toList)[1]? with
    | none => exact ⟨11211, rfl⟩
    | some text =>
        have converts := fine.2
        rw [second] at converts
        obtain ⟨port, number⟩ := Option.isSome_iff_exists.mp converts
        refine ⟨port, ?_⟩
        simp only [number]
        rfl
  obtain ⟨port, same⟩ := port
  refine ⟨cString (dcl.trim host), port, ?_⟩
  unfold configureServer
  simp only [same, Prog.pure_bind, found]

theorem configureServer_unreadable {dcl : Dcl} {server : Str}
    (bad : readable dcl server = false) (state : W × Connection) :
    (∃ exception, configureServer dcl server state =
        ⟨state, [], .error exception⟩) ∨
      configureServer dcl server state = ⟨state, [], .halt .fault⟩ := by
  unfold configureServer portOf
  unfold readable at bad
  simp only [Bool.and_eq_false_iff] at bad
  have stop (port : Int)
      (hostless : (dcl.tokenize server ":".toList)[0]?.isSome = false) :
      (match (dcl.tokenize server ":".toList)[0]? with
        | some host => configure (cString (dcl.trim host)) port
        | none => Prog.halt .fault : Method W Unit) state =
        ⟨state, [], .halt .fault⟩ := by
    have absent : (dcl.tokenize server ":".toList)[0]? = none :=
      Option.not_isSome_iff_eq_none.mp
        (by rw [hostless]; exact Bool.false_ne_true)
    rw [absent]
    rfl
  cases second : (dcl.tokenize server ":".toList)[1]? with
  | none =>
      right
      simp only [second, reduceCtorEq, or_false] at bad
      exact stop 11211 bad
  | some text =>
      simp only [Prog.orThrow]
      cases number : dcl.fromStringInt (dcl.trim text) with
      | none => exact .inl ⟨_, rfl⟩
      | some port =>
          right
          simp only [second, number, Option.isSome_some, reduceCtorEq,
            or_false] at bad
          exact stop port bad

/-- A dropped connection is configured without a handle. -/
theorem perform_dropped {dcl : Dcl} (api : Api W) {servers server : Str}
    {rest : List Str} (named : dcl.tokens servers = server :: rest)
    (fine : readable dcl server = true) (request : Request) (world : W) :
    ∃ call ∈ (request.perform dcl api servers (world, .dropped)).out,
      ¬ call.Proper := by
  obtain ⟨host, port, same⟩ := configureServer_readable (W := W) fine
  have added : LibraryCall.serverAdd none host port ∈
      (prepare dcl servers (world, .dropped) : Run _ Exc _ _).out := by
    have whole : prepare dcl servers (world, .dropped) =
        (Prog.forEach (configureServer dcl) (server :: rest) : Method W Unit)
          (world, .dropped) := by
      rw [← named]
      rfl
    rw [whole]
    apply mem_out_bind
    rw [same]
    exact List.mem_cons_self
  exact ⟨_, mem_out_perform api request added, fun proper => proper rfl⟩

/-- Where the first server cannot be added, a dropped connection stays
dropped and the library is not called. -/
theorem perform_unreadable {dcl : Dcl} (api : Api W) {servers server : Str}
    {rest : List Str} (named : dcl.tokens servers = server :: rest)
    (bad : readable dcl server = false) (request : Request) (world : W) :
    (∃ exception, request.perform dcl api servers (world, .dropped) =
        ⟨(world, .dropped), [], .error exception⟩) ∨
      request.perform dcl api servers (world, .dropped) =
        ⟨(world, .dropped), [], .halt .fault⟩ := by
  have whole : prepare dcl servers (world, .dropped) =
      (Prog.forEach (configureServer dcl) (server :: rest) : Method W Unit)
        (world, .dropped) := by
    rw [← named]
    rfl
  have ended {α : Type} (body : Method W α) :
      (∃ exception, withConnection dcl servers body (world, .dropped) =
        ⟨(world, .dropped), [], .error exception⟩) ∨
      withConnection dcl servers body (world, .dropped) =
        ⟨(world, .dropped), [], .halt .fault⟩ := by
    rcases configureServer_unreadable bad (world, .dropped) with
      ⟨exception, raised⟩ | stopped
    · left
      have prepared : (prepare dcl servers >>= fun _ => body)
          (world, .dropped) = ⟨(world, .dropped), [], .error exception⟩ := by
        apply Prog.bind_error
        rw [whole]
        exact Prog.bind_error raised _
      exact ⟨exception, Prog.tryCatch_error prepared _⟩
    · right
      have prepared : (prepare dcl servers >>= fun _ => body)
          (world, .dropped) = ⟨(world, .dropped), [], .halt .fault⟩ := by
        apply Prog.bind_halt
        rw [whole]
        exact Prog.bind_halt stopped _
      exact Prog.tryCatch_halt prepared _
  cases request with
  | put ttl key value => exact ended _
  | get key =>
      rcases ended (get api key) with ⟨exception, raised⟩ | stopped
      · exact .inl ⟨exception, Prog.bind_error raised _⟩
      · exact .inr (Prog.bind_halt stopped _)

/-! ## Sequences of calls -/

/-- How a connection of the pool stands after the calls: with servers if no
call on it has failed, without a handle otherwise. -/
def Stands (dcl : Dcl) (steps : List Step) (address : Nat) (servers : Str)
    (object : Connection) : Prop :=
  (Ready object ∧ dcl.tokens servers ≠ [] ∧
      ∀ step ∈ steps, step.address = address → ¬ step.Failed) ∨
    (object = .dropped ∧
      ∃ step ∈ steps, step.address = address ∧ step.Failed)

/-- The pool after calls that could use their connections. -/
def Sorted (dcl : Dcl) (steps : List Step) (objects : Objects) : Prop :=
  ∀ address,
    match objects address with
    | none => ∀ step ∈ steps, step.address ≠ address
    | some (servers, object) => Stands dcl steps address servers object

theorem Stands.other {dcl : Dcl} {steps : List Step} {address : Nat}
    {servers : Str} {object : Connection}
    (stands : Stands dcl steps address servers object) {step : Step}
    (elsewhere : step.address ≠ address) :
    Stands dcl (step :: steps) address servers object := by
  rcases stands with ⟨ready, named, fine⟩ | ⟨dropped, failed, member, there⟩
  · refine .inl ⟨ready, named, ?_⟩
    intro other member here
    rcases List.mem_cons.mp member with rfl | earlier
    · exact absurd here elsewhere
    · exact fine other earlier here
  · exact .inr ⟨dropped, failed, List.mem_cons_of_mem _ member, there⟩

theorem Sorted.update {dcl : Dcl} {steps : List Step} {objects : Objects}
    (sorted : Sorted dcl steps objects) {step : Step} {left : Connection}
    (stands : Stands dcl (step :: steps) step.address step.servers left) :
    Sorted dcl (step :: steps)
      (Function.update objects step.address (some (step.servers, left))) := by
  intro address
  by_cases here : address = step.address
  · subst here
    rw [Function.update_self]
    exact stands
  · rw [Function.update_of_ne here]
    have before := sorted address
    cases found : objects address with
    | none =>
        rw [found] at before
        intro other member
        rcases List.mem_cons.mp member with rfl | earlier
        · exact Ne.symm here
        · exact before other earlier
    | some entry =>
        rw [found] at before
        exact Stands.other before (Ne.symm here)

section Next

variable {dcl : Dcl} {api : Api W} {steps : List Step} {world later : W}
  {request : Request} {servers : Str} {address : Nat}
  {object left : Connection} {calls : List LibraryCall}
  {outcome : Outcome Exc Unit}
  (ran : request.perform dcl api servers (world, object) =
    ⟨(later, left), calls, outcome⟩)
include ran

/-- A connection in order, on which no call has failed. -/
theorem next_ready {server : Str} {rest : List Str}
    (named : dcl.tokens servers = server :: rest)
    (ready : Ready object ∨ object = .initial)
    (fine : ∀ step ∈ steps, step.address = address → ¬ step.Failed) :
    (⟨servers, address, calls, outcome⟩ : Step).Proper ∧
      (outcome.Finished → Stands dcl
        (⟨servers, address, calls, outcome⟩ :: steps) address servers
        left) := by
  have sound := perform_sound dcl api named request (world, object) ready
  rw [ran] at sound
  refine ⟨sound.1, fun finished => ?_⟩
  cases outcome with
  | halt reason => exact finished.elim
  | value result =>
      refine .inl ⟨sound.2, by rw [named]; exact List.cons_ne_nil _ _, ?_⟩
      intro step member here
      rcases List.mem_cons.mp member with rfl | earlier
      · rintro ⟨exception, raised⟩
        cases raised
      · exact fine step earlier here
  | error exception =>
      exact .inr ⟨sound.2, _, List.mem_cons_self, rfl, exception, rfl⟩

/-- A connection on which a call has failed. -/
theorem next_dropped {server : Str} {rest : List Str}
    (named : dcl.tokens servers = server :: rest)
    (dropped : object = .dropped) :
    ((⟨servers, address, calls, outcome⟩ : Step).Proper ↔
      readable dcl server = false) ∧
      (readable dcl server = false → outcome.Finished → Stands dcl
        (⟨servers, address, calls, outcome⟩ :: steps) address servers
        left) := by
  subst dropped
  cases fine : readable dcl server with
  | true =>
      obtain ⟨call, member, improper⟩ :=
        perform_dropped api named fine request world
      rw [ran] at member
      constructor
      · apply iff_of_false
        · intro proper
          exact improper (proper call member)
        · exact Bool.noConfusion
      · exact Bool.noConfusion
  | false =>
      rcases perform_unreadable api named fine request world with
        ⟨exception, raised⟩ | stopped
      · rw [ran] at raised
        cases raised
        constructor
        · apply iff_of_true _ rfl
          intro call member
          cases member
        · intro _ _
          exact .inr ⟨rfl, _, List.mem_cons_self, rfl, exception, rfl⟩
      · rw [ran] at stopped
        cases stopped
        constructor
        · apply iff_of_true _ rfl
          intro call member
          cases member
        · intro _ finished
          exact finished.elim

/-- The next call, handed a connection of a pool in order. -/
theorem next_step {objects : Objects} (sorted : Sorted dcl steps objects)
    (handed : Handed objects servers address object) :
    ((⟨servers, address, calls, outcome⟩ : Step).Proper ↔
      (⟨servers, address, calls, outcome⟩ : Step).Usable dcl steps) ∧
      ((⟨servers, address, calls, outcome⟩ : Step).Usable dcl steps →
        outcome.Finished → Stands dcl
          (⟨servers, address, calls, outcome⟩ :: steps) address servers
          left) := by
  have here := sorted address
  cases named : dcl.tokens servers with
  | nil =>
      have fresh : object = .initial ∨ object = .dropped := by
        rcases handed with ⟨-, new⟩ | filed
        · exact .inl new
        · rw [filed] at here
          rcases here with ⟨-, some, -⟩ | ⟨dropped, -⟩
          · exact absurd named some
          · exact .inr dropped
      obtain ⟨call, member, improper⟩ :=
        perform_unnamed api named request world fresh
      rw [ran] at member
      have unusable :
          ¬ (⟨servers, address, calls, outcome⟩ : Step).Usable dcl steps := by
        rintro ⟨server, rest, some, -⟩
        rw [named] at some
        cases some
      constructor
      · apply iff_of_false _ unusable
        intro proper
        exact improper (proper call member)
      · intro usable
        exact absurd usable unusable
  | cons server rest =>
      have order
          (fine : ∀ step ∈ steps, step.address = address → ¬ step.Failed) :
          (⟨servers, address, calls, outcome⟩ : Step).Usable dcl steps :=
        ⟨server, rest, named, .inl fine⟩
      rcases handed with ⟨absent, new⟩ | filed
      · rw [absent] at here
        have fine (step : Step) (member : step ∈ steps)
            (same : step.address = address) : ¬ step.Failed :=
          absurd same (here step member)
        obtain ⟨proper, stands⟩ := next_ready ran named (.inr new) fine
        exact ⟨iff_of_true proper (order fine), fun _ => stands⟩
      · rw [filed] at here
        rcases here with ⟨ready, -, fine⟩ | ⟨dropped, step, member, same, bad⟩
        · obtain ⟨proper, stands⟩ := next_ready ran named (.inl ready) fine
          exact ⟨iff_of_true proper (order fine), fun _ => stands⟩
        · obtain ⟨proper, stands⟩ := next_dropped ran named dropped
          have usable : (⟨servers, address, calls, outcome⟩ : Step).Usable dcl
              steps ↔ readable dcl server = false := by
            constructor
            · rintro ⟨first, others, same', fine | unreadable⟩
              · exact absurd bad (fine step member same)
              · rw [named] at same'
                cases same'
                exact unreadable
            · intro unreadable
              exact ⟨server, rest, named, .inr unreadable⟩
          rw [usable]
          exact ⟨proper, stands⟩

end Next

/-- In every sequence of calls over the pool, all library calls have a handle
with servers, exactly when every call names a server and is handed a
connection on which no call has failed, or cannot add its first server. -/
theorem library_calls_proper (dcl : Dcl) (api : Api W) (steps : List Step)
    (world : W) (objects : Objects)
    (serves : Serves dcl api steps world objects) :
    (∀ step ∈ steps, step.Proper) ↔ Usable dcl steps := by
  have both : ((∀ step ∈ steps, step.Proper) ↔ Usable dcl steps) ∧
      (Usable dcl steps → (∀ step ∈ steps, step.outcome.Finished) →
        Sorted dcl steps objects) := by
    induction serves with
    | start world =>
        constructor
        · apply iff_of_true _ trivial
          intro step member
          cases member
        · intro _ _ address step member
          cases member
    | idle later serves induction => exact induction
    | next serves alive handed ran induction =>
        obtain ⟨proper, sorted⟩ := induction
        constructor
        · rw [List.forall_mem_cons, proper, Usable]
          constructor
          · rintro ⟨last, usable⟩
            have step := next_step ran (sorted usable alive) handed
            exact ⟨step.1.mp last, usable⟩
          · rintro ⟨last, usable⟩
            have step := next_step ran (sorted usable alive) handed
            exact ⟨step.1.mpr last, usable⟩
        · rintro ⟨last, usable⟩ finished
          have before := sorted usable alive
          have step := next_step ran before handed
          exact before.update (step.2 last (finished _ List.mem_cons_self))
  exact both.1

/-- Servers that know no key. -/
def empty : Api Unit where
  get _ _ world := (world, .ok none)
  set _ _ _ _ world := (world, none)

/-- Servers that cannot be reached. -/
def down : Api Unit where
  get _ _ world := (world, .error "down".toList)
  set _ _ _ _ world := (world, some "down".toList)

/-- What the first call of `get_value` on a connection does. -/
def firstGet : List LibraryCall :=
  [.serverAdd (some []) "s".toList 11211,
    .get (some [("s".toList, 11211)]) "k".toList]

/-- A connection to one server. -/
def connected : Connection :=
  ⟨some [("s".toList, 11211)], true⟩

/-- The pool with the connection. -/
def pooled : Objects :=
  Function.update (fun _ => none) 0 (some ("s".toList, connected))

/-- A session is loaded over a new connection. -/
def loadStep : Step :=
  ⟨"s".toList, 0, firstGet, .value ()⟩

/-- The session is saved over the same connection. -/
def saveStep : Step :=
  ⟨"s".toList, 0, [.set connected.mc "k".toList "v".toList 60], .value ()⟩

theorem library_calls_proper_once : saveStep.Proper ∧ loadStep.Proper := by
  have first : (Request.get "k".toList).perform Dcl.plain empty "s".toList
      ((), .initial) = ⟨((), connected), loadStep.calls, .value ()⟩ := rfl
  have second : (Request.put 60 "k".toList "v".toList).perform Dcl.plain empty
      "s".toList ((), connected) =
        ⟨((), connected), saveStep.calls, .value ()⟩ := rfl
  have loads : Serves Dcl.plain empty [loadStep] () pooled := by
    apply Serves.next (.start ()) _ (.inl ⟨rfl, rfl⟩) first
    intro step member
    cases member
  have saves : Serves Dcl.plain empty [saveStep, loadStep] ()
      (Function.update pooled 0 (some ("s".toList, connected))) := by
    apply Serves.next loads _ (.inr (Function.update_self ..)) second
    intro step member
    rw [List.mem_singleton.mp member]
    exact trivial
  have usable : Usable Dcl.plain [saveStep, loadStep] := by
    refine ⟨⟨"s".toList, [], rfl, .inl ?_⟩, ⟨"s".toList, [], rfl, .inl ?_⟩,
      trivial⟩
    · rintro step member - ⟨exception, raised⟩
      rw [List.mem_singleton.mp member] at raised
      cases raised
    · intro step member
      cases member
  have proper := (library_calls_proper Dcl.plain empty _ () _ saves).mpr usable
  exact ⟨proper saveStep List.mem_cons_self,
    proper loadStep (List.mem_cons_of_mem _ List.mem_cons_self)⟩

/-- The second call on a connection whose first call failed. -/
theorem second_call_without_handle :
    Serves Dcl.plain down
      [⟨"s".toList, 0,
          [.serverAdd none "s".toList 11211, .get none "k".toList,
            .strerror none],
          .error (.dbp "down".toList)⟩,
        ⟨"s".toList, 0,
          firstGet ++ [.strerror (some [("s".toList, 11211)]),
            .free (some [("s".toList, 11211)])],
          .error (.dbp "down".toList)⟩] ()
      (Function.update (Function.update (fun _ => none) 0
        (some ("s".toList, .dropped))) 0 (some ("s".toList, .dropped))) ∧
      ¬ (LibraryCall.serverAdd none "s".toList 11211).Proper ∧
      ¬ (LibraryCall.get none "k".toList).Proper := by
  have first : (Request.get "k".toList).perform Dcl.plain down "s".toList
      ((), .initial) =
      ⟨((), .dropped), firstGet ++ [.strerror (some [("s".toList, 11211)]),
        .free (some [("s".toList, 11211)])],
        .error (.dbp "down".toList)⟩ := rfl
  have second : (Request.get "k".toList).perform Dcl.plain down "s".toList
      ((), .dropped) =
      ⟨((), .dropped), [.serverAdd none "s".toList 11211,
        .get none "k".toList, .strerror none],
        .error (.dbp "down".toList)⟩ := rfl
  refine ⟨?_, fun proper => proper rfl, ?_⟩
  · apply Serves.next _ _ (.inr (Function.update_self ..)) second
    · apply Serves.next (.start ()) _ (.inl ⟨rfl, rfl⟩) first
      intro step member
      cases member
    · intro step member
      rw [List.mem_singleton.mp member]
      trivial
  · rintro ⟨server, rest, same⟩
    cases same

end DbPager.Memcached
