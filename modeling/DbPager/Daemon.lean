import DbPager.Environment
import DbPager.Library.Output

/-!
# The workers of the server

A worker of `dbpagerd` accepts requests in a loop.  The environment block and
the body of a request are read before the `try` block that turns exceptions
into responses, so an exception raised there ends the worker.

What a script and the session backend do is a parameter: they work on the
environment of the request and on a world that outlives it.
-/

namespace DbPager.Dbpagerd

open Effect

/-! ## Requests -/

/-- What `FCGX_Accept_r` yields: the environment block, and the body as it
can be read from the stream. -/
structure FcgxRequest where
  envp : List Str
  input : Str

/-- `http_request` of the support library. -/
structure HttpApi where
  /-- A request as its constructor leaves it. -/
  blank : HttpRequest
  setMethod : Str → HttpRequest → HttpRequest
  setHeader : Str → Str → HttpRequest → HttpRequest
  /-- The iteration order of a hash map filled with the given entries. -/
  mapOrder : List (Str × Str) → List (Str × Str)

/-- The two sides of the first `=`. -/
def splitLine (line : Str) : Str × Str :=
  (line.takeWhile (· ≠ '='), (line.dropWhile (· ≠ '=')).tail)

/-- `map[key] = value`. -/
def assign (key value : Str) (entries : List (Str × Str)) :
    List (Str × Str) :=
  entries.filter (fun entry => entry.1 ≠ key) ++ [(key, value)]

/-- What `get_request` has read so far. -/
structure Reading where
  request : HttpRequest
  length : Int
  envVars : List (Str × Str)

section Decoding

variable (dcl : Dcl) (http : HttpApi)

/-- `from_string<int>`. -/
def fromStringInt (text : Str) : Outcome Exc Int :=
  match dcl.fromStringInt text with
  | some number => .value number
  | none => .error (dcl.conversionException text)

/-- The variables that only set a field nobody reads. -/
def unreadVariables : List Str :=
  ["AUTH_TYPE".toList, "GATEWAY_INTERFACE".toList, "REMOTE_HOST".toList,
    "REMOTE_IDENT".toList, "REMOTE_USER".toList, "SCRIPT_NAME".toList,
    "SERVER_PROTOCOL".toList, "SERVER_SOFTWARE".toList]

/-- The other variables, which do not have to be converted. -/
def readText (left right : Str) (reading : Reading) : Reading :=
  let request := reading.request
  if left ∈ unreadVariables then reading
  else if left = "CONTENT_TYPE".toList then
    { reading with request := { request with contentType := right } }
  else if left = "PATH_INFO".toList then
    { reading with request := { request with pathInfo := right } }
  else if left = "PATH_TRANSLATED".toList then
    { reading with request := { request with pathTranslated := right } }
  else if left = "QUERY_STRING".toList then
    { reading with request := { request with queryString := right } }
  else if left = "REMOTE_ADDR".toList then
    { reading with request := { request with remoteAddr := right } }
  else if left = "REQUEST_METHOD".toList then
    { reading with request := http.setMethod right request }
  else if left = "SERVER_NAME".toList then
    { reading with request := { request with serverName := right } }
  else if left = "HTTPS".toList then
    { reading with request := { request with https := right == "on".toList } }
  else if "HTTP_".toList.isPrefixOf left then
    { reading with
      request := http.setHeader
        ((left.drop 5).map fun c => if c = '_' then '-' else c) right
          request }
  else
    { reading with envVars := assign left right reading.envVars }

/-- One variable of the environment block. -/
def readLine (reading : Reading) (line : Str) : Outcome Exc Reading := do
  let (left, right) := splitLine line
  if left = "CONTENT_LENGTH".toList then
    pure { reading with length := ← fromStringInt dcl right }
  else if left = "SERVER_PORT".toList then
    let port ← fromStringInt dcl right
    pure { reading with request := { reading.request with serverPort := port } }
  else pure (readText http left right reading)

/-- The loop over the environment block. -/
def readLines (reading : Reading) : List Str → Outcome Exc Reading
  | [] => pure reading
  | line :: lines => do readLines (← readLine dcl http reading line) lines

/-- The largest `int`. -/
def intMax : Int := 2147483647

/-- Read the body into a buffer of `c_len + 1` characters.  `allocates` says
for which sizes there is memory. -/
def readContent (allocates : Nat → Bool) (input : Str) (reading : Reading) :
    Outcome Exc HttpRequest :=
  let request := { reading.request with
    processVars := http.mapOrder reading.envVars }
  if 0 < reading.length then
    if intMax ≤ reading.length then .halt .fault
    else if allocates (reading.length.toNat + 1) then
      .value { request with content := some (input.take reading.length.toNat) }
    else .error ⟨.std, "std::bad_alloc".toList, 0⟩
  else .value request

/-- `dbpagerd::get_request`. -/
def getRequest (allocates : Nat → Bool) (request : FcgxRequest) :
    Outcome Exc HttpRequest := do
  readContent http allocates request.input
    (← readLines dcl http ⟨http.blank, 0, []⟩ request.envp)

end Decoding

/-! ## Responses -/

/-- `http_response`; there is a status if one has been set. -/
structure HttpResponse where
  status : Option Int
  headers : List (Str × Str)
  contentType : Str
  content : Str
  cookies : List Session.Cookie

namespace HttpResponse

def new : HttpResponse :=
  { status := none, headers := [], contentType := [], content := [],
    cookies := [] }

def setHeader (name value : Str) (response : HttpResponse) : HttpResponse :=
  { response with headers := assign name value response.headers }

def plainType : Str := "text/plain; charset=utf-8".toList

/-- A message as a plain text. -/
def setMessage (status : Int) (what : Str) (response : HttpResponse) :
    HttpResponse :=
  { response with
    status := some status
    content := what
    contentType := plainType }

end HttpResponse

/-- The exceptions the handlers of `process_cgi_request` tell apart. -/
inductive Failure where
  | parser (code : Int) (what : Str)
  | thrown (exception : Exc)

namespace Failure

def what : Failure → Str
  | parser _ what => what
  | thrown exception => exception.what

/-- `catch (std::exception &e)`. -/
def isStd : Failure → Bool
  | parser _ _ => true
  | thrown exception => exception.isStd

end Failure

/-- `catch (dbp::exception &e)`. -/
def isDbp (exception : Exc) : Bool :=
  exception.cls != .std && exception.cls != .foreign

/-- A session of some backend: loading adds bindings to the user context and
yields the identifier; saving may set cookies. -/
structure SessionHolder (W : Type) where
  load : W → W × List (Str × Str) × Except Exc Str
  save : Context → HttpResponse → W → W × HttpResponse × Option Exc

/-- A script: it changes the environment and writes a text. -/
def Script (W : Type) : Type :=
  Environment → W → W × Environment × Outcome Exc Str

/-- What a worker uses.  All exceptions are derived from `std::exception`. -/
structure Server (W : Type) where
  /-- The name and the version the build puts in. -/
  appFullName : Str
  api : RequestApi
  http : HttpApi
  allocates : Nat → Bool
  createSession : HttpRequest → SessionHolder W
  load_std : ∀ request world exception,
    ((createSession request).load world).2.2 = .error exception →
      exception.isStd
  save_std : ∀ request user response world exception,
    ((createSession request).save user response world).2.2 =
      some exception → exception.isStd
  /-- `get_app`: the script of a location, parsed or from the cache. -/
  getApp : Str → W → W × Outcome Failure (Script W)
  getApp_std : ∀ path world failure,
    (getApp path world).2 = .error failure → failure.isStd
  script_std : ∀ path world script environment later exception,
    (getApp path world).2 = .value script →
      (script environment later).2.2 = .error exception → exception.isStd

/-- What the worker does that can be seen from outside. -/
inductive Event where
  | accepted (request : FcgxRequest)
  | sent (response : HttpResponse)

section Serving

variable {W : Type} (server : Server W) (request : HttpRequest)

/-- The locals of `process_cgi_request` beside the world. -/
abbrev Locals := Environment × HttpResponse

/-- Programs of `process_cgi_request`. -/
abbrev C (W : Type) := Prog (W × Locals) Failure Event

/-- The constructor of `fastcgi_environment`.  An exception of the session
that is not a `dbp::exception` leaves it. -/
def openEnvironment : Prog W Failure Event Environment :=
  Prog.act fun world =>
    match (server.createSession request).load world with
    | (later, bindings, .ok id) =>
        (later, .value (Environment.http ⟨bindings, .ok id⟩))
    | (later, bindings, .error exception) =>
        if isDbp exception then
          (later, .value (Environment.http ⟨bindings, .error exception.what⟩))
        else (later, .error (.thrown exception))

/-- `env.get_path()`. -/
def getPath : C W Str :=
  Prog.act fun (world, environment, response) =>
    match environment.getPath server.api request with
    | .value (path, environment) =>
        ((world, environment, response), .value path)
    | .error exception =>
        ((world, environment, response), .error (.thrown exception))
    | .halt reason => ((world, environment, response), .halt reason)

/-- `dbpager->get_app(u)`. -/
def getApp (path : Str) : C W (Script W) :=
  Prog.act fun (world, locals) =>
    let (later, found) := server.getApp ("file://".toList ++ path) world
    ((later, locals), found)

/-- `env.init_custom_params()`. -/
def initCustomParams : C W Unit :=
  Prog.act fun (world, environment, response) =>
    match environment.initCustomParams server.api request with
    | (environment, none) => ((world, environment, response), .value ())
    | (environment, some exception) =>
        ((world, environment, response), .error (.thrown exception))

/-- The run of the script itself. -/
def runScript (script : Script W) : C W Str :=
  Prog.act fun (world, environment, response) =>
    match script environment world with
    | (later, environment, .value out) =>
        ((later, environment, response), .value out)
    | (later, environment, .error exception) =>
        ((later, environment, response), .error (.thrown exception))
    | (later, environment, .halt reason) =>
        ((later, environment, response), .halt reason)

/-- Save the session, unless the request is a HEAD request. -/
def saveSession : C W Unit :=
  Prog.act fun (world, environment, response) =>
    if request.method = .head then
      ((world, environment, response), .value ())
    else
      match (server.createSession request).save environment.user response
          world with
      | (later, response, none) => ((later, environment, response), .value ())
      | (later, response, some exception) =>
          ((later, environment, response), .error (.thrown exception))

/-- The headers the script has set in the system context. -/
def systemHeaders (environment : Environment) (response : HttpResponse) :
    HttpResponse :=
  environment.system.getValues.entries.foldl (fun response entry =>
    response.setHeader (entry.1.map Char.toLower) entry.2) response

/-- `http_environment::init_response`. -/
def initResponse : C W Unit := do
  Prog.modify fun (world, environment, response) =>
    (world, environment, { systemHeaders environment response with
      contentType := Chain.getValue "CONTENT_TYPE".toList
        environment.contexts })
  saveSession server request

def changeResponse (change : HttpResponse → HttpResponse) : C W Unit :=
  Prog.modify fun (world, environment, response) =>
    (world, environment, change response)

/-- The `try` block of `process_cgi_request`. -/
def respond : C W Unit := do
  let path ← getPath server request
  let script ← getApp server path
  initCustomParams server request
  let out ← runScript script
  initResponse server request
  changeResponse fun response => { response with content := out }

/-- The codes of an `app_exception` that redirect. -/
def redirects : List Int := [301, 302, 303, 307, 308]

def answerApp (exception : Exc) (response : HttpResponse) : HttpResponse :=
  let response := { response with status := some exception.code }
  if exception.code ∈ redirects then
    response.setHeader "Location".toList exception.what
  else
    { response with
      content := exception.what
      contentType := if response.contentType.isEmpty then
        HttpResponse.plainType else response.contentType }

/-- The handlers of `process_cgi_request`. -/
def handle : Failure → C W Unit
  | .parser code what => do
      initResponse server request
      changeResponse (HttpResponse.setMessage (if code = 1 then 404 else 500)
        what)
  | .thrown exception =>
      if exception.cls = .app then do
        initResponse server request
        changeResponse (answerApp exception)
      else if isDbp exception then do
        initResponse server request
        changeResponse (HttpResponse.setMessage 500 exception.what)
      else Prog.throw (.thrown exception)

/-- `dbpagerd::process_cgi_request`. -/
def processCgiRequest : Prog W Failure Event HttpResponse := do
  let environment ← openEnvironment server request
  Prog.within (environment, HttpResponse.new.setHeader
      "X-Powered-By".toList (server.appFullName ++ " (FastCGI)".toList)) do
    (respond server request).tryCatch (handle server request)
    Prog.read fun (_, _, response) => response

/-- The body of the loop: the request is read outside of the `try` block. -/
def serve (accepted : FcgxRequest) : Prog W Failure Event Unit := do
  Prog.emit [.accepted accepted]
  let request ← Prog.act fun world =>
    (world, match getRequest server.api.dcl server.http server.allocates
        accepted with
      | .value request => .value request
      | .error exception => .error (.thrown exception)
      | .halt reason => .halt reason)
  let response ← (processCgiRequest server request).tryCatch fun failure =>
    if failure.isStd then
      pure (HttpResponse.new.setMessage 500 failure.what)
    else Prog.throw failure
  Prog.emit [.sent response]

/-- `dbpagerd::process_request`, for the requests that are accepted one after
the other. -/
def processRequest (requests : List FcgxRequest) :
    Prog W Failure Event Unit :=
  Prog.forEach (serve server) requests

end Serving

/-! ## Reading a request -/

section Reading

variable {dcl : Dcl} {http : HttpApi}

/-- The text of a number is a number. -/
def Converts (dcl : Dcl) (line : Str) : Prop :=
  (splitLine line).1 = "CONTENT_LENGTH".toList ∨
      (splitLine line).1 = "SERVER_PORT".toList →
    (dcl.fromStringInt (splitLine line).2).isSome

/-- The length after one more line. -/
def lengthAfter (dcl : Dcl) (length : Int) (line : Str) : Int :=
  if (splitLine line).1 = "CONTENT_LENGTH".toList then
    (dcl.fromStringInt (splitLine line).2).getD length
  else length

/-- The last `CONTENT_LENGTH` of an environment block. -/
def contentLength (dcl : Dcl) (envp : List Str) : Int :=
  envp.foldl (lengthAfter dcl) 0

theorem length_ite {condition : Prop} [Decidable condition]
    {first second : Reading} {length : Int} (yes : first.length = length)
    (no : second.length = length) :
    (if condition then first else second).length = length := by
  by_cases holds : condition
  · rw [if_pos holds]
    exact yes
  · rw [if_neg holds]
    exact no

theorem readText_length (left right : Str) (reading : Reading) :
    (readText http left right reading).length = reading.length := by
  unfold readText
  repeat apply length_ite rfl
  rfl

theorem fromStringInt_value (text : Str) :
    (∃ number, fromStringInt dcl text = .value number) ↔
      (dcl.fromStringInt text).isSome := by
  unfold fromStringInt
  cases dcl.fromStringInt text <;> simp

theorem value_of_map {α β : Type} (outcome : Outcome Exc α) (use : α → β) :
    (∃ final, (outcome >>= fun result => pure (use result)) =
      .value final) ↔ ∃ result, outcome = .value result := by
  cases outcome with
  | value result => exact ⟨fun _ => ⟨result, rfl⟩, fun _ => ⟨use result, rfl⟩⟩
  | error exception =>
      constructor <;>
      · rintro ⟨_, raised⟩
        cases raised
  | halt reason =>
      constructor <;>
      · rintro ⟨_, halted⟩
        cases halted

theorem readLine_value (reading : Reading) (line : Str) :
    (∃ final, readLine dcl http reading line = .value final) ↔
      Converts dcl line := by
  unfold readLine Converts
  simp only
  by_cases sized : (splitLine line).1 = "CONTENT_LENGTH".toList
  · rw [if_pos sized, value_of_map, fromStringInt_value]
    exact ⟨fun converted _ => converted, fun all => all (.inl sized)⟩
  · rw [if_neg sized]
    by_cases addressed : (splitLine line).1 = "SERVER_PORT".toList
    · rw [if_pos addressed, value_of_map, fromStringInt_value]
      exact ⟨fun converted _ => converted, fun all => all (.inr addressed)⟩
    · rw [if_neg addressed]
      constructor
      · rintro _ (same | same)
        · exact absurd same sized
        · exact absurd same addressed
      · intro _
        exact ⟨_, rfl⟩

theorem readLine_length {reading final : Reading} {line : Str}
    (read : readLine dcl http reading line = .value final) :
    final.length = lengthAfter dcl reading.length line := by
  unfold readLine at read
  unfold lengthAfter
  simp only at read
  by_cases sized : (splitLine line).1 = "CONTENT_LENGTH".toList
  · simp only [sized, if_true] at read ⊢
    unfold fromStringInt at read
    cases converted : dcl.fromStringInt (splitLine line).2 with
    | none =>
        rw [converted] at read
        cases read
    | some number =>
        rw [converted] at read
        cases read
        rfl
  · simp only [sized, if_false] at read ⊢
    split at read
    · unfold fromStringInt at read
      cases converted : dcl.fromStringInt (splitLine line).2 with
      | none =>
          rw [converted] at read
          cases read
      | some number =>
          rw [converted] at read
          cases read
          rfl
    · cases read
      exact readText_length _ _ reading

theorem readLines_value (envp : List Str) (reading : Reading) :
    (∃ final, readLines dcl http reading envp = .value final) ↔
      ∀ line, line ∈ envp → Converts dcl line := by
  induction envp generalizing reading with
  | nil =>
      constructor
      · intro _ line member
        cases member
      · intro _
        exact ⟨reading, rfl⟩
  | cons line envp induction =>
      rw [List.forall_mem_cons, ← @readLine_value dcl http reading]
      unfold readLines
      cases read : readLine dcl http reading line with
      | value middle =>
          simp only [Outcome.value_bind, induction]
          simp
      | error exception => simp
      | halt reason => simp

theorem readLines_length {envp : List Str} {reading final : Reading}
    (read : readLines dcl http reading envp = .value final) :
    final.length = envp.foldl (lengthAfter dcl) reading.length := by
  induction envp generalizing reading with
  | nil =>
      cases read
      rfl
  | cons line envp induction =>
      unfold readLines at read
      obtain ⟨middle, first, rest⟩ := Outcome.bind_eq_value.mp read
      rw [induction rest, readLine_length first]
      rfl

/-- Every number of the environment block is one, and there is memory for
the body. -/
def Readable (dcl : Dcl) (allocates : Nat → Bool) (accepted : FcgxRequest) :
    Prop :=
  (∀ line, line ∈ accepted.envp → Converts dcl line) ∧
    (0 < contentLength dcl accepted.envp →
      contentLength dcl accepted.envp < intMax ∧
        allocates ((contentLength dcl accepted.envp).toNat + 1))

theorem readContent_value (allocates : Nat → Bool) (input : Str)
    (reading : Reading) :
    (∃ request, readContent http allocates input reading = .value request) ↔
      (0 < reading.length →
        reading.length < intMax ∧ allocates (reading.length.toNat + 1)) := by
  unfold readContent
  simp only
  by_cases body : 0 < reading.length
  · rw [if_pos body]
    by_cases long : intMax ≤ reading.length
    · rw [if_pos long]
      simp [body, Int.not_lt.mpr long]
    · rw [if_neg long]
      have short : reading.length < intMax := Int.not_le.mp long
      by_cases memory : allocates (reading.length.toNat + 1) = true
      · simp [memory, short]
      · simp [memory, body]
  · simp [body]

theorem getRequest_value (allocates : Nat → Bool) (accepted : FcgxRequest) :
    (∃ request, getRequest dcl http allocates accepted = .value request) ↔
      Readable dcl allocates accepted := by
  unfold getRequest Readable
  rw [← @readLines_value dcl http accepted.envp ⟨http.blank, 0, []⟩]
  cases read : readLines dcl http ⟨http.blank, 0, []⟩ accepted.envp with
  | error exception => simp
  | halt reason => simp
  | value reading =>
      have length := readLines_length read
      simp only [Outcome.value_bind, readContent_value]
      rw [length]
      simp [contentLength]

end Reading

/-! ## Answering a request -/

section Answering

variable {W : Type} {server : Server W} {request : HttpRequest}

/-- There is a result, or an exception derived from `std::exception`. -/
def Sound {α : Type} : Outcome Failure α → Prop
  | .value _ => True
  | .error failure => failure.isStd
  | .halt _ => False

theorem sound_bind {σ α β : Type} {first : Prog σ Failure Event α}
    {next : α → Prog σ Failure Event β} {state : σ}
    (start : Sound (first state).outcome)
    (rest : ∀ result middle, Sound (next result middle).outcome) :
    Sound ((first >>= next) state).outcome := by
  cases ran : first state with
  | mk middle out outcome =>
      rw [ran] at start
      cases outcome with
      | value result =>
          rw [Prog.bind_eq ran]
          exact rest result middle
      | error failure =>
          rw [Prog.bind_error ran]
          exact start
      | halt reason => exact start.elim

/-- A program that is sound under a condition and halts without it. -/
def SoundIff {α : Type} (condition : Prop) (outcome : Outcome Failure α) :
    Prop :=
  condition ∧ Sound outcome ∨ ¬ condition ∧ ∃ reason, outcome = .halt reason

theorem soundIff_halt {α : Type} {condition : Prop} (fails : ¬ condition)
    (reason : Halt) :
    SoundIff condition (.halt reason : Outcome Failure α) :=
  .inr ⟨fails, reason, rfl⟩

theorem saveSession_sound (state : W × Locals) :
    Sound (saveSession server request state).outcome := by
  obtain ⟨world, environment, response⟩ := state
  unfold saveSession Prog.act
  simp only
  split
  · trivial
  · cases saved : (server.createSession request).save environment.user
      response world with
    | mk later rest =>
        obtain ⟨written, raised⟩ := rest
        cases raised with
        | none => trivial
        | some exception =>
            apply server.save_std request environment.user response world
            rw [saved]

theorem initResponse_sound (state : W × Locals) :
    Sound (initResponse server request state).outcome := by
  apply sound_bind
  · trivial
  · intro _ middle
    exact saveSession_sound middle

/-- A handler sends a response, or raises again what saving the session
raises. -/
theorem handle_sound {failure : Failure} (std : failure.isStd)
    (state : W × Locals) :
    Sound (handle server request failure state).outcome := by
  have answers (change : HttpResponse → HttpResponse) :
      Sound ((initResponse server request >>= fun _ =>
        changeResponse change) state).outcome :=
    sound_bind (initResponse_sound state) fun _ _ => trivial
  cases failure with
  | parser code what => exact answers _
  | thrown exception =>
      simp only [handle]
      split
      · exact answers _
      · split
        · exact answers _
        · exact std

/-- A body that is an XML document of another kind is freed twice. -/
def FreedTwice (api : RequestApi) (request : HttpRequest) : Prop :=
  request.method = .post ∧ request.contentType = "text/xml".toList ∧
    ∃ root, api.xmlRoot (request.content.getD []) = some root ∧
      ¬ (root = "methodCall".toList ∨ root = "Envelope".toList)

theorem getPath_cases (api : RequestApi) (request : HttpRequest)
    (environment : Environment) :
    FreedTwice api request ∧
        environment.getPath api request = .halt .fault ∨
      ¬ FreedTwice api request ∧ ∃ path prepared,
        environment.getPath api request = .value (path, prepared) := by
  unfold Environment.getPath FreedTwice
  simp only
  by_cases xml : request.method = .post ∧
      request.contentType = "text/xml".toList
  · rw [if_pos xml]
    cases root : api.xmlRoot (request.content.getD []) with
    | none => simp
    | some name =>
        simp only
        by_cases known : name = "methodCall".toList ∨
            name = "Envelope".toList
        · rw [if_pos known]
          right
          refine ⟨?_, _, _, rfl⟩
          rintro ⟨_, _, other, same, foreign⟩
          cases same
          exact foreign known
        · rw [if_neg known]
          exact .inl ⟨⟨xml.1, xml.2, name, rfl, known⟩, rfl⟩
  · rw [if_neg xml]
    right
    refine ⟨?_, _, _, rfl⟩
    rintro ⟨post, type, _⟩
    exact xml ⟨post, type⟩

/-- The script is found or not, and if it runs, it comes to an end. -/
def ScriptEnds (server : Server W) (request : HttpRequest) (world : W)
    (environment : Environment) : Prop :=
  ∀ path prepared,
    environment.getPath server.api request = .value (path, prepared) →
      (∀ reason, (server.getApp ("file://".toList ++ path) world).2 ≠
        .halt reason) ∧
      ∀ script final,
        (server.getApp ("file://".toList ++ path) world).2 = .value script →
        prepared.initCustomParams server.api request = (final, none) →
        ∀ reason, (script final
          (server.getApp ("file://".toList ++ path) world).1).2.2 ≠
            .halt reason

theorem parseBody_std {api : RequestApi} {exception : Exc}
    (raised : parseBody api request = .error exception) :
    exception.isStd := by
  unfold parseBody at raised
  cases kind : bodyKind api.dcl request with
  | json =>
      simp only [kind, parseJson] at raised
      split at raised
      · cases raised
      · split at raised
        · cases raised
          rfl
        · cases raised
  | _ =>
      rw [kind] at raised
      cases raised

theorem initCustomParams_std {api : RequestApi}
    {environment final : Environment} {exception : Exc}
    (raised : environment.initCustomParams api request =
      (final, some exception)) : exception.isStd := by
  unfold Environment.initCustomParams at raised
  simp only at raised
  cases parsed : parseBody api request with
  | error problem =>
      rw [parsed] at raised
      cases raised
      exact parseBody_std parsed
  | ok bindings =>
      rw [parsed] at raised
      cases raised

/-- The rest of the `try` block, after the script. -/
theorem finish_sound (out : Str) (state : W × Locals) :
    Sound ((initResponse server request >>= fun _ =>
      changeResponse fun response =>
        { response with content := out }) state).outcome :=
  sound_bind (initResponse_sound state) fun _ _ => trivial

theorem runScript_sound {script : Script W} {world : W}
    {environment : Environment} (response : HttpResponse)
    (std : ∀ exception, (script environment world).2.2 = .error exception →
      exception.isStd) :
    SoundIff (∀ reason, (script environment world).2.2 ≠ .halt reason)
      ((runScript script >>= fun out =>
        initResponse server request >>= fun _ =>
          changeResponse fun response => { response with content := out })
            (world, environment, response)).outcome := by
  cases ran : script environment world with
  | mk later rest =>
      obtain ⟨final, outcome⟩ := rest
      rw [ran] at std
      cases outcome with
      | value out =>
          have run : runScript script (world, environment, response) =
              ⟨(later, final, response), [], .value out⟩ := by
            unfold runScript Prog.act
            simp only [ran]
          rw [Prog.bind_silent run]
          left
          refine ⟨?_, finish_sound out _⟩
          intro reason same
          cases same
      | error exception =>
          have run : runScript script (world, environment, response) =
              ⟨(later, final, response), [], .error (.thrown exception)⟩ := by
            unfold runScript Prog.act
            simp only [ran]
          rw [Prog.bind_error run]
          left
          refine ⟨?_, std exception rfl⟩
          intro reason same
          cases same
      | halt reason =>
          have run : runScript script (world, environment, response) =
              ⟨(later, final, response), [], .halt reason⟩ := by
            unfold runScript Prog.act
            simp only [ran]
          rw [Prog.bind_halt run]
          exact soundIff_halt (fun ends => ends reason rfl) reason

theorem respond_sound (server : Server W) (request : HttpRequest) (world : W)
    (environment : Environment) (response : HttpResponse) :
    SoundIff (¬ FreedTwice server.api request ∧
        ScriptEnds server request world environment)
      (respond server request (world, environment, response)).outcome := by
  unfold respond ScriptEnds
  rcases getPath_cases server.api request environment with
    ⟨freed, halted⟩ | ⟨free, path, prepared, located⟩
  · have run : getPath server request (world, environment, response) =
        ⟨(world, environment, response), [], .halt .fault⟩ := by
      unfold getPath Prog.act
      simp only [halted]
    rw [Prog.bind_halt run]
    exact soundIff_halt (fun good => good.1 freed) .fault
  have run : getPath server request (world, environment, response) =
      ⟨(world, prepared, response), [], .value path⟩ := by
    unfold getPath Prog.act
    simp only [located]
  rw [Prog.bind_silent run]
  simp only [free, not_false_eq_true, true_and, located, Outcome.value.injEq,
    Prod.mk.injEq, and_imp, forall_apply_eq_imp_iff, forall_eq']
  cases found : server.getApp ("file://".toList ++ path) world with
  | mk later outcome =>
      cases outcome with
      | halt reason =>
          have app : getApp server path (world, prepared, response) =
              ⟨(later, prepared, response), [], .halt reason⟩ := by
            unfold getApp Prog.act
            simp only [found]
          rw [Prog.bind_halt app]
          exact soundIff_halt (fun good => good.1 reason rfl) reason
      | error failure =>
          have app : getApp server path (world, prepared, response) =
              ⟨(later, prepared, response), [], .error failure⟩ := by
            unfold getApp Prog.act
            simp only [found]
          rw [Prog.bind_error app]
          left
          constructor
          · simp
          · apply server.getApp_std ("file://".toList ++ path) world
            rw [found]
      | value script =>
          have app : getApp server path (world, prepared, response) =
              ⟨(later, prepared, response), [], .value script⟩ := by
            unfold getApp Prog.act
            simp only [found]
          rw [Prog.bind_silent app]
          cases params : prepared.initCustomParams server.api request with
          | mk final raised =>
              cases raised with
              | some exception =>
                  have init : initCustomParams server request
                      (later, prepared, response) = ⟨(later, final, response),
                        [], .error (.thrown exception)⟩ := by
                    unfold initCustomParams Prog.act
                    simp only [params]
                  rw [Prog.bind_error init]
                  left
                  constructor
                  · simp
                  · exact initCustomParams_std params
              | none =>
                  have init : initCustomParams server request
                      (later, prepared, response) =
                        ⟨(later, final, response), [], .value ()⟩ := by
                    unfold initCustomParams Prog.act
                    simp only [params]
                  rw [Prog.bind_silent init]
                  have std (exception : Exc)
                      (thrown : (script final later).2.2 =
                        .error exception) : exception.isStd := by
                    apply server.script_std ("file://".toList ++ path) world
                      script final later exception _ thrown
                    rw [found]
                  have ends := @runScript_sound W server request script later
                    final response std
                  simpa using ends

/-- If the environment is built, its script comes to an end, and no body is
freed twice. -/
def Answers (server : Server W) (request : HttpRequest) (world : W) : Prop :=
  ∀ later environment,
    openEnvironment server request world = ⟨later, [], .value environment⟩ →
      ¬ FreedTwice server.api request ∧
        ScriptEnds server request later environment

theorem openEnvironment_cases (server : Server W) (request : HttpRequest)
    (world : W) :
    (∃ later environment, openEnvironment server request world =
      ⟨later, [], .value environment⟩) ∨
    ∃ later exception, openEnvironment server request world =
      ⟨later, [], .error (.thrown exception)⟩ ∧ exception.isStd := by
  unfold openEnvironment Prog.act
  cases loaded : (server.createSession request).load world with
  | mk later rest =>
      obtain ⟨bindings, result⟩ := rest
      simp only [loaded]
      cases result with
      | ok id => exact .inl ⟨_, _, rfl⟩
      | error exception =>
          simp only
          by_cases known : isDbp exception = true
          · rw [if_pos known]
            exact .inl ⟨_, _, rfl⟩
          · rw [if_neg known]
            refine .inr ⟨_, exception, rfl, ?_⟩
            apply server.load_std request world
            rw [loaded]

theorem processCgiRequest_sound (server : Server W) (request : HttpRequest)
    (world : W) :
    SoundIff (Answers server request world)
      (processCgiRequest server request world).outcome := by
  unfold processCgiRequest Answers
  rcases openEnvironment_cases server request world with
    ⟨later, environment, opened⟩ | ⟨later, exception, raised, std⟩
  · rw [Prog.bind_silent opened, opened]
    simp only [Run.mk.injEq, true_and, Outcome.value.injEq, and_imp,
      forall_apply_eq_imp_iff, forall_eq']
    unfold Prog.within
    simp only
    generalize HttpResponse.new.setHeader "X-Powered-By".toList
      (server.appFullName ++ " (FastCGI)".toList) = response
    rcases respond_sound server request later environment response with
      ⟨good, sound⟩ | ⟨bad, reason, halted⟩
    · left
      refine ⟨good, sound_bind ?_ fun _ _ => trivial⟩
      cases ran : respond server request (later, environment, response) with
      | mk middle out outcome =>
          rw [ran] at sound
          cases outcome with
          | value result =>
              rw [Prog.tryCatch_eq ran]
              trivial
          | halt reason => exact sound.elim
          | error failure =>
              rw [Prog.tryCatch_error ran]
              exact handle_sound sound middle
    · right
      refine ⟨bad, reason, Prog.outcome_bind_halt ?_ _⟩
      cases ran : respond server request (later, environment, response) with
      | mk middle out outcome =>
          rw [ran] at halted
          simp only at halted
          subst halted
          rw [Prog.tryCatch_halt ran]
  · rw [Prog.bind_error raised, raised]
    left
    exact ⟨by simp, std⟩

end Answering

/-! ## The loop of a worker -/

section Loop

variable {W : Type} {server : Server W}

/-- The condition on a request and on the world in which it is accepted. -/
def Served (server : Server W) (accepted : FcgxRequest) (world : W) : Prop :=
  Readable server.api.dcl server.allocates accepted ∧
    ∀ request, getRequest server.api.dcl server.http server.allocates
      accepted = .value request → Answers server request world

/-- A request that is not read leaves no response. -/
theorem serve_unread {accepted : FcgxRequest} (world : W)
    (unread : ¬ Readable server.api.dcl server.allocates accepted) :
    (serve server accepted world).outcome ≠ .value () := by
  intro returned
  apply unread
  rw [← @getRequest_value server.api.dcl server.http]
  unfold serve at returned
  rw [Prog.bind_eq (rfl : Prog.emit [Event.accepted accepted] world = _)]
    at returned
  cases read : getRequest server.api.dcl server.http server.allocates
      accepted with
  | value request => exact ⟨request, rfl⟩
  | error exception =>
      simp only [read] at returned
      rw [Prog.bind_error (rfl : Prog.act _ world = _)] at returned
      cases returned
  | halt reason =>
      simp only [read] at returned
      rw [Prog.bind_halt (rfl : Prog.act _ world = _)] at returned
      cases returned

/-- The step of the loop after the request has been read. -/
theorem serve_read {accepted : FcgxRequest} {request : HttpRequest}
    (read : getRequest server.api.dcl server.http server.allocates accepted =
      .value request) (world : W) :
    serve server accepted world =
      (Prog.emit [Event.accepted accepted] >>= fun _ =>
        (processCgiRequest server request).tryCatch (fun failure =>
          if failure.isStd then
            pure (HttpResponse.new.setMessage 500 failure.what)
          else Prog.throw failure) >>= fun response =>
            Prog.emit [Event.sent response]) world := by
  unfold serve
  simp only [read]
  rfl

theorem initResponse_silent (server : Server W) (request : HttpRequest) :
    Prog.Silent (initResponse server request) :=
  .bind (.modify _) fun _ => .act _

theorem respond_silent (server : Server W) (request : HttpRequest) :
    Prog.Silent (respond server request) := by
  apply Prog.Silent.bind (.act _)
  intro path
  apply Prog.Silent.bind (.act _)
  intro script
  apply Prog.Silent.bind (.act _)
  intro _
  apply Prog.Silent.bind (.act _)
  intro out
  exact .bind (initResponse_silent server request) fun _ => .modify _

theorem handle_silent (server : Server W) (request : HttpRequest)
    (failure : Failure) : Prog.Silent (handle server request failure) := by
  have answers (change : HttpResponse → HttpResponse) :
      Prog.Silent (initResponse server request >>= fun _ =>
        changeResponse change) :=
    .bind (initResponse_silent server request) fun _ => .modify _
  cases failure with
  | parser code what => exact answers _
  | thrown exception =>
      simp only [handle]
      split
      · exact answers _
      · split
        · exact answers _
        · exact .throw _

/-- Responses are only sent by the loop. -/
theorem processCgiRequest_silent (server : Server W)
    (request : HttpRequest) :
    Prog.Silent (processCgiRequest server request) := by
  apply Prog.Silent.bind (.act _)
  intro environment world
  have body : Prog.Silent ((respond server request).tryCatch
      (handle server request) >>= fun _ =>
        Prog.read fun (state : W × Locals) => state.2.2) :=
    .bind (.tryCatch (respond_silent server request)
      (handle_silent server request)) fun _ => .read _
  exact body _

/-- One response for a request that meets the condition, and none for one
that does not. -/
theorem serve_iff (accepted : FcgxRequest) (world : W) :
    Served server accepted world ∧ (∃ later response,
        serve server accepted world =
          ⟨later, [.accepted accepted, .sent response], .value ()⟩) ∨
      ¬ Served server accepted world ∧
        (serve server accepted world).outcome ≠ .value () := by
  by_cases readable : Readable server.api.dcl server.allocates accepted
  · obtain ⟨request, read⟩ :=
      (@getRequest_value server.api.dcl server.http _ _).mpr readable
    have quiet := processCgiRequest_silent server request world
    rw [serve_read read world,
      Prog.bind_eq (rfl : Prog.emit [Event.accepted accepted] world = _)]
    rcases processCgiRequest_sound server request world with
      ⟨good, sound⟩ | ⟨bad, reason, halted⟩
    · left
      refine ⟨⟨readable, ?_⟩, ?_⟩
      · intro other same
        rw [read] at same
        cases same
        exact good
      cases ran : processCgiRequest server request world with
      | mk later out outcome =>
          rw [ran] at quiet sound
          simp only at quiet
          subst quiet
          cases outcome with
          | halt reason => exact sound.elim
          | value response =>
              rw [Prog.bind_silent (Prog.tryCatch_eq ran _)]
              exact ⟨later, response, rfl⟩
          | error failure =>
              have derived : failure.isStd = true := sound
              have caught := Prog.tryCatch_error ran fun failure =>
                if failure.isStd then
                  pure (HttpResponse.new.setMessage 500 failure.what)
                else Prog.throw failure
              rw [if_pos derived] at caught
              rw [Prog.bind_silent caught]
              exact ⟨later, _, rfl⟩
    · right
      constructor
      · rintro ⟨_, answers⟩
        exact bad (answers request read)
      · cases ran : processCgiRequest server request world with
        | mk later out outcome =>
            rw [ran] at halted
            simp only at halted
            subst halted
            rw [Prog.bind_halt (Prog.tryCatch_halt ran _)]
            intro same
            cases same
  · right
    exact ⟨fun served => readable served.1, serve_unread world readable⟩

end Loop

/-- The worker answers every request, one after the other, and is ready for
the next one. -/
def Survives {W : Type} (server : Server W) (requests : List FcgxRequest)
    (world : W) : Prop :=
  ∃ final responses, responses.length = requests.length ∧
    processRequest server requests world =
      ⟨final, (requests.zip responses).flatMap fun exchange =>
        [.accepted exchange.1, .sent exchange.2], .value ()⟩

/-- A worker answers every request of a sequence exactly when each of them,
in the world in which it is accepted, meets the condition. -/
theorem worker_survives_iff {W : Type} (server : Server W)
    (requests : List FcgxRequest) (world : W) :
    Survives server requests world ↔
      ∀ before accepted after middle out,
        requests = before ++ accepted :: after →
        processRequest server before world = ⟨middle, out, .value ()⟩ →
        Served server accepted middle := by
  induction requests generalizing world with
  | nil =>
      constructor
      · intro _ before accepted after middle out whole
        cases before <;> cases whole
      · intro _
        exact ⟨world, [], rfl, rfl⟩
  | cons first requests induction =>
      have unrolled (others : List FcgxRequest) :
          processRequest server (first :: others) =
            serve server first >>= fun _ => processRequest server others := rfl
      unfold Survives
      rw [unrolled]
      rcases @serve_iff W server first world with
        ⟨served, later, response, ran⟩ | ⟨refused, stopped⟩
      · have rest := induction later
        rw [Prog.bind_eq ran]
        constructor
        · rintro ⟨final, responses, length, run⟩
          cases responses with
          | nil => cases length
          | cons sent responses =>
              have survives : Survives server requests later := by
                simp only [Run.mk.injEq, List.zip_cons_cons,
                  List.flatMap_cons] at run
                obtain ⟨state, out, outcome⟩ := run
                refine ⟨final, responses, Nat.succ.inj length, ?_⟩
                rw [← state, ← (List.append_inj out rfl).2, ← outcome]
              intro before accepted after middle out whole passed
              cases before with
              | nil =>
                  cases whole
                  cases passed
                  exact served
              | cons earlier before =>
                  cases whole
                  obtain ⟨between, _, _, written, step, others, _⟩ :=
                    Prog.of_bind_value passed
                  rw [ran] at step
                  cases step
                  exact rest.mp survives before accepted after middle written
                    rfl others
        · intro all
          have survives : Survives server requests later := by
            apply rest.mpr
            intro before accepted after middle out whole passed
            apply all (first :: before) accepted after middle
              ([.accepted first, .sent response] ++ out)
            · rw [whole]
              rfl
            · rw [unrolled, Prog.bind_eq ran, passed]
          obtain ⟨final, responses, length, run⟩ := survives
          refine ⟨final, response :: responses, congrArg Nat.succ length, ?_⟩
          rw [run]
          rfl
      · constructor
        · rintro ⟨final, responses, _, ran⟩
          exfalso
          obtain ⟨_, _, _, _, returned, _, _⟩ := Prog.of_bind_value ran
          rw [returned] at stopped
          exact stopped rfl
        · intro all
          exact absurd (all [] first requests world [] rfl rfl) refused

/-- Requests whose setters only know the method. -/
def HttpApi.plain : HttpApi where
  blank := DbPager.getRequest []
  setMethod name request :=
    { request with
      method := if name = "POST".toList then .post else .get
      methodName := name }
  setHeader name value request :=
    { request with headers := assign name value request.headers }
  mapOrder entries := entries

/-- A session without variables. -/
def emptySession (W : Type) : SessionHolder W where
  load world := (world, [], .ok "id".toList)
  save _ response world := (world, response, none)

theorem emptySession_loads {W : Type} (_ : HttpRequest) (world : W)
    (exception : Exc)
    (raised : ((emptySession W).load world).2.2 = .error exception) :
    exception.isStd := by
  cases raised

theorem emptySession_saves {W : Type} (_ : HttpRequest) (user : Context)
    (response : HttpResponse) (world : W) (exception : Exc)
    (raised : ((emptySession W).save user response world).2.2 =
      some exception) : exception.isStd := by
  cases raised

/-- A script that greets. -/
def greeting : Str → Unit → Unit × Outcome Failure (Script Unit)
  | _, world => (world, .value fun environment later =>
      (later, environment, .value "hello".toList))

theorem greeting_found (path : Str) (world : Unit) (failure : Failure)
    (raised : (greeting path world).2 = .error failure) : failure.isStd := by
  cases raised

theorem greeting_ends (path : Str) (world : Unit) (script : Script Unit)
    (environment : Environment) (later : Unit) (exception : Exc)
    (found : (greeting path world).2 = .value script)
    (raised : (script environment later).2.2 = .error exception) :
    exception.isStd := by
  cases found
  cases raised

def plainServer : Server Unit where
  appFullName := "dbpager".toList
  api := .plain
  http := .plain
  allocates _ := true
  createSession _ := emptySession Unit
  load_std := emptySession_loads
  save_std := emptySession_saves
  getApp := greeting
  getApp_std := greeting_found
  script_std := greeting_ends

/-- A request whose length is not a number. -/
def unsizedRequest : FcgxRequest :=
  ⟨["REQUEST_METHOD=GET".toList, "CONTENT_LENGTH=abc".toList], []⟩

/-- The request gets no response, and the worker ends. -/
theorem length_ends_worker :
    processRequest plainServer [unsizedRequest] () =
        ⟨(), [.accepted unsizedRequest],
          .error (.thrown (Dcl.plain.conversionException "abc".toList))⟩ ∧
      ¬ Survives plainServer [unsizedRequest] () := by
  have ended : processRequest plainServer [unsizedRequest] () =
      ⟨(), [.accepted unsizedRequest],
        .error (.thrown (Dcl.plain.conversionException "abc".toList))⟩ := rfl
  refine ⟨ended, ?_⟩
  rintro ⟨final, responses, _, survived⟩
  rw [ended] at survived
  have outcomes := congrArg Run.outcome survived
  cases outcomes

end DbPager.Dbpagerd
