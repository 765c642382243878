import DbPager.Daemon
import DbPager.Session.Jwt

/-!
# Opening a JWT session

The constructor of the environment takes an exception of the session for a
session error if it is a `dbp::exception`, and the script then runs without a
session.  Decoding the token raises an exception of another kind.
-/

namespace DbPager

namespace Session.Jwt

/-- The bindings the loop of `load` adds to a context, and how it ends. -/
def added (api : Api) (settings : Settings) :
    List (Sigma fun _ : Str => Json) → List (Str × Str) × Option Exc
  | [] => ([], none)
  | entry :: entries =>
      if entry.1.head? = some '_' then
        match entry.2.asString with
        | some text =>
            ((settings.namePrefix ++ entry.1, text) ::
              (added api settings entries).1, (added api settings entries).2)
        | none => ([], some (verificationFailed api.inconvertible))
      else added api settings entries

theorem addClaims_added (api : Api) (settings : Settings)
    (entries : List (Sigma fun _ : Str => Json)) (user : Context) :
    addClaims api settings entries user =
      (user.addValues (added api settings entries).1,
        (added api settings entries).2) := by
  induction entries generalizing user with
  | nil => rfl
  | cons entry entries induction =>
      unfold addClaims added
      split
      · cases entry.2.asString with
        | none => rfl
        | some text => exact induction _
      · exact induction user

/-- The loop ends normally or with the exception of the module. -/
theorem added_cases (api : Api) (settings : Settings)
    (entries : List (Sigma fun _ : Str => Json)) :
    (added api settings entries).2 = none ∨
      (added api settings entries).2 =
        some (verificationFailed api.inconvertible) := by
  induction entries with
  | nil => exact .inl rfl
  | cons entry entries induction =>
      unfold added
      split
      · cases entry.2.asString with
        | none => exact .inr rfl
        | some text => exact induction
      · exact induction

namespace HolderJwt

/-- `load` without the context: the bindings it adds and how it ends. -/
def loaded (api : Api) (now : Int) (holder : HolderJwt) :
    List (Str × Str) × Option Exc :=
  if holder.id.isEmpty then ([], none)
  else
    match api.decode holder.id with
    | none => ([], some (invalidToken api holder.id))
    | some payload =>
        match api.verify holder.settings.verifier now holder.id with
        | some what => ([], some (verificationFailed what))
        | none => added api holder.settings payload.claims.entries

theorem load_loaded (api : Api) (now : Int) (holder : HolderJwt)
    (user : Context) :
    holder.load api now user =
      (user.addValues (holder.loaded api now).1,
        (holder.loaded api now).2) := by
  unfold load loaded
  split
  · rfl
  · cases api.decode holder.id with
    | none => rfl
    | some payload =>
        simp only
        cases api.verify holder.settings.verifier now holder.id with
        | some what => rfl
        | none => exact addClaims_added api _ _ user

/-- A text that is decoded, and an empty one, is at worst refused by the
module itself. -/
theorem loaded_cases (api : Api) (now : Int) (holder : HolderJwt) :
    ((holder.id = [] ∨ (api.decode holder.id).isSome) ∧
      ((holder.loaded api now).2 = none ∨
        ∃ what, (holder.loaded api now).2 =
          some (verificationFailed what))) ∨
    (¬ (holder.id = [] ∨ (api.decode holder.id).isSome) ∧
      (holder.loaded api now).2 = some (invalidToken api holder.id)) := by
  unfold loaded
  split
  · rename_i empty
    exact .inl ⟨.inl (List.isEmpty_iff.mp empty), .inl rfl⟩
  · rename_i present
    cases decoded : api.decode holder.id with
    | none =>
        refine .inr ⟨?_, rfl⟩
        simp [List.isEmpty_iff] at present
        simp [present]
    | some payload =>
        refine .inl ⟨.inr rfl, ?_⟩
        simp only
        cases api.verify holder.settings.verifier now holder.id with
        | some what => exact .inr ⟨what, rfl⟩
        | none =>
            rcases added_cases api holder.settings payload.claims.entries with
              ended | raised
            · exact .inl ended
            · exact .inr ⟨api.inconvertible, raised⟩

/-- Everything `load` raises is derived from `std::exception`. -/
theorem loaded_std {api : Api} {now : Int} {holder : HolderJwt}
    {exception : Exc}
    (raised : (holder.loaded api now).2 = some exception) :
    exception.isStd := by
  rcases loaded_cases api now holder with ⟨_, ended | ⟨what, refused⟩⟩ |
    ⟨_, malformed⟩
  · rw [ended] at raised
    cases raised
  · rw [refused] at raised
    cases raised
    rfl
  · rw [malformed] at raised
    cases raised
    rfl

theorem collect_std {stem : Str} {entries : List (Sigma fun _ : Str => Str)}
    {claims : AList fun _ : Str => Json} {exception : Exc}
    (raised : collect stem entries claims = .error exception) :
    exception.isStd := by
  induction entries generalizing claims with
  | nil => cases raised
  | cons entry entries induction =>
      unfold collect at raised
      split at raised
      · split at raised
        · cases raised
          rfl
        · exact induction raised
      · exact induction raised

theorem identical_std {api : Api} {stem : Str} {current : Payload}
    {entries : List (Sigma fun _ : Str => Str)} {exception : Exc}
    (raised : identical api stem current entries = .error exception) :
    exception.isStd := by
  induction entries with
  | nil => cases raised
  | cons entry entries induction =>
      unfold identical at raised
      split at raised
      · cases found : current.member (lowName (entry.1.drop stem.length)) with
        | none => simp [found] at raised
        | some value =>
            cases text : value.asString with
            | none =>
                simp only [found, text] at raised
                cases raised
                rfl
            | some text =>
                simp only [found, text] at raised
                split at raised
                · exact induction raised
                · cases raised
      · exact induction raised

theorem outdated_std {api : Api} {holder : HolderJwt}
    {entries : List (Sigma fun _ : Str => Str)} {exception : Exc}
    (raised : holder.outdated api entries = .error exception) :
    exception.isStd := by
  unfold outdated at raised
  split at raised
  · cases raised
  · cases decoded : api.decode holder.id with
    | none =>
        simp only [decoded] at raised
        cases raised
        rfl
    | some current =>
        simp only [decoded] at raised
        cases compared : identical api holder.settings.stem current entries with
        | ok same => simp [compared, Except.map] at raised
        | error other =>
            simp only [compared, Except.map] at raised
            cases raised
            exact identical_std compared

theorem save_std {api : Api} {now : Int} {holder : HolderJwt} {user : Context}
    {exception : Exc}
    (raised : holder.save api now user = .error exception) :
    exception.isStd := by
  unfold save at raised
  split at raised
  · split at raised <;> cases raised
  · cases collected : collect holder.settings.stem
      user.getValues.entries ∅ with
    | error other =>
        simp only [collected] at raised
        cases raised
        exact collect_std collected
    | ok claims =>
        cases compared : holder.outdated api user.getValues.entries with
        | error other =>
            simp only [collected, compared] at raised
            cases raised
            exact outdated_std compared
        | ok isNew =>
            simp only [collected, compared] at raised
            cases isNew <;> cases raised

end HolderJwt

end Session.Jwt

namespace Dbpagerd

open Effect Session Session.Jwt

variable {W : Type}

/-- The session of a request, as the worker sees it. -/
def jwtSession (api : Api) (clock : W → Int) (holder : HolderJwt) :
    SessionHolder W where
  load world :=
    (world, (holder.loaded api (clock world)).1,
      match (holder.loaded api (clock world)).2 with
      | none => .ok holder.id
      | some exception => .error exception)
  save user response world :=
    match holder.save api (clock world) user with
    | .ok (_, cookies) =>
        (world, { response with cookies := response.cookies ++ cookies }, none)
    | .error exception => (world, response, some exception)

theorem jwtSession_load_std (api : Api) (clock : W → Int) (holder : HolderJwt)
    (world : W) (exception : Exc)
    (raised : ((jwtSession api clock holder).load world).2.2 =
      .error exception) : exception.isStd := by
  cases ended : (holder.loaded api (clock world)).2 with
  | none => simp [jwtSession, ended] at raised
  | some other =>
      simp only [jwtSession, ended] at raised
      cases raised
      exact HolderJwt.loaded_std ended

theorem jwtSession_save_std (api : Api) (clock : W → Int) (holder : HolderJwt)
    (user : Context) (response : HttpResponse) (world : W) (exception : Exc)
    (raised : ((jwtSession api clock holder).save user response world).2.2 =
      some exception) : exception.isStd := by
  cases saved : holder.save api (clock world) user with
  | ok result => simp [jwtSession, saved] at raised
  | error other =>
      simp only [jwtSession, saved] at raised
      cases raised
      exact HolderJwt.save_std saved

/-- jwt-cpp, the settings of the module, the clock and the cookies of a
request. -/
structure JwtModule (W : Type) where
  api : Api
  settings : Settings
  clock : W → Int
  cookies : HttpRequest → List (Str × Str)

namespace JwtModule

variable (jwt : JwtModule W)

def holder (request : HttpRequest) : HolderJwt :=
  .create jwt.settings request.https (jwt.cookies request)

/-- A server that keeps its sessions in tokens. -/
def serving (server : Server W) : Server W :=
  { server with
    createSession := fun request =>
      jwtSession jwt.api jwt.clock (jwt.holder request)
    load_std := fun request =>
      jwtSession_load_std jwt.api jwt.clock (jwt.holder request)
    save_std := fun request =>
      jwtSession_save_std jwt.api jwt.clock (jwt.holder request) }

end JwtModule

/-- What the worker does with a request once the environment is there. -/
def respondIn (server : Server W) (request : HttpRequest)
    (environment : Environment) : Prog W Failure Event HttpResponse :=
  Prog.within (environment, HttpResponse.new.setHeader
      "X-Powered-By".toList (server.appFullName ++ " (FastCGI)".toList)) do
    (respond server request).tryCatch (handle server request)
    Prog.read fun (_, _, response) => response

/-- The environment after `load` has ended normally: it has the variables and
the identifier of the session. -/
structure SessionOpen (jwt : JwtModule W) (request : HttpRequest) (world : W)
    (environment : Environment) : Prop where
  loaded : (jwt.holder request).load jwt.api (jwt.clock world)
    Context.newUser = (environment.user, none)
  session : Chain.lookup "SESSION".toList environment.contexts =
    some (jwt.holder request).id

/-- The environment after `load` has raised the exception of the module. -/
def SessionRefused (jwt : JwtModule W) (request : HttpRequest) (world : W)
    (environment : Environment) : Prop :=
  ∃ what, (jwt.holder request).load jwt.api (jwt.clock world)
      Context.newUser =
        (environment.user, some (verificationFailed what)) ∧
    Chain.lookup "SESSION_ERROR".toList environment.contexts =
      some (verificationFailed what).what

/-- Whatever the user context is, `load` loads the session or raises the
exception of the module; and the script runs, in the environment that results
from it. -/
structure OnlySessionError (jwt : JwtModule W) (server : Server W)
    (request : HttpRequest) (world : W) : Prop where
  load : ∀ user,
    ((jwt.holder request).load jwt.api (jwt.clock world) user).2 = none ∨
      ∃ what, ((jwt.holder request).load jwt.api (jwt.clock world) user).2 =
        some (verificationFailed what)
  runs : ∃ environment, (SessionOpen jwt request world environment ∨
      SessionRefused jwt request world environment) ∧
    processCgiRequest (jwt.serving server) request world =
      respondIn (jwt.serving server) request environment world

theorem lookup_of_findVar {name value : Str} {context : Context}
    (found : findVar (upName name) context.stack = some value)
    (parents : List Context) :
    Chain.lookup name (context :: parents) = some value := by
  rw [Chain.lookup, found]

theorem lookup_http_id (bindings : List (Str × Str)) (id : Str) :
    Chain.lookup "SESSION".toList
      (Environment.http ⟨bindings, .ok id⟩).contexts = some id := by
  apply lookup_of_findVar
  exact findVar_new Context.localType (upName "SESSION".toList)
    [("CONTENT_TYPE".toList, "text/plain".toList), ("SESSION".toList, id),
      ("SESSION_PERSISTENT".toList, "0".toList)]

theorem lookup_http_error (bindings : List (Str × Str)) (what : Str) :
    Chain.lookup "SESSION_ERROR".toList
      (Environment.http ⟨bindings, .error what⟩).contexts = some what := by
  apply lookup_of_findVar
  exact findVar_new Context.localType (upName "SESSION_ERROR".toList)
    [("CONTENT_TYPE".toList, "text/plain".toList),
      ("SESSION_ERROR".toList, what),
      ("SESSION_PERSISTENT".toList, "0".toList)]

theorem processCgiRequest_opened {server : Server W} {request : HttpRequest}
    {world later : W} {environment : Environment}
    (opened : openEnvironment server request world =
      ⟨later, [], .value environment⟩) :
    processCgiRequest server request world =
      respondIn server request environment later := by
  unfold processCgiRequest
  rw [Prog.bind_silent opened]
  rfl

/-- A request whose cookie can be decoded, or that has none, gets its
environment. -/
theorem runs_of_decodes {jwt : JwtModule W} {request : HttpRequest}
    {world : W}
    (ended : ((jwt.holder request).loaded jwt.api (jwt.clock world)).2 = none ∨
      ∃ what, ((jwt.holder request).loaded jwt.api (jwt.clock world)).2 =
        some (verificationFailed what)) (server : Server W) :
    ∃ environment, (SessionOpen jwt request world environment ∨
        SessionRefused jwt request world environment) ∧
      processCgiRequest (jwt.serving server) request world =
        respondIn (jwt.serving server) request environment world := by
  have whole := HolderJwt.load_loaded jwt.api (jwt.clock world)
    (jwt.holder request) Context.newUser
  rcases ended with ended | ⟨what, refused⟩
  · rw [ended] at whole
    refine ⟨_, .inl ⟨whole, lookup_http_id _ _⟩, ?_⟩
    apply processCgiRequest_opened
    simp [openEnvironment, Prog.act, JwtModule.serving, jwtSession, ended]
  · rw [refused] at whole
    refine ⟨_, .inr ⟨what, whole, lookup_http_error _ _⟩, ?_⟩
    apply processCgiRequest_opened
    simp [openEnvironment, Prog.act, JwtModule.serving, jwtSession, refused,
      isDbp, verificationFailed, Exc.dbp]

/-- The exception of the decoder leaves the constructor of the environment,
and no script runs. -/
theorem malformed_stops_request {jwt : JwtModule W} {request : HttpRequest}
    (malformed : ¬ ((jwt.holder request).id = [] ∨
      (jwt.api.decode (jwt.holder request).id).isSome))
    (server : Server W) (world : W) :
    processCgiRequest (jwt.serving server) request world =
      ⟨world, [], .error (.thrown
        (invalidToken jwt.api (jwt.holder request).id))⟩ := by
  rcases HolderJwt.loaded_cases jwt.api (jwt.clock world)
    (jwt.holder request) with ⟨decodes, -⟩ | ⟨-, raised⟩
  · exact absurd decodes malformed
  · apply Prog.bind_error
    simp [openEnvironment, Prog.act, JwtModule.serving, jwtSession, raised,
      isDbp, invalidToken]

/-- A cookie is at worst a session error exactly when it is empty or can be
decoded. -/
theorem only_session_error_iff (jwt : JwtModule W) (server : Server W)
    (request : HttpRequest) (world : W) :
    OnlySessionError jwt server request world ↔
      (jwt.holder request).id = [] ∨
        (jwt.api.decode (jwt.holder request).id).isSome := by
  have load (user : Context) := congrArg Prod.snd
    (HolderJwt.load_loaded jwt.api (jwt.clock world) (jwt.holder request) user)
  rcases HolderJwt.loaded_cases jwt.api (jwt.clock world)
    (jwt.holder request) with ⟨decodes, ended⟩ | ⟨malformed, raised⟩
  · refine ⟨fun _ => decodes, fun _ => ⟨fun user => ?_, ?_⟩⟩
    · rw [load user]
      exact ended
    · exact runs_of_decodes ended server
  · refine ⟨fun only => ?_, fun decodes => absurd decodes malformed⟩
    rcases only.load Context.newUser with ended | ⟨what, refused⟩
    · rw [load, raised] at ended
      cases ended
    · rw [load, raised] at refused
      cases refused

/-- A library that takes every text with two dots for a token. -/
def dottedTokens : Api where
  decode token :=
    if token.count '.' = 2 then some ⟨none, none, none, none, ∅⟩ else none
  malformed _ := "invalid token supplied".toList
  verify _ _ _ := none
  sign _ _ := "..".toList
  inconvertible := "".toList

/-- A request with a session cookie that is not a token. -/
def wordCookie : JwtModule Unit where
  api := dottedTokens
  settings := ⟨100, "secret".toList, "token".toList, []⟩
  clock _ := 0
  cookies _ := [("session-token".toList, "abc".toList)]

theorem word_cookie_not_session_error :
    ¬ ∀ (jwt : JwtModule Unit) (server : Server Unit) (request : HttpRequest)
      (world : Unit), OnlySessionError jwt server request world := by
  intro only
  have decodes := (only_session_error_iff wordCookie plainServer
    plainServer.http.blank ()).mp (only _ _ _ _)
  revert decodes
  decide

end Dbpagerd

end DbPager
