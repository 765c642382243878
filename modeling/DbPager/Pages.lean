import DbPager.Cdata
import DbPager.Daemon
import DbPager.Scripts

/-!
# Pages and responses

A request for a page ends up as a script that is executed in the contexts of
the request, and what the script has written, the variables it leaves and the
exception it may raise become the response.  For a page of the core language
all of this is what the language says about the page.
-/

namespace DbPager

open Effect Language

variable {W : Type}

/-! ## The chain around a context -/

namespace Chain

theorem lookup_append (name : Str) (inner outer : List Context) :
    lookup name (inner ++ outer) =
      (lookup name inner).or (lookup name outer) := by
  induction inner with
  | nil => rfl
  | cons context inner induction =>
      rw [List.cons_append, lookup, lookup, induction]
      cases findVar (upName name) context.stack <;> rfl

theorem setValue_append (name value : Str) (inner outer : List Context) :
    setValue name value (inner ++ outer) =
      match setValue name value inner with
      | some changed => some (changed ++ outer)
      | none => (setValue name value outer).map (inner ++ ·) := by
  induction inner with
  | nil =>
      rw [List.nil_append, setValue]
      cases setValue name value outer <;> rfl
  | cons context inner induction =>
      rw [List.cons_append, setValue, setValue, induction]
      cases assignVar (upName name) value context.stack with
      | some stack => rfl
      | none =>
          cases setValue name value inner with
          | some changed => rfl
          | none => cases setValue name value outer <;> rfl

end Chain

/-- A variable without a layer that has its name is not bound. -/
theorem findVar_eq_none {key : Str} {layers : List Vars} :
    findVar key layers = none ↔ ∀ layer ∈ layers, key ∉ layer := by
  induction layers with
  | nil => simp [findVar]
  | cons layer layers induction =>
      rw [findVar, List.forall_mem_cons, ← AList.lookup_eq_none]
      cases layer.lookup key with
      | some value => simp
      | none => simp [induction]

namespace Layers

theorem SameNames.refl (context : Context) : SameNames context context :=
  ⟨rfl, rfl⟩

theorem SameNames.trans {first second third : Context}
    (one : SameNames first second) (two : SameNames second third) :
    SameNames first third :=
  ⟨two.type.trans one.type, two.names.trans one.names⟩

/-- Whether a name is bound depends on the names of the layers. -/
theorem SameNames.bound {before after : Context}
    (same : SameNames before after) (key : Str) :
    (findVar key after.stack).isSome = (findVar key before.stack).isSome := by
  have bound (layers : List Vars) : findVar key layers = none ↔
      ∀ keys ∈ layers.map AList.keys, key ∉ keys := by
    rw [findVar_eq_none]
    simp [AList.mem_keys]
  rw [Bool.eq_iff_iff, ← not_iff_not]
  simp only [Bool.not_eq_true, Option.isSome_eq_false_iff,
    Option.isNone_iff_eq_none]
  rw [bound, bound, same.names]

theorem bound_of_sameNames {contexts changed : List Context}
    (same : List.Forall₂ SameNames contexts changed) (name : Str) :
    (Chain.lookup name changed).isSome =
      (Chain.lookup name contexts).isSome := by
  induction same with
  | nil => rfl
  | cons here _ induction =>
      have first := here.bound (upName name)
      rw [Chain.lookup, Chain.lookup]
      revert first
      cases findVar (upName name) _ <;>
        cases findVar (upName name) _ <;> intro first
      · exact induction
      · cases first
      · cases first
      · rfl

end Layers

open Layers

/-- A chain in two parts: no part gets or loses names, and the outer part only
changes where the inner one does not hide it. -/
structure Parted (inner outer inner' outer' : List Context) : Prop where
  near : List.Forall₂ SameNames inner inner'
  far : List.Forall₂ SameNames outer outer'
  hidden : ∀ name, (Chain.lookup name inner).isSome = true →
    Chain.lookup name outer' = Chain.lookup name outer

theorem Parted.refl (inner outer : List Context) :
    Parted inner outer inner outer :=
  ⟨List.forall₂_same.mpr fun context _ => .refl context,
    List.forall₂_same.mpr fun context _ => .refl context, fun _ _ => rfl⟩

theorem Parted.trans {inner outer middle around inner' outer' : List Context}
    (one : Parted inner outer middle around)
    (two : Parted middle around inner' outer') :
    Parted inner outer inner' outer' where
  near := forall₂_trans (fun _ _ _ first second => first.trans second)
    one.near two.near
  far := forall₂_trans (fun _ _ _ first second => first.trans second)
    one.far two.far
  hidden := by
    intro name bound
    have still := (bound_of_sameNames one.near name).trans bound
    exact (two.hidden name still).trans (one.hidden name bound)

theorem Moves.parted {inner outer changed : List Context} (filled : inner ≠ [])
    (moves : Moves (inner ++ outer) changed) :
    ∃ inner' outer', changed = inner' ++ outer' ∧ inner' ≠ [] ∧
      Parted inner outer inner' outer' := by
  cases moves with
  | calls calls =>
      cases inner with
      | nil => exact absurd rfl filled
      | cons context inner =>
          refine ⟨{ context with exec := calls } :: inner, outer, rfl,
            List.cons_ne_nil _ _, ?_, ?_, fun _ _ => rfl⟩
          · refine .cons ⟨rfl, rfl⟩ ?_
            exact List.forall₂_same.mpr fun context _ => .refl context
          · exact List.forall₂_same.mpr fun context _ => .refl context
  | @set name value _ _ assigned =>
      rw [Chain.setValue_append] at assigned
      cases here : Chain.setValue name value inner with
      | some changed =>
          simp only [here, Option.some.injEq] at assigned
          have same := setValue_names here
          refine ⟨changed, outer, assigned.symm, ?_, same, ?_, fun _ _ => rfl⟩
          · rintro rfl
            cases same
            exact filled rfl
          · exact List.forall₂_same.mpr fun context _ => .refl context
      | none =>
          simp only [here, Option.map_eq_some_iff] at assigned
          obtain ⟨changed, there, rfl⟩ := assigned
          refine ⟨inner, changed, rfl, filled, ?_, setValue_names there, ?_⟩
          · exact List.forall₂_same.mpr fun context _ => .refl context
          · intro other bound
            rw [Chain.lookup_setValue there other, if_neg]
            rintro ⟨only, member, same⟩
            rw [List.mem_singleton.mp member] at same
            rw [Chain.lookup_congr same] at bound
            obtain ⟨set, done⟩ := Chain.setValue_of_bound bound value
            rw [here] at done
            cases done

/-- What happens to a chain happens to its two parts. -/
theorem Moved.parted {inner outer final : List Context} (filled : inner ≠ [])
    (moved : Moved (inner ++ outer) final) :
    ∃ inner' outer', final = inner' ++ outer' ∧
      Parted inner outer inner' outer' := by
  have strong : ∃ inner' outer', final = inner' ++ outer' ∧ inner' ≠ [] ∧
      Parted inner outer inner' outer' := by
    induction moved with
    | refl => exact ⟨inner, outer, rfl, filled, .refl inner outer⟩
    | tail _ moves induction =>
        obtain ⟨middle, around, rfl, still, before⟩ := induction
        obtain ⟨inner', outer', same, more, after⟩ := moves.parted still
        exact ⟨inner', outer', same, more, before.trans after⟩
  obtain ⟨inner', outer', same, _, parted⟩ := strong
  exact ⟨inner', outer', same, parted⟩

/-! ## Executing a page -/

/-- The environment with the contexts a script has left; the first one is the
local context of the script. -/
def Environment.leftBy (environment : Environment) :
    List Context → Environment
  | [_, session, user, global, system] => { system, global, user, session }
  | _ => environment

namespace DbpagerApplication

/-- The local context of a script. -/
def scriptContext : Context :=
  { Context.newLocal with services := true }

/-- The state a script starts in. -/
def start (environment : Environment) (world : W) : St W :=
  { contexts := scriptContext :: environment.contexts, vectors := ∅, maps := ∅
    nextAddr := 1, world, trace := [] }

/-- `dbpager_application::execute`, when the parameters of the request are set,
with a bound on the depth of nested calls. -/
def execute (outside : Outside W) (depth : Nat) (page : Tag) :
    Dbpagerd.Script W := fun environment world =>
  let run := DbPager.execute outside depth ⟨page, []⟩ none
    (start environment world)
  (run.state.world, environment.leftBy run.state.contexts,
    match run.outcome with
    | .value _ => .value run.out
    | .error exception => .error exception
    | .halt reason => .halt reason)

end DbpagerApplication

open Semantics DbpagerApplication

/-- What a script of the core language makes of an environment: the contexts
show its final variables and have no new names, and where the session hides a
variable the contexts behind it keep what they have. -/
structure Leaves (before : Environment) (vars : Variables)
    (after : Environment) : Prop where
  shown : Shows after.contexts vars
  user : SameNames before.user after.user
  global : SameNames before.global after.global
  system : SameNames before.system after.system
  behind : ∀ name,
    Chain.lookup name [after.user, after.global, after.system] =
      if (Chain.lookup name [before.session]).isSome then
        Chain.lookup name [before.user, before.global, before.system]
      else vars.lookup (upName name)

theorem leaves_of_after {environment : Environment} {world : W}
    {final : St W} {scene : Scene} (shown : Presents scene final)
    (after : After (start environment world) final) :
    Leaves environment scene.store (environment.leftBy final.contexts) := by
  have moved : Moved ([scriptContext, environment.session] ++
      [environment.user, environment.global, environment.system])
      final.contexts := after.moved
  obtain ⟨near, far, whole, parted⟩ := moved.parted (List.cons_ne_nil _ _)
  rcases parted with ⟨inside, outside, hidden⟩
  cases inside with
  | @cons _ own _ _ ownNames inside =>
  cases inside with
  | @cons _ session _ _ sessionNames inside =>
  cases inside
  cases outside with
  | @cons _ user _ _ userNames outside =>
  cases outside with
  | @cons _ global _ _ globalNames outside =>
  cases outside with
  | @cons _ system _ _ systemNames outside =>
  cases outside
  have unbound (name : Str) : findVar (upName name) own.stack = none := by
    have none_ := ownNames.bound (upName name)
    rw [← Option.isNone_iff_eq_none, ← Option.isSome_eq_false_iff, none_]
    rfl
  have visible (name : Str) : scene.store.lookup (upName name) =
      Chain.lookup name [session, user, global, system] := by
    rw [shown.shown name, whole]
    change Chain.lookup name (own :: [session, user, global, system]) = _
    rw [Chain.lookup, unbound]
  rw [whole]
  refine ⟨visible, userNames, globalNames, systemNames, ?_⟩
  intro name
  have bound : (Chain.lookup name [session]).isSome =
      (Chain.lookup name [environment.session]).isSome :=
    bound_of_sameNames (.cons sessionNames .nil) name
  split
  · rename_i hides
    apply hidden
    rw [show [scriptContext, environment.session] =
      [scriptContext] ++ [environment.session] from rfl, Chain.lookup_append,
      Option.isSome_or, hides, Bool.or_true]
  · rename_i shows_
    rw [visible, show [session, user, global, system] =
      [session] ++ [user, global, system] from rfl, Chain.lookup_append]
    rw [← bound, Bool.not_eq_true, Option.isSome_eq_false_iff,
      Option.isNone_iff_eq_none] at shows_
    rw [shows_]
    rfl

/-- The local context of a script shows nothing. -/
theorem presents_start (environment : Environment) (world : W) :
    Presents ⟨Semantics.bindings environment.contexts, []⟩
      (start environment world) where
  shown := by
    intro name
    rw [shows_bindings environment.contexts name]
    rfl
  calls := rfl
  headed := ⟨scriptContext, environment.contexts, rfl, rfl,
    List.cons_ne_nil _ _⟩

/-- What a script hands back when it has ended as the language says. -/
theorem DbpagerApplication.execute_eq {outside : Outside W} {depth : Nat}
    {page : Tag} {environment : Environment} {world : W} {final : St W}
    {ending : Ending Str Char Exc Loc}
    (ran : DbPager.execute outside depth ⟨page, []⟩ none
      (start environment world) =
        ⟨final, ending.out, outcome ending.raised⟩)
    (after : After (start environment world) final) :
    execute outside depth page environment world =
      (world, environment.leftBy final.contexts, match ending.raised with
        | none => .value ending.out
        | some exception => .error exception) := by
  unfold execute
  rw [ran]
  simp only [after.untouched.world]
  cases ending.raised <;> rfl

/-! ## The server of the pages -/

namespace Dbpagerd

/-- What the server of the pages is made of.  All exceptions are derived from
`std::exception`. -/
structure Site (W : Type) where
  appFullName : Str
  api : RequestApi
  http : HttpApi
  allocates : Nat → Bool
  createSession : HttpRequest → SessionHolder W
  load_std : ∀ request world exception,
    ((createSession request).load world).2.2 = .error exception →
      exception.isStd
  save_std : ∀ request user response world exception,
    ((createSession request).save user response world).2.2 =
      some exception → exception.isStd
  outside : Outside W
  parser : ParserApi
  /-- A bound on the depth of included files. -/
  includes : Nat
  /-- The code of an exception that is a `parser_exception`. -/
  parserCode : Exc → Option Int
  parser_std : ∀ url exception,
    DbpxParser.parse parser includes url = .error exception → exception.isStd
  page_std : ∀ url root count depth environment opening exception,
    DbpxParser.parse parser includes url = .value (some root, count) →
      (DbPager.execute outside depth ⟨root.toTag, []⟩ none
        (start environment opening)).outcome = .error exception →
      exception.isStd

namespace Site

variable (site : Site W)

/-- The constructor of `dbpager_application`: the tree of the page. -/
def newApplication (url : Str) : Outcome Failure Tag :=
  match DbpxParser.parse site.parser site.includes url with
  | .value (some root, _) => .value root.toTag
  | .value (none, _) =>
      .error (.parser 1 (site.parser.dcl.format
        "Fatal error: can't parse file {0}".toList [url]))
  | .error exception =>
      .error (match site.parserCode exception with
        | some code => .parser code exception.what
        | none => .thrown exception)
  | .halt reason => .halt reason

/-- `get_app`, for a page that is not in the cache. -/
def getApp (depth : Nat) (url : Str) (world : W) :
    W × Outcome Failure (Script W) :=
  (world, match site.newApplication url with
    | .value page => .value (DbpagerApplication.execute site.outside depth page)
    | .error failure => .error failure
    | .halt reason => .halt reason)

theorem getApp_std (depth : Nat) (url : Str) (world : W) (failure : Failure)
    (raised : (site.getApp depth url world).2 = .error failure) :
    failure.isStd := by
  unfold getApp newApplication at raised
  cases parsed : DbpxParser.parse site.parser site.includes url with
  | value found =>
      obtain ⟨root, count⟩ := found
      cases root with
      | none =>
          rw [parsed] at raised
          cases raised
          rfl
      | some root =>
          rw [parsed] at raised
          cases raised
  | error exception =>
      rw [parsed] at raised
      cases coded : site.parserCode exception with
      | none =>
          simp only [coded] at raised
          cases raised
          exact site.parser_std url exception parsed
      | some code =>
          simp only [coded] at raised
          cases raised
          rfl
  | halt reason =>
      rw [parsed] at raised
      cases raised

theorem script_std (depth : Nat) (url : Str) (world : W) (script : Script W)
    (environment : Environment) (later : W) (exception : Exc)
    (found : (site.getApp depth url world).2 = .value script)
    (raised : (script environment later).2.2 = .error exception) :
    exception.isStd := by
  unfold getApp newApplication at found
  cases parsed : DbpxParser.parse site.parser site.includes url with
  | value tree =>
      obtain ⟨root, count⟩ := tree
      cases root with
      | none =>
          rw [parsed] at found
          cases found
      | some root =>
          rw [parsed] at found
          cases found
          apply site.page_std url root count depth environment later
            exception parsed
          unfold DbpagerApplication.execute at raised
          simp only at raised
          split at raised
          · cases raised
          · rename_i same
            rw [same]
            cases raised
            rfl
          · cases raised
  | error other =>
      rw [parsed] at found
      cases found
  | halt reason =>
      rw [parsed] at found
      cases found

/-- The server, with a bound on the depth of nested calls. -/
def server (depth : Nat) : Server W where
  appFullName := site.appFullName
  api := site.api
  http := site.http
  allocates := site.allocates
  createSession := site.createSession
  load_std := site.load_std
  save_std := site.save_std
  getApp := site.getApp depth
  getApp_std := site.getApp_std depth
  script_std := site.script_std depth

end Site

/-! ## The response to a page -/

/-- Saving the session, unless the request is a HEAD request. -/
def saving (server : Server W) (request : HttpRequest) (user : Context)
    (response : HttpResponse) (world : W) :
    W × HttpResponse × Option Exc :=
  if request.method = .head then (world, response, none)
  else (server.createSession request).save user response world

/-- The response to a page that has ended, when the session is saved. -/
def concluded (ending : Ending Str Char Exc Loc) (saved : HttpResponse) :
    HttpResponse :=
  match ending.raised with
  | none => { saved with content := ending.out }
  | some exception =>
      if exception.cls = .app then answerApp exception saved
      else saved.setMessage 500 exception.what

/-- A context without variables gives no headers. -/
theorem systemHeaders_new {type : Str} {after : Context}
    (same : SameNames (Context.new type) after) (environment : Environment)
    (response : HttpResponse) :
    systemHeaders { environment with system := after } response = response := by
  have names := same.names
  have empty : after.getValues = ∅ := by
    unfold Context.getValues
    cases stack : after.stack with
    | nil =>
        rw [stack] at names
        cases names
    | cons layer layers =>
        rw [stack] at names
        obtain ⟨keys, rest⟩ := List.cons.inj names
        rw [List.map_eq_nil_iff.mp rest]
        have entries : layer.entries = [] := List.map_eq_nil_iff.mp keys
        simp only [List.foldr_cons, List.foldr_nil, entries]
  unfold systemHeaders
  rw [empty]
  rfl

section Response

variable {server : Server W} {request : HttpRequest}
  {environment final : Environment} {vars : Variables} {world later : W}
  {response saved : HttpResponse} {type : Str}

/-- `init_response` for an environment a page has left. -/
theorem initResponse_eq (leaves : Leaves environment vars final)
    (system : environment.system = Context.new type)
    (saves : saving server request final.user
      { response with
        contentType := (vars.lookup "CONTENT_TYPE".toList).getD [] } world =
      (later, saved, none)) :
    initResponse server request (world, final, response) =
      ⟨(later, final, saved), [], .value ()⟩ := by
  have headers : systemHeaders final response = response :=
    systemHeaders_new (system ▸ leaves.system) final response
  have content : Chain.getValue "CONTENT_TYPE".toList final.contexts =
      (vars.lookup "CONTENT_TYPE".toList).getD [] := by
    unfold Chain.getValue
    rw [← leaves.shown]
    rfl
  unfold initResponse
  rw [Prog.bind_silent (show Prog.modify _ (world, final, response) =
    ⟨(world, final, { response with
      contentType := (vars.lookup "CONTENT_TYPE".toList).getD [] }), [],
      .value ()⟩ by
        unfold Prog.modify
        simp only [headers, content])]
  unfold saving at saves
  unfold saveSession Prog.act
  simp only
  split at saves
  · rename_i head
    cases saves
    rw [if_pos head]
  · rename_i other
    rw [if_neg other, saves]

/-- What is done with the result of a script, in the `try` block and in the
handlers. -/
theorem concluded_eq {script : Script W} {ending : Ending Str Char Exc Loc}
    (leaves : Leaves environment ending.config.store final)
    (system : environment.system = Context.new type)
    (raises : ∀ exception, ending.raised = some exception →
      isDbp exception = true)
    (ran : script environment world =
      (world, final, match ending.raised with
        | none => .value ending.out
        | some exception => .error exception))
    (saves : saving server request final.user
      { response with
        contentType := (ending.config.store.lookup
          "CONTENT_TYPE".toList).getD [] } world = (later, saved, none)) :
    ((runScript script >>= fun out =>
        initResponse server request >>= fun _ =>
          changeResponse fun response => { response with content := out } :
        C W Unit).tryCatch (handle server request))
        (world, environment, response) =
      ⟨(later, final, concluded ending saved), [], .value ()⟩ := by
  have init := initResponse_eq leaves system saves
  unfold concluded
  cases raised : ending.raised with
  | none =>
      rw [raised] at ran
      have run : runScript script (world, environment, response) =
          ⟨(world, final, response), [], .value ending.out⟩ := by
        unfold runScript Prog.act
        simp only [ran]
      apply Prog.tryCatch_eq
      rw [Prog.bind_silent run, Prog.bind_silent init]
      rfl
  | some exception =>
      rw [raised] at ran
      have run : runScript script (world, environment, response) =
          ⟨(world, final, response), [], .error (.thrown exception)⟩ := by
        unfold runScript Prog.act
        simp only [ran]
      rw [Prog.tryCatch_error (Prog.bind_error run _)]
      have handled : handle server request (.thrown exception)
          (world, final, response) =
            ⟨(later, final, if exception.cls = .app then
                answerApp exception saved
              else saved.setMessage 500 exception.what), [], .value ()⟩ := by
        unfold handle
        simp only
        split
        · rw [Prog.bind_silent init]
          rfl
        · rw [if_pos (raises exception raised), Prog.bind_silent init]
          rfl
      rw [handled]
      rfl

end Response

/-- Before a script starts only the session context changes. -/
theorem getPath_user {api : RequestApi} {request : HttpRequest}
    {environment found : Environment} {path : Str}
    (located : environment.getPath api request = .value (path, found))
    (user : Context) :
    { environment with user }.getPath api request =
        .value (path, { found with user }) ∧
      found = { environment with session := found.session } := by
  unfold Environment.getPath at located ⊢
  simp only at located ⊢
  split at located
  · rename_i xml
    rw [if_pos xml]
    split at located
    · cases located
      exact ⟨rfl, rfl⟩
    · split at located
      · rename_i root
        cases located
        rw [if_pos root]
        exact ⟨rfl, rfl⟩
      · cases located
  · rename_i other
    cases located
    rw [if_neg other]
    exact ⟨rfl, rfl⟩

theorem initCustomParams_user {api : RequestApi} {request : HttpRequest}
    {environment ready : Environment}
    (set : environment.initCustomParams api request = (ready, none))
    (user : Context) :
    { environment with user }.initCustomParams api request =
        ({ ready with user }, none) ∧
      ready = { environment with session := ready.session } := by
  unfold Environment.initCustomParams at set ⊢
  simp only at set ⊢
  split at set
  · cases set
  · cases set
    exact ⟨rfl, rfl⟩

/-- A request for which there is a page, up to the point where the script of
the page starts. -/
structure Prepared (site : Site W) (request : HttpRequest) (world opening : W)
    (environment : Environment) (page : Tag) : Prop where
  loads : ∃ vars id path found root count,
    (site.createSession request).load world = (opening, vars, .ok id) ∧
    (Environment.http ⟨vars, .ok id⟩).getPath site.api request =
      .value (path, found) ∧
    found.initCustomParams site.api request = (environment, none) ∧
    DbpxParser.parse site.parser site.includes ("file://".toList ++ path) =
      .value (some root, count) ∧
    page = root.toTag

/-- The response the server starts with. -/
def powered (appFullName : Str) : HttpResponse :=
  HttpResponse.new.setHeader "X-Powered-By".toList
    (appFullName ++ " (FastCGI)".toList)

section Page

variable {site : Site W} {request : HttpRequest} {world opening : W}
  {environment : Environment} {page : Tag} {depth : Nat}

/-- The response to a request that has been prepared is up to the script. -/
theorem processCgiRequest_eq
    (prepared : Prepared site request world opening environment page)
    {final : W × Locals} {outcome : Outcome Failure Unit}
    (ran : ((runScript (DbpagerApplication.execute site.outside depth page) >>=
        fun out => initResponse (site.server depth) request >>= fun _ =>
          changeResponse fun response => { response with content := out } :
        C W Unit).tryCatch (handle (site.server depth) request))
        (opening, environment, powered site.appFullName) =
      ⟨final, [], outcome⟩) :
    processCgiRequest (site.server depth) request world =
      ⟨final.1, [], outcome >>= fun _ => .value final.2.2⟩ := by
  obtain ⟨vars, id, path, found, root, count, loads, located, set, parsed,
    rfl⟩ := prepared.loads
  have opens : openEnvironment (site.server depth) request world =
      ⟨opening, [], .value (Environment.http ⟨vars, .ok id⟩)⟩ := by
    unfold openEnvironment Prog.act
    have load : ((site.server depth).createSession request).load world =
        (opening, vars, .ok id) := loads
    simp only [load]
  have finds : getPath (site.server depth) request
      (opening, Environment.http ⟨vars, .ok id⟩, powered site.appFullName) =
        ⟨(opening, found, powered site.appFullName), [], .value path⟩ := by
    unfold getPath Prog.act
    have same : (Environment.http ⟨vars, .ok id⟩).getPath
        (site.server depth).api request = .value (path, found) := located
    simp only [same]
  have script : getApp (site.server depth) path
      (opening, found, powered site.appFullName) =
        ⟨(opening, found, powered site.appFullName), [],
          .value (DbpagerApplication.execute site.outside depth
            root.toTag)⟩ := by
    unfold getApp Prog.act
    have same : (site.server depth).getApp ("file://".toList ++ path)
        opening = (opening, .value (DbpagerApplication.execute site.outside
          depth root.toTag)) := by
      change site.getApp depth _ _ = _
      unfold Site.getApp Site.newApplication
      rw [parsed]
    simp only [same]
  have params : initCustomParams (site.server depth) request
      (opening, found, powered site.appFullName) =
        ⟨(opening, environment, powered site.appFullName), [],
          .value ()⟩ := by
    unfold initCustomParams Prog.act
    have same : found.initCustomParams (site.server depth).api request =
        (environment, none) := set
    simp only [same]
  have answered : ((respond (site.server depth) request).tryCatch
      (handle (site.server depth) request))
      (opening, Environment.http ⟨vars, .ok id⟩, powered site.appFullName) =
        ⟨final, [], outcome⟩ := by
    rw [← ran]
    apply Prog.tryCatch_congr
    unfold respond
    rw [Prog.bind_silent finds, Prog.bind_silent script,
      Prog.bind_silent params]
  unfold processCgiRequest
  rw [Prog.bind_silent opens]
  apply Prog.within_eq final.2
  cases outcome with
  | value done => exact Prog.bind_silent answered _
  | error failure => exact Prog.bind_error answered _
  | halt reason => exact Prog.bind_halt answered _

theorem Prepared.system
    (prepared : Prepared site request world opening environment page) :
    environment.system = Context.new "system".toList := by
  obtain ⟨vars, id, path, found, root, count, -, located, set, -, -⟩ :=
    prepared.loads
  rw [(initCustomParams_user set environment.user).2,
    (getPath_user located found.user).2]
  rfl

/-- The server answers as the language says: the content is what the page
writes, the type of the content is the final value of its variable, and an
exception that leaves the page becomes a redirection or a message.  The session
that is saved has the final values of its variables, but for those that the
session context of the request hides. -/
def PageAnswers (site : Site W) (depth : Nat) (request : HttpRequest)
    (world opening : W) (environment : Environment)
    (ending : Ending Str Char Exc Loc) : Prop :=
  ∃ final, Leaves environment ending.config.store final ∧
    ((∀ exception, ending.raised = some exception → isDbp exception = true) →
      ∀ later saved,
        saving (site.server depth) request final.user
            { powered site.appFullName with
              contentType := (ending.config.store.lookup
                "CONTENT_TYPE".toList).getD [] } opening =
          (later, saved, none) →
        processCgiRequest (site.server depth) request world =
          ⟨later, [], .value (concluded ending saved)⟩)

theorem answers_of_ran
    (prepared : Prepared site request world opening environment page)
    {final : St W} {ending : Ending Str Char Exc Loc}
    (ran : DbPager.execute site.outside depth ⟨page, []⟩ none
      (start environment opening) =
        ⟨final, ending.out, outcome ending.raised⟩)
    (shown : Presents ending.config final)
    (after : After (start environment opening) final) :
    PageAnswers site depth request world opening environment ending := by
  refine ⟨environment.leftBy final.contexts, leaves_of_after shown after, ?_⟩
  intro raises later saved saves
  exact processCgiRequest_eq prepared (concluded_eq
    (leaves_of_after shown after) prepared.system raises
    (DbpagerApplication.execute_eq ran after) saves)

/-- What the language says about a page is what the server answers. -/
theorem answers_of_exec
    (prepared : Prepared site request world opening environment page)
    {expressions : Expressions site.outside}
    {ending : Ending Str Char Exc Loc}
    (ended : Exec (meaning expressions)
      (meaning expressions (⟨page, []⟩, none))
      ⟨Semantics.bindings environment.contexts, []⟩ ending) :
    ∃ bound, ∀ depth, bound ≤ depth →
      PageAnswers site depth request world opening environment ending := by
  obtain ⟨bound, runs⟩ :=
    execute_of_exec (presents_start environment opening) ended
  refine ⟨bound, fun depth enough => ?_⟩
  obtain ⟨final, ran, shown, after⟩ := runs depth enough
  exact answers_of_ran prepared ran shown after

/-- A script that runs out of depth takes the request along. -/
theorem times_out
    (prepared : Prepared site request world opening environment page)
    (halted : (DbPager.execute site.outside depth ⟨page, []⟩ none
      (start environment opening)).outcome = .halt .timeout) :
    (processCgiRequest (site.server depth) request world).outcome =
      .halt .timeout := by
  have run : ∃ middle : W × Locals,
      runScript (DbpagerApplication.execute site.outside depth page)
        (opening, environment, powered site.appFullName) =
          ⟨middle, [], .halt .timeout⟩ := by
    unfold runScript Prog.act DbpagerApplication.execute
    simp only [halted]
    exact ⟨_, rfl⟩
  obtain ⟨middle, run⟩ := run
  rw [processCgiRequest_eq prepared (Prog.tryCatch_halt
    (Prog.bind_halt run _) _)]
  rfl

/-- The responses to requests for a page of the core language are those the
language gives.  What the language says about the page in the environment of
the request, the server answers, with any depth from some bound on; and
whatever the server answers, the language says so, or the depth was not
enough. -/
theorem page_response {expressions : Expressions site.outside}
    (prepared : Prepared site request world opening environment page)
    (core : Reached expressions (⟨page, []⟩, none)) :
    (∀ ending, Exec (meaning expressions)
        (meaning expressions (⟨page, []⟩, none))
        ⟨Semantics.bindings environment.contexts, []⟩ ending →
      ∃ bound, ∀ depth, bound ≤ depth →
        PageAnswers site depth request world opening environment ending) ∧
    ∀ depth,
      (processCgiRequest (site.server depth) request world).outcome =
        .halt .timeout ∨
      ∃ ending, Exec (meaning expressions)
          (meaning expressions (⟨page, []⟩, none))
          ⟨Semantics.bindings environment.contexts, []⟩ ending ∧
        PageAnswers site depth request world opening environment ending := by
  refine ⟨fun _ => answers_of_exec prepared, fun depth => ?_⟩
  rcases execute_ends core (presents_start environment opening)
    (fun _ member => absurd member List.not_mem_nil) depth with
    ⟨_, halted⟩ | ⟨ending, final, answered, ran, shown, after⟩
  · exact .inl (times_out prepared halted)
  · exact .inr ⟨ending, exec_run answered,
      answers_of_ran prepared ran shown after⟩

end Page

/-! ## A page that counts -/

def visitsName : Str :=
  "visits".toList

def setName : XmlName :=
  ⟨"set".toList, head_ne_at (Char.ne_of_val_ne nofun)⟩

/-- `<dbp:set name="visits">`. -/
def setVisits : Element :=
  ⟨setName, dbpagerUri, setName,
    [⟨"name".toList, "name".toList, false, [], visitsName⟩]⟩

/-- `<dbp:set name="visits">{$visits}1</dbp:set>{$visits}` in a module. -/
def counterDocument : Document :=
  ⟨0, DbpxParser.dbpElement DbpxParser.moduleName,
    some [.element setVisits [.text "\x7b$visits\x7d1".toList],
      .text "\x7b$visits\x7d".toList], 0⟩

def counterNode : Node :=
  .node ⟨0, 0, .module, [], []⟩
    [.node ⟨1, 1, .set, [("name".toList, visitsName)], []⟩
      [.node ⟨2, 2, .expression, [], "\x7b$visits\x7d1".toList⟩ []],
    .node ⟨3, 1, .expression, [], "\x7b$visits\x7d".toList⟩ []]

/-- A parser that finds the page everywhere. -/
abbrev counterParser : ParserApi :=
  DbpxParser.plainParser fun _ => some ⟨counterDocument.events, none⟩

theorem counter_parsed (url : Str) :
    DbpxParser.parse counterParser 1 url = .value (some counterNode, 4) :=
  rfl

section Counting

variable {W : Type}

/-- The name of the variable, as the contexts have it. -/
abbrev visitsKey : Str :=
  upName visitsName

theorem visits_value (vars : Variables) :
    (Expressions.templates (.closed W)).value "\x7b$visits\x7d".toList vars =
      some (.ok ((vars.lookup visitsKey).getD [])) := by
  have read : template none "\x7b$visits\x7d".toList =
      some [.var visitsName rfl] := rfl
  unfold Expressions.templates
  simp only [read, Option.map_some, Template.fill, List.flatMap_cons,
    List.flatMap_nil, List.append_nil]

theorem next_value (vars : Variables) :
    (Expressions.templates (.closed W)).value "\x7b$visits\x7d1".toList vars =
      some (.ok ((vars.lookup visitsKey).getD [] ++ "1".toList)) := by
  have read : template none "\x7b$visits\x7d1".toList =
      some [.var visitsName rfl, .literal "1".toList rfl] := rfl
  unfold Expressions.templates
  simp only [read, Option.map_some, Template.fill, List.flatMap_cons,
    List.flatMap_nil, List.append_nil]

/-- What the page writes into the variable. -/
def nextCount (vars : Variables) : Str :=
  (vars.lookup visitsKey).getD [] ++ "1".toList

/-- The `set` of the page assigns what its body writes. -/
theorem visits_set {scene after : Scene} {raised : Option Exc} {up : List Tag}
    (assigned : Exec (meaning (.templates (.closed W)))
      (Semantics.assign .plain visitsName (nextCount scene.store)) scene
        ⟨after, [], raised⟩) :
    Exec (meaning (.templates (.closed W)))
      (tagSet (.templates (.closed W)) ⟨counterNode.toTag.childs[0], up⟩ none)
      scene ⟨after, [], raised⟩ := by
  have named : param (.templates (.closed W))
      ⟨counterNode.toTag.childs[0], up⟩ "name" scene.store =
        some (.ok visitsName) := rfl
  have single : (Outside.closed W).dcl.tokens visitsName = [visitsName] := rfl
  refine .captureThen (.seqThen
    (.invoke (.computeThen (next_value scene.store) .write)) .write)
    (.computeThen named ?_)
  rw [single, show counterNode.toTag.childs[0].text = [] from rfl]
  simp only [List.append_nil]
  cases raised with
  | none => exact .seqThen assigned .write
  | some exception => exact .seqRaise assigned

/-- A page that finds the variable counts on, and shows the count. -/
theorem counter_counts {scene : Scene}
    (bound : (scene.store.lookup visitsKey).isSome = true) :
    Exec (meaning (.templates (.closed W)))
      (meaning (.templates (.closed W)) (⟨counterNode.toTag, []⟩, none)) scene
      ⟨scene.declare visitsKey (nextCount scene.store), nextCount scene.store,
        none⟩ := by
  have shown := visits_value (W := W)
    (scene.declare visitsKey (nextCount scene.store)).store
  rw [show (scene.declare visitsKey (nextCount scene.store)).store =
    scene.store.insert visitsKey (nextCount scene.store) from rfl,
    Finmap.lookup_insert] at shown
  have assigns : Exec (meaning (.templates (.closed W)))
      (.invoke ((⟨counterNode.toTag, []⟩ : Loc).child
        counterNode.toTag.childs[0], none)) scene
      ⟨scene.declare visitsKey (nextCount scene.store), [], none⟩ :=
    .invoke (visits_set (.assignBound bound))
  have writes : Exec (meaning (.templates (.closed W)))
      (.invoke ((⟨counterNode.toTag, []⟩ : Loc).child
        counterNode.toTag.childs[1], none))
      (scene.declare visitsKey (nextCount scene.store))
      ⟨scene.declare visitsKey (nextCount scene.store), nextCount scene.store,
        none⟩ :=
    .invoke (.computeThen shown .write)
  have ended : Exec (meaning (.templates (.closed W)))
      (meaning (.templates (.closed W)) (⟨counterNode.toTag, []⟩, none)) scene
      ⟨scene.declare visitsKey (nextCount scene.store),
        nextCount scene.store ++ [], none⟩ :=
    assigns.seqThen (writes.seqThen .write)
  rwa [List.append_nil] at ended

/-- Without the variable, there is nothing to count. -/
theorem counter_raises {scene : Scene}
    (unbound : (scene.store.lookup visitsKey).isSome = false) :
    Exec (meaning (.templates (.closed W)))
      (meaning (.templates (.closed W)) (⟨counterNode.toTag, []⟩, none)) scene
      ⟨scene, [], some (undefinedVariable .plain visitsName)⟩ :=
  .seqRaise (.invoke (visits_set (.assignUnbound unbound)))

end Counting

theorem counter_reached {W : Type} :
    Reached (.templates (.closed W)) (⟨counterNode.toTag, []⟩, none) := by
  refine ⟨⟨.mk ⟨?_, trivial⟩ ?_, by simp⟩, by simp⟩
  · intro param member
    cases member
  · intro child member
    rcases List.mem_pair.mp member with rfl | rfl
    · refine .mk ⟨?_, trivial⟩ ?_
      · intro param member vars
        obtain rfl := List.mem_singleton.mp member
        rfl
      · intro child member
        obtain rfl := List.mem_singleton.mp member
        refine .mk ⟨?_, fun vars => ?_⟩ ?_
        · intro param member
          cases member
        · exact Option.isSome_iff_exists.mpr ⟨_, next_value vars⟩
        · intro child member
          cases member
    · refine .mk ⟨?_, fun vars => ?_⟩ ?_
      · intro param member
        cases member
      · exact Option.isSome_iff_exists.mpr ⟨_, visits_value vars⟩
      · intro child member
        cases member

theorem counter_parser_std (url : Str) (exception : Exc)
    (raised : DbpxParser.parse counterParser 1 url = .error exception) :
    exception.isStd := by
  cases raised

theorem counter_page_std {W : Type} (url : Str) (root : Node)
    (count depth : Nat) (environment : Environment) (opening : W)
    (exception : Exc)
    (parsed : DbpxParser.parse counterParser 1 url =
      .value (some root, count))
    (raised : (DbPager.execute (.closed W) depth ⟨root.toTag, []⟩ none
      (start environment opening)).outcome = .error exception) :
    exception.isStd := by
  cases (counter_parsed url).symm.trans parsed
  rcases execute_ends counter_reached (presents_start environment opening)
    (fun _ member => absurd member List.not_mem_nil) depth with
    ⟨_, halted⟩ | ⟨ending, final, answered, same, _⟩
  · rw [raised] at halted
    cases halted
  · have ended := exec_run answered
    rw [same] at raised
    cases bound : ((Semantics.bindings environment.contexts).lookup
        visitsKey).isSome with
    | true =>
        rw [ended.unique (counter_counts bound)] at raised
        cases raised
    | false =>
        rw [ended.unique (counter_raises bound)] at raised
        cases raised
        rfl

/-- A session that has seen one visit. -/
def oneVisit : SessionHolder Unit where
  load world := (world, [(visitsKey, "1".toList)], .ok "id".toList)
  save _ response world := (world, response, none)

theorem oneVisit_loads (_ : HttpRequest) (world : Unit) (exception : Exc)
    (raised : (oneVisit.load world).2.2 = .error exception) :
    exception.isStd := by
  cases raised

theorem oneVisit_saves (_ : HttpRequest) (user : Context)
    (response : HttpResponse) (world : Unit) (exception : Exc)
    (raised : (oneVisit.save user response world).2.2 = some exception) :
    exception.isStd := by
  cases raised

def counterSite : Site Unit where
  appFullName := "dbpager".toList
  api := .plain
  http := .plain
  allocates _ := true
  createSession _ := oneVisit
  load_std := oneVisit_loads
  save_std := oneVisit_saves
  outside := .plain
  parser := counterParser
  includes := 1
  parserCode _ := none
  parser_std := counter_parser_std
  page_std := counter_page_std

def counterRequest : HttpRequest :=
  { DbPager.getRequest [] with
    processVars := [("FCGI_ROLE".toList, "RESPONDER".toList)] }

/-- The page is found in an environment with the variable of the session, and
the language lets it write the next count. -/
theorem counter_prepared : ∃ environment ending,
    Prepared counterSite counterRequest () () environment counterNode.toTag ∧
    Exec (meaning plainTexts)
      (meaning plainTexts (⟨counterNode.toTag, []⟩, none))
      ⟨Semantics.bindings environment.contexts, []⟩ ending ∧
    ending.raised = none ∧ ending.out = "11".toList := by
  obtain ⟨found, environment, located, set, visited⟩ : ∃ found environment,
      (Environment.http ⟨[(visitsKey, "1".toList)], .ok "id".toList⟩).getPath
          counterSite.api counterRequest = .value ("/page".toList, found) ∧
        found.initCustomParams counterSite.api counterRequest =
          (environment, none) ∧
        Chain.lookup visitsName environment.contexts = some "1".toList :=
    ⟨_, _, rfl, rfl, rfl⟩
  have shown := (shows_bindings environment.contexts visitsName).trans visited
  refine ⟨environment, _, ⟨_, _, _, _, _, _, rfl, located, set,
    counter_parsed _, rfl⟩, counter_counts (by rw [shown]; rfl), rfl, ?_⟩
  change nextCount (Semantics.bindings environment.contexts) = _
  unfold nextCount
  rw [shown]
  rfl

/-- The next count is what the response has for its content. -/
theorem counter_response : ∃ depth response,
    processCgiRequest (counterSite.server depth) counterRequest () =
        ⟨(), [], .value response⟩ ∧
      response.content = "11".toList := by
  obtain ⟨environment, ending, prepared, ended, fine, shows⟩ := counter_prepared
  obtain ⟨bound, answers⟩ := (page_response prepared counter_reached).1 ending
    ended
  obtain ⟨last, _, answered⟩ := answers bound (Nat.le_refl bound)
  refine ⟨bound, _, answered (by rw [fine]; rintro _ ⟨⟩) _ _ rfl, ?_⟩
  unfold concluded
  rw [fine]
  exact shows

end Dbpagerd

end DbPager
