import DbPager.Session.Concurrent
import DbPager.Pages

/-!
# Conversations

A server of sessions keeps one text for each of them.  Seen from the pages, it
keeps the values of the variables of each session: a page finds there what the
page before it in the same session has left, and no request touches the session
of another one.
-/

namespace DbPager

open Effect Language Layers Semantics Dbpagerd DbpagerApplication

namespace Session

/-! ## One text -/

/-- A value that survives the text format. -/
def PlainValue (value : Str) : Prop :=
  ';' ∉ value ∧ Char.ofNat 0 ∉ value

section Text

variable {dcl : Dcl} {server : Server}

theorem stored_eq (store : Vars) (id key : Str) :
    server.stored dcl store id key =
      lastBinding key (readText dcl (server.getValue store id)) :=
  findVar_newUser key _

theorem plain_stored (cuts : Cuts dcl) {store : Vars} {id key value : Str}
    (found : server.stored dcl store id key = some value) :
    PlainValue value := by
  rw [stored_eq] at found
  obtain ⟨name, member, _⟩ := mem_of_lastBinding found
  have writable := writable_loaded cuts server store id _ member
  exact ⟨writable.2.2.1.2, writable.2.2.2.2⟩

/-- A context with the names it was loaded with has one layer. -/
theorem layer_of_sameNames {bindings : List (Str × Str)} {user : Context}
    (same : SameNames (Context.newUser.addValues bindings) user) :
    ∃ layer, user.stack = [layer] ∧ ∀ key,
      (layer.lookup key).isSome = (lastBinding key bindings).isSome := by
  obtain ⟨vars, loaded⟩ : ∃ vars, Context.newUser.addValues bindings =
      Context.ofUser vars := addValues_ofUser bindings ∅
  have names := same.names
  have bound (key : Str) : (findVar key user.stack).isSome =
      (lastBinding key bindings).isSome := by
    rw [same.bound key, findVar_newUser]
  rw [loaded] at names
  cases stack : user.stack with
  | nil =>
      rw [stack] at names
      cases names
  | cons layer layers =>
      rw [stack] at names bound
      obtain ⟨_, rest⟩ := List.cons.inj names
      rw [List.map_eq_nil_iff.mp rest] at bound ⊢
      refine ⟨layer, rfl, fun key => ?_⟩
      rw [← bound key]
      exact congrArg Option.isSome (findVar_ofUser layer key).symm

/-- The variables of a session come back as they have been saved, as long as
their values are plain. -/
theorem stored_left (cuts : Cuts dcl) {store : Vars} {id : Str}
    {user : Context}
    (same : SameNames (Context.newUser.addValues
      (readText dcl (server.getValue store id))) user)
    (plain : ∀ key value, findVar key user.stack = some value →
      PlainValue value) (key : Str) :
    server.stored dcl (server.save store id user) id key =
      findVar key user.stack := by
  obtain ⟨layer, stack, bound⟩ := layer_of_sameNames same
  have shown (key : Str) : findVar key user.stack = layer.lookup key := by
    rw [stack]
    exact findVar_ofUser layer key
  have saved : server.save store id user =
      server.save store id (Context.ofUser layer) := by
    unfold Server.save savedText Context.empty Context.getValues
    rw [stack]
    rfl
  have origin : ∀ key value, layer.lookup key = some value →
      ∃ name old, Writable (name, old) ∧ upName name = key := by
    intro key value found
    have isBound := bound key
    rw [found] at isBound
    obtain ⟨old, last⟩ := Option.isSome_iff_exists.mp isBound.symm
    obtain ⟨name, member, upper⟩ := mem_of_lastBinding last
    exact ⟨name, old, writable_loaded cuts server store id _ member, upper⟩
  rw [saved, shown]
  by_cases filled : layer.entries = []
  · have skipped : server.save store id (Context.ofUser layer) = store := by
      unfold Server.save savedText
      rw [if_pos (by simp [Context.empty, Context.ofUser, filled])]
    have absent : layer.lookup key = none := by
      simp [AList.lookup, filled]
    have unbound := bound key
    rw [absent] at unbound
    rw [skipped, stored_eq, absent]
    exact Option.isNone_iff_eq_none.mp (Option.isSome_eq_false_iff.mp
      unbound.symm)
  · refine Server.returns_of_plain cuts server store id filled ?_ ?_ ?_ key
    · intro name member
      obtain ⟨value, found⟩ := Option.isSome_iff_exists.mp
        (AList.lookup_isSome.mpr member)
      obtain ⟨original, old, writable, rfl⟩ := origin name value found
      refine ⟨?_, upName_idem original, ?_, ?_⟩
      · intro empty
        exact writable.1 (List.map_eq_nil_iff.mp empty)
      · exact not_mem_upName (by decide) writable.2.1
      · exact not_mem_upName (by decide) writable.2.2.1.1
    · intro name value found
      exact (plain name value ((shown name).trans found)).1
    · intro name value found
      obtain ⟨original, old, writable, rfl⟩ := origin name value found
      exact ⟨not_mem_upName (by decide) writable.2.2.2.1,
        (plain _ value ((shown _).trans found)).2⟩

/-- Other sessions are left alone. -/
theorem stored_save_other {store : Vars} {id other : Str} (user : Context)
    (apart : server.key other ≠ server.key id) (key : Str) :
    server.stored dcl (server.save store id user) other key =
      server.stored dcl store other key := by
  have kept : server.getValue (server.save store id user) other =
      server.getValue store other := by
    unfold Server.save
    cases savedText user with
    | none => rfl
    | some text =>
        unfold Server.getValue Server.putValue
        simp only [AList.lookup_insert_ne apart]
  rw [stored_eq, stored_eq, kept]

theorem stored_of_key {store : Vars} {id other : Str}
    (same : server.key other = server.key id) (key : Str) :
    server.stored dcl store other key = server.stored dcl store id key := by
  rw [stored_eq, stored_eq]
  unfold Server.getValue
  rw [same]

end Text

/-! ## What a request finds -/

/-- A request asks for a page, and `own` is what it binds itself: its headers,
its parameters, and what the server adds. -/
def Asks {W : Type} (site : Site W) (id : Str) (request : HttpRequest)
    (own : Context) (page : Tag) : Prop :=
  ∃ path found ready root count,
    (Environment.http ⟨[], .ok id⟩).getPath site.api request =
      .value (path, found) ∧
    found.initCustomParams site.api request = (ready, none) ∧
    DbpxParser.parse site.parser site.includes ("file://".toList ++ path) =
      .value (some root, count) ∧
    page = root.toTag ∧ own = ready.session

/-- The environment of a request in a session with some variables. -/
def environmentOf (own : Context) (bindings : List (Str × Str)) :
    Environment :=
  { Environment.new with
    session := own
    user := Context.newUser.addValues bindings }

theorem prepared_of_asks {W : Type} {site : Site W} {id : Str}
    {request : HttpRequest} {own : Context} {page : Tag} {world opening : W}
    {bindings : List (Str × Str)} (asks : Asks site id request own page)
    (loads : (site.createSession request).load world =
      (opening, bindings, .ok id)) :
    Prepared site request world opening (environmentOf own bindings) page := by
  obtain ⟨path, found, ready, root, count, located, set, parsed, rfl, rfl⟩ :=
    asks
  obtain ⟨finds, rest⟩ := getPath_user located
    (Context.newUser.addValues bindings)
  obtain ⟨sets, others⟩ := initCustomParams_user set
    (Context.newUser.addValues bindings)
  have whole : environmentOf ready.session bindings =
      { ready with user := Context.newUser.addValues bindings } := by
    rw [others, rest]
    rfl
  rw [whole]
  exact ⟨bindings, id, path, _, root, count, loads, finds, sets, parsed, rfl⟩

theorem lookup_environmentOf (own : Context) (bindings : List (Str × Str))
    (name : Str) :
    Chain.lookup name (environmentOf own bindings).contexts =
      (Chain.lookup name [own]).or (lastBinding (upName name) bindings) := by
  rw [show (environmentOf own bindings).contexts = [own] ++
    [Context.newUser.addValues bindings, .new "global".toList,
      .new "system".toList] from rfl, Chain.lookup_append]
  congr 1
  rw [Chain.lookup, findVar_newUser]
  cases lastBinding (upName name) bindings <;> rfl

/-- What a page leaves in the user context are the final values of the
variables, unless the request hides them. -/
theorem lookup_left {own : Context} {bindings : List (Str × Str)}
    {vars : Variables} {final : Environment}
    (leaves : Leaves (environmentOf own bindings) vars final) (name : Str) :
    findVar (upName name) final.user.stack =
      if (Chain.lookup name [own]).isSome then
        lastBinding (upName name) bindings
      else vars.lookup (upName name) := by
  have unbound {type : Str} {context : Context}
      (same : SameNames (Context.new type) context) (key : Str) :
      findVar key context.stack = none := by
    have bound := same.bound key
    rw [show findVar key (Context.new type).stack = none from rfl] at bound
    exact Option.isNone_iff_eq_none.mp (Option.isSome_eq_false_iff.mp bound)
  have behind := leaves.behind name
  have before : Chain.lookup name [(environmentOf own bindings).user,
      (environmentOf own bindings).global,
      (environmentOf own bindings).system] =
        lastBinding (upName name) bindings := by
    rw [Chain.lookup, show (environmentOf own bindings).user =
      Context.newUser.addValues bindings from rfl, findVar_newUser]
    cases lastBinding (upName name) bindings <;> rfl
  have after : Chain.lookup name [final.user, final.global, final.system] =
      findVar (upName name) final.user.stack := by
    rw [Chain.lookup, Chain.lookup, Chain.lookup,
      unbound leaves.global, unbound leaves.system]
    cases findVar (upName name) final.user.stack <;> rfl
  rw [before, after] at behind
  exact behind

/-! ## Sessions and their variables -/

/-- The values of the variables of each session. -/
abbrev Sessions :=
  Str → Str → Option Str

def Sessions.Plain (sessions : Sessions) : Prop :=
  ∀ id name value, sessions id name = some value → PlainValue value

/-- What a server holds, as the pages see it. -/
def Server.held (dcl : Dcl) (server : Server) (store : Vars) : Sessions :=
  fun id name => server.stored dcl store id (upName name)

/-- The session of a request, on a server that is there. -/
def Server.session (dcl : Dcl) (server : Server) (holder : Holder) :
    SessionHolder Vars where
  load store :=
    (store, readText dcl (server.getValue store holder.id), .ok holder.id)
  save user response store :=
    (server.save store holder.id user,
      { response with cookies := response.cookies ++ holder.cookies user },
      none)

/-- The values a session has after a page: the final ones, but those of the
request itself have hidden the variables of the session. -/
def carried (own : Context) (vars : Variables) (values : Str → Option Str) :
    Str → Option Str := fun name =>
  if (Chain.lookup name [own]).isSome then values name
  else vars.lookup (upName name)

/-- The sessions after a request; a HEAD request leaves them as they are. -/
def Server.turned (server : Server) (request : HttpRequest) (id : Str)
    (values : Str → Option Str) (sessions : Sessions) : Sessions :=
  fun other =>
    if request.method ≠ .head ∧ server.key other = server.key id then values
    else sessions other

section Conversation

variable (site : Site Vars) (server : Server) (holderOf : HttpRequest → Holder)

/-- A page is executed for a session, with the values its variables have, and
leaves new ones.  An exception that leaves the page is one of the program. -/
inductive Turn : Sessions → HttpRequest → Sessions → Prop
  | page {sessions request own page vars ending}
      {expressions : Expressions site.outside}
      (asks : Asks site (holderOf request).id request own page)
      (shown : ∀ name, vars.lookup (upName name) =
        (Chain.lookup name [own]).or (sessions (holderOf request).id name))
      (ended : Exec (meaning expressions)
        (meaning expressions (⟨page, []⟩, none)) ⟨vars, []⟩ ending)
      (raises : ∀ exception, ending.raised = some exception →
        isDbp exception = true) :
      Turn sessions request (server.turned request (holderOf request).id
        (carried own ending.config.store (sessions (holderOf request).id))
        sessions)

/-- Requests of any sessions, one after the other. -/
inductive Talk : Sessions → List HttpRequest → Sessions → Prop
  | nil {sessions} : Talk sessions [] sessions
  | cons {sessions request middle others final}
      (here : Turn site server holderOf sessions request middle)
      (later : Talk middle others final) :
      Talk sessions (request :: others) final

/-- The server answers some requests. -/
inductive Responds (depth : Nat) : Vars → List HttpRequest → Vars → Prop
  | nil {store} : Responds depth store [] store
  | cons {store request response middle others final}
      (here : processCgiRequest (site.server depth) request store =
        ⟨middle, [], .value response⟩)
      (later : Responds depth middle others final) :
      Responds depth store (request :: others) final

/-- A request for a page of the core language that only raises exceptions of
the program itself. -/
def CorePage (request : HttpRequest) : Prop :=
  ∃ own page, ∃ expressions : Expressions site.outside,
    Asks site (holderOf request).id request own page ∧
    Reached expressions (⟨page, []⟩, none) ∧
    ∀ vars ending, Exec (meaning expressions)
        (meaning expressions (⟨page, []⟩, none)) ⟨vars, []⟩ ending →
      ∀ exception, ending.raised = some exception → isDbp exception = true

variable {site server holderOf} {dcl : Dcl}

theorem plain_held (cuts : Cuts dcl) (store : Vars) :
    (server.held dcl store).Plain :=
  fun _ _ _ found => plain_stored cuts found

/-- A page reads what the request binds, and behind it the session. -/
theorem lookup_held (own : Context) (store : Vars) (id name : Str) :
    Chain.lookup name (environmentOf own
        (readText dcl (server.getValue store id))).contexts =
      (Chain.lookup name [own]).or (server.held dcl store id name) := by
  rw [lookup_environmentOf]
  unfold Server.held
  rw [stored_eq]

/-- What the server keeps after a request are the sessions after it. -/
theorem held_saved (cuts : Cuts dcl) {request : HttpRequest} {own : Context}
    {store : Vars} {id : Str} {vars : Variables} {final : Environment}
    (leaves : Leaves (environmentOf own
      (readText dcl (server.getValue store id))) vars final)
    (plain : (server.turned request id
      (carried own vars (server.held dcl store id))
        (server.held dcl store)).Plain) :
    server.held dcl (if request.method = .head then store
        else server.save store id final.user) =
      server.turned request id (carried own vars (server.held dcl store id))
        (server.held dcl store) := by
  have left (name : Str) : findVar (upName name) final.user.stack =
      carried own vars (server.held dcl store id) name := by
    rw [lookup_left leaves]
    unfold carried Server.held
    rw [stored_eq]
  funext other name
  have values := plain id
  unfold Server.turned at values ⊢
  by_cases head : request.method = .head
  · rw [if_pos head, if_neg fun both => both.1 head]
  · rw [if_neg head]
    rw [if_pos ⟨head, rfl⟩] at values
    by_cases same : server.key other = server.key id
    · rw [if_pos ⟨head, same⟩, ← left]
      unfold Server.held
      rw [stored_of_key same]
      apply stored_left cuts leaves.user
      intro key value found
      have bound := leaves.user.bound key
      rw [found, show (environmentOf own (readText dcl
        (server.getValue store id))).user = Context.newUser.addValues
          (readText dcl (server.getValue store id)) from rfl,
        findVar_newUser] at bound
      obtain ⟨old, last⟩ := Option.isSome_iff_exists.mp bound.symm
      obtain ⟨name, _, rfl⟩ := mem_of_lastBinding last
      exact values name value ((left name).symm.trans found)
    · rw [if_neg fun both => same both.2]
      exact stored_save_other final.user same _

/-- Saving never fails. -/
theorem saving_eq (kept : ∀ request, site.createSession request =
      server.session dcl (holderOf request))
    (depth : Nat) (request : HttpRequest) (user : Context)
    (response : HttpResponse) (store : Vars) :
    ∃ saved, saving (site.server depth) request user response store =
      (if request.method = .head then store
        else server.save store (holderOf request).id user, saved, none) := by
  have session : (site.server depth).createSession request =
      server.session dcl (holderOf request) := kept request
  unfold saving
  by_cases head : request.method = .head
  · rw [if_pos head, if_pos head]
    exact ⟨response, rfl⟩
  · rw [if_neg head, if_neg head, session]
    exact ⟨_, rfl⟩

theorem loads_eq (kept : ∀ request, site.createSession request =
      server.session dcl (holderOf request))
    (request : HttpRequest) (store : Vars) :
    (site.createSession request).load store =
      (store, readText dcl (server.getValue store (holderOf request).id),
        .ok (holderOf request).id) := by
  rw [kept request]
  rfl

/-- One request: the server of texts does what the sessions do. -/
theorem turn_of_response (cuts : Cuts dcl)
    (kept : ∀ request, site.createSession request =
      server.session dcl (holderOf request))
    {request : HttpRequest} (core : CorePage site holderOf request)
    {depth : Nat} {store later : Vars} {response : HttpResponse}
    (plain : ∀ after, Turn site server holderOf (server.held dcl store) request
      after → after.Plain)
    (answered : processCgiRequest (site.server depth) request store =
      ⟨later, [], .value response⟩) :
    Turn site server holderOf (server.held dcl store) request
      (server.held dcl later) := by
  obtain ⟨own, page, expressions, asks, reached, raises⟩ := core
  have prepared := prepared_of_asks asks (loads_eq kept request store)
  rcases execute_ends reached (presents_start _ store)
    (fun _ member => absurd member List.not_mem_nil) depth with
    ⟨_, halted⟩ | ⟨ending, final, ran, same, left, after⟩
  · have stopped := times_out prepared halted
    rw [answered] at stopped
    cases stopped
  · have ended := exec_run ran
    have turn : Turn site server holderOf (server.held dcl store) request _ :=
      .page asks (fun name => (shows_bindings _ name).trans
        (lookup_held own store _ name)) ended (raises _ _ ended)
    obtain ⟨last, leaves, responds⟩ := answers_of_ran prepared same left after
    obtain ⟨saved, saves⟩ := saving_eq kept depth request last.user _ store
    have given := responds (raises _ _ ended) _ _ saves
    rw [answered] at given
    have stored : later = _ := congrArg (fun run => run.state) given
    rw [stored, held_saved cuts leaves (plain _ turn)]
    exact turn

/-- One turn of the sessions: the server of texts takes it, with any texts that
stand for the sessions. -/
theorem response_of_turn (cuts : Cuts dcl)
    (kept : ∀ request, site.createSession request =
      server.session dcl (holderOf request))
    {sessions after : Sessions} {request : HttpRequest}
    (turn : Turn site server holderOf sessions request after)
    (plain : after.Plain) :
    ∃ bound, ∀ depth, bound ≤ depth → ∀ store,
      server.held dcl store = sessions → ∃ later response,
        processCgiRequest (site.server depth) request store =
            ⟨later, [], .value response⟩ ∧
          server.held dcl later = after := by
  cases turn with
  | page asks shown ended raises =>
      obtain ⟨bound, runs⟩ := executes_of_exec ended
      refine ⟨bound, fun depth enough store stands => ?_⟩
      subst stands
      have prepared := prepared_of_asks asks (loads_eq kept request store)
      obtain ⟨final, ran, left, after⟩ := runs depth enough _
        { presents_start _ store with
          shown := fun name =>
            (shown name).trans (lookup_held _ store _ name).symm }
      obtain ⟨last, leaves, responds⟩ := answers_of_ran prepared ran left after
      obtain ⟨saved, saves⟩ := saving_eq kept depth request last.user _ store
      exact ⟨_, _, responds raises _ _ saves, held_saved cuts leaves plain⟩

/-- Whatever requests of whatever sessions the server answers, the sessions
take the same turns. -/
theorem talk_of_responds (cuts : Cuts dcl)
    (kept : ∀ request, site.createSession request =
      server.session dcl (holderOf request))
    {requests : List HttpRequest}
    (core : ∀ request ∈ requests, CorePage site holderOf request)
    (plain : ∀ request ∈ requests, ∀ sessions after, sessions.Plain →
      Turn site server holderOf sessions request after → after.Plain)
    {depth : Nat} {store final : Vars}
    (responds : Responds site depth store requests final) :
    Talk site server holderOf (server.held dcl store) requests
      (server.held dcl final) := by
  induction responds with
  | nil => exact .nil
  | cons here _ induction =>
      have turn := turn_of_response cuts kept (core _ List.mem_cons_self)
        (fun after => plain _ List.mem_cons_self _ after (plain_held cuts _))
        here
      apply Talk.cons turn
      apply induction
      · exact fun request member => core request (List.mem_cons_of_mem _ member)
      · exact fun request member =>
          plain request (List.mem_cons_of_mem _ member)

/-- Whatever turns the sessions take, the server answers the requests, with any
depth from some bound on. -/
theorem responds_of_talk (cuts : Cuts dcl)
    (kept : ∀ request, site.createSession request =
      server.session dcl (holderOf request))
    {requests : List HttpRequest} {sessions after : Sessions}
    (plain : ∀ request ∈ requests, ∀ sessions after, sessions.Plain →
      Turn site server holderOf sessions request after → after.Plain)
    (begins : sessions.Plain)
    (talk : Talk site server holderOf sessions requests after) :
    ∃ bound, ∀ depth, bound ≤ depth → ∀ store,
      server.held dcl store = sessions → ∃ final,
        Responds site depth store requests final ∧
          server.held dcl final = after := by
  induction talk with
  | nil => exact ⟨0, fun _ _ store stands => ⟨store, .nil, stands⟩⟩
  | cons here _ induction =>
      have clean := plain _ List.mem_cons_self _ _ begins here
      obtain ⟨first, answers⟩ := response_of_turn cuts kept here clean
      obtain ⟨bound, others⟩ := induction (fun request member =>
        plain request (List.mem_cons_of_mem _ member)) clean
      refine ⟨max first bound, fun depth enough store stands => ?_⟩
      obtain ⟨middle, response, answered, same⟩ :=
        answers depth (le_of_max_le_left enough) store stands
      obtain ⟨final, later, ends⟩ :=
        others depth (le_of_max_le_right enough) middle same
      exact ⟨final, .cons answered later, ends⟩

/-- A server that keeps each session as a text is a server that keeps each
session as a table of its variables: what it answers, the sessions do, and what
the sessions do, it answers with enough depth. -/
theorem server_keeps_sessions (cuts : Cuts dcl)
    (kept : ∀ request, site.createSession request =
      server.session dcl (holderOf request))
    {requests : List HttpRequest}
    (core : ∀ request ∈ requests, CorePage site holderOf request)
    (plain : ∀ request ∈ requests, ∀ sessions after, sessions.Plain →
      Turn site server holderOf sessions request after → after.Plain)
    (store : Vars) :
    (∀ depth final, Responds site depth store requests final →
      Talk site server holderOf (server.held dcl store) requests
        (server.held dcl final)) ∧
    ∀ after, Talk site server holderOf (server.held dcl store) requests after →
      ∃ bound, ∀ depth, bound ≤ depth → ∃ final,
        Responds site depth store requests final ∧
          server.held dcl final = after := by
  refine ⟨fun _ _ => talk_of_responds cuts kept core plain, ?_⟩
  intro after talk
  obtain ⟨bound, responds⟩ :=
    responds_of_talk cuts kept plain (plain_held cuts store) talk
  exact ⟨bound, fun depth enough => responds depth enough store rfl⟩

end Conversation

/-! ## One session -/

def keptHolder : Holder :=
  ⟨"id".toList, false, false⟩

abbrev keptSession : SessionHolder Vars :=
  Server.redis.session .plain keptHolder

theorem keptSession_loads (_ : HttpRequest) (store : Vars) (exception : Exc)
    (raised : (keptSession.load store).2.2 = .error exception) :
    exception.isStd := by
  cases raised

theorem keptSession_saves (_ : HttpRequest) (user : Context)
    (response : HttpResponse) (store : Vars) (exception : Exc)
    (raised : (keptSession.save user response store).2.2 = some exception) :
    exception.isStd := by
  cases raised

/-- The page that counts, in sessions. -/
def keptSite : Site Vars where
  appFullName := "dbpager".toList
  api := .plain
  http := .plain
  allocates _ := true
  createSession _ := keptSession
  load_std := keptSession_loads
  save_std := keptSession_saves
  outside := .closed Vars
  parser := counterParser
  includes := 1
  parserCode _ := none
  parser_std := counter_parser_std
  page_std := counter_page_std

theorem counter_asks : ∃ own,
    Asks keptSite "id".toList counterRequest own counterNode.toTag ∧
      Chain.lookup visitsName [own] = none := by
  unfold Asks
  exact ⟨_, ⟨_, _, _, _, _, rfl, rfl, counter_parsed _, rfl, rfl⟩, rfl⟩

/-- The page counts on, whatever the meaning of the expressions is, and leaves
the other variables alone. -/
theorem counter_leaves {expressions : Expressions (Outside.closed Vars)}
    {vars : Variables} {ending : Ending Str Char Exc Loc}
    (ended : Exec (meaning expressions)
      (meaning expressions (⟨counterNode.toTag, []⟩, none)) ⟨vars, []⟩
        ending) :
    (∀ exception, ending.raised = some exception →
      isDbp exception = true) ∧
    ∀ name, ending.config.store.lookup (upName name) =
      (vars.lookup (upName name)).map fun value =>
        if upName name = visitsKey then value ++ "1".toList else value := by
  obtain ⟨state, shown⟩ := exists_presents vars (∅ : Vars)
  cases bound : vars.lookup visitsKey with
  | some count =>
      obtain ⟨-, raised, same⟩ := same_ending shown ended
        (counter_counts (by rw [bound]; rfl))
      rw [raised]
      refine ⟨by rintro _ ⟨⟩, fun name => ?_⟩
      rw [same]
      change (vars.insert visitsKey (nextCount vars)).lookup _ = _
      by_cases here : upName name = visitsKey
      · rw [here, Finmap.lookup_insert, nextCount, bound]
        rfl
      · rw [Finmap.lookup_insert_of_ne _ here]
        simp only [if_neg here, Option.map_id']
  | none =>
      obtain ⟨-, raised, same⟩ := same_ending shown ended
        (counter_raises (by rw [bound]; rfl))
      rw [raised]
      refine ⟨by rintro _ ⟨⟩; rfl, fun name => ?_⟩
      rw [same]
      by_cases here : upName name = visitsKey
      · rw [here, bound]
        rfl
      · simp only [if_neg here, Option.map_id']

theorem counter_plain {sessions after : Sessions} (plain : sessions.Plain)
    (turn : Turn keptSite .redis (fun _ => keptHolder) sessions counterRequest
      after) : after.Plain := by
  cases turn with
  | page asks shown ended _ =>
      obtain ⟨path, found, ready, root, count, _, _, parsed, rfl, rfl⟩ := asks
      cases (counter_parsed _).symm.trans parsed
      have same := (counter_leaves ended).2
      intro id name value held
      unfold Server.turned at held
      split at held
      · unfold carried at held
        split at held
        · exact plain _ name value held
        · rename_i unbound
          rw [same, shown name, Option.not_isSome_iff_eq_none.mp unbound,
            Option.none_or] at held
          obtain ⟨old, stored, rfl⟩ := Option.map_eq_some_iff.mp held
          obtain ⟨noSemicolon, noNull⟩ := plain _ name old stored
          split
          · constructor
            · simpa using noSemicolon
            · simpa using noNull
          · exact ⟨noSemicolon, noNull⟩
      · exact plain id name value held

theorem counter_turns {sessions : Sessions} {vars : Variables} {own : Context}
    {count : Str}
    (asks : Asks keptSite "id".toList counterRequest own counterNode.toTag)
    (unset : Chain.lookup visitsName [own] = none)
    (shown : ∀ name, vars.lookup (upName name) =
      (Chain.lookup name [own]).or (sessions "id".toList name))
    (held : sessions "id".toList visitsName = some count) :
    ∃ (after : Sessions) (left : Variables),
      Turn keptSite .redis (fun _ => keptHolder) sessions counterRequest
        after ∧
      (∀ name, left.lookup (upName name) =
        (Chain.lookup name [own]).or (after "id".toList name)) ∧
      after "id".toList visitsName = some (count ++ "1".toList) := by
  have bound : vars.lookup visitsKey = some count := by
    rw [shown, unset, held]
    rfl
  have ended := @counter_counts Vars ⟨vars, []⟩ (by rw [bound]; rfl)
  refine ⟨_, vars.insert visitsKey (nextCount vars), .page asks shown ended
    (by rintro _ ⟨⟩), fun name => ?_, ?_⟩
  · unfold Server.turned
    rw [if_pos ⟨by decide, rfl⟩]
    unfold carried
    cases hides : Chain.lookup name [own] with
    | some value =>
        have other : upName name ≠ visitsKey := by
          intro same
          rw [Chain.lookup_congr same, unset] at hides
          cases hides
        rw [Finmap.lookup_insert_of_ne _ other, shown, hides]
        rfl
    | none => rfl
  · unfold Server.turned
    rw [if_pos ⟨by decide, rfl⟩]
    unfold carried
    rw [unset]
    change (vars.insert visitsKey (nextCount vars)).lookup visitsKey = _
    rw [Finmap.lookup_insert, nextCount, bound]
    rfl

theorem counter_talks : ∃ depth final,
    Responds keptSite depth (single "id".toList "VISITS=1".toList)
        [counterRequest, counterRequest] final ∧
      Talk keptSite .redis (fun _ => keptHolder)
        (Server.redis.held .plain (single "id".toList "VISITS=1".toList))
        [counterRequest, counterRequest] (Server.redis.held .plain final) ∧
      Server.redis.held .plain final "id".toList visitsName =
        some "111".toList := by
  obtain ⟨own, asks, unset⟩ := counter_asks
  have once : Server.redis.held .plain
      (single "id".toList "VISITS=1".toList) "id".toList visitsName =
        some "1".toList := rfl
  obtain ⟨middle, vars, first, shown, counted⟩ := counter_turns asks unset
    (fun name => (shows_bindings _ name).trans (lookup_held own
      (single "id".toList "VISITS=1".toList) "id".toList name)) once
  obtain ⟨after, _, second, _, recounted⟩ :=
    counter_turns asks unset shown counted
  have core : ∀ request ∈ [counterRequest, counterRequest],
      CorePage keptSite (fun _ => keptHolder) request := by
    intro request member
    obtain rfl : request = counterRequest := by simpa using member
    exact ⟨own, _, _, asks, counter_reached,
      fun _ _ ended => (counter_leaves ended).1⟩
  have plain : ∀ request ∈ [counterRequest, counterRequest], ∀ sessions after,
      Sessions.Plain sessions → Turn keptSite .redis (fun _ => keptHolder)
        sessions request after → after.Plain := by
    intro request member sessions after plain turn
    obtain rfl : request = counterRequest := by simpa using member
    exact counter_plain plain turn
  have kept (_ : HttpRequest) : keptSite.createSession counterRequest =
      Server.redis.session .plain keptHolder := rfl
  obtain ⟨answered, answers⟩ := server_keeps_sessions Cuts.plain kept core
    plain (single "id".toList "VISITS=1".toList)
  obtain ⟨bound, responds⟩ :=
    answers after (.cons first (.cons second .nil))
  obtain ⟨final, served, holds⟩ := responds bound (Nat.le_refl bound)
  exact ⟨bound, final, served, answered bound final served,
    holds ▸ recounted⟩

end Session

end DbPager
