import DbPager.Session.Format

/-!
# The environment of a request

Before a script starts, the server builds the chain of its contexts: the user
variables are loaded from the session, and everything the request submits is
bound in the context in front of them.  Names are taken from the request as
they come.
-/

namespace DbPager

open Effect

inductive HttpMethod where
  | head
  | get
  | del
  | put
  | post
  | other
  deriving DecidableEq

/-- What the environment reads of `http_request`. -/
structure HttpRequest where
  method : HttpMethod
  /-- The name of the method, as `method()` returns it. -/
  methodName : Str
  headers : List (Str × Str)
  queryString : Str
  contentType : Str
  /-- `get_content()`; there may be none. -/
  content : Option Str
  pathInfo : Str
  pathTranslated : Str
  remoteAddr : Str
  serverName : Str
  serverPort : Int
  https : Bool
  /-- The variables of the process that the FastCGI server passes on. -/
  processVars : List (Str × Str)

/-- A MIME entity as mimetic reads it. -/
inductive MimeEntity where
  | mk (formData : Bool) (name filename contentType body : Str)
      (parts : List MimeEntity)

/-- The libraries that take a request apart. -/
structure RequestApi where
  dcl : Dcl
  json : JsonApi
  mime : Str → MimeEntity
  /-- The name of the root element, if the text is an XML document. -/
  xmlRoot : Str → Option Str

/-! ## Names and values of a request -/

/-- `params[param].push_back(value)` in a `std::map`. -/
def pushParam (param value : Str) :
    List (Str × List Str) → List (Str × List Str)
  | [] => [(param, [value])]
  | entry :: entries =>
      if param = entry.1 then (entry.1, entry.2 ++ [value]) :: entries
      else if param < entry.1 then (param, [value]) :: entry :: entries
      else entry :: pushParam param value entries

/-- The parameters of a text `a=1&b=2`, in the order of the map. -/
def groupParams (dcl : Dcl) (text : Str) : List (Str × List Str) :=
  (dcl.tokenize text "&".toList).foldl (fun params token =>
    pushParam (dcl.urlDecode (dcl.tokenizePair token "=".toList).1)
      (dcl.urlDecode (dcl.tokenizePair token "=".toList).2) params) []

/-- Several values of one parameter are separated by commas. -/
def joinValues : List Str → Str
  | [value] => value
  | values =>
      values.foldl (fun joined value =>
        (if joined.isEmpty then joined else joined ++ ",".toList) ++ value) []

def paramBindings (dcl : Dcl) (text : Str) : List (Str × Str) :=
  (groupParams dcl text).map fun entry => (entry.1, joinValues entry.2)

mutual

/-- `parse_mime`. -/
def parseMime (dcl : Dcl) : MimeEntity → List (Str × Str)
  | .mk formData name filename contentType body parts =>
      (if formData then
        [(name, body),
          (name ++ "_size".toList, dcl.toStringInt body.length),
          (name ++ "_filename".toList, filename),
          (name ++ "_content_type".toList, contentType)]
      else []) ++ parseMimeAll dcl parts

def parseMimeAll (dcl : Dcl) : List MimeEntity → List (Str × Str)
  | [] => []
  | part :: parts => parseMime dcl part ++ parseMimeAll dcl parts

end

/-- The ways a request body can be read. -/
inductive BodyKind where
  | head
  | none
  | urlencoded
  | data
  | json
  | plain
  deriving DecidableEq

/-- The `switch` of `init_custom_params`. -/
def bodyKind (dcl : Dcl) (request : HttpRequest) : BodyKind :=
  match request.method with
  | .head => .head
  | .get | .del => .none
  | .put | .post =>
      let type := dcl.trim (dcl.tokenizePair request.contentType ";".toList).1
      if dcl.compare type "application/x-www-form-urlencoded".toList then
        .urlencoded
      else if dcl.compare type "multipart/form-data".toList then .data
      else if dcl.compare type "application/json".toList then .json
      else .plain
  | .other => .plain

def parseUrlencoded (dcl : Dcl) (request : HttpRequest) :
    List (Str × Str) :=
  match request.content with
  | none => []
  | some value => paramBindings dcl (cString value)

def parseData (api : RequestApi) (request : HttpRequest) :
    List (Str × Str) :=
  parseMime api.dcl (api.mime ("Content-Type: ".toList ++
    request.contentType ++ "\r\n\r\n".toList ++ request.content.getD []))

def parsePlain (request : HttpRequest) : List (Str × Str) :=
  match request.content with
  | none => []
  | some value => [("content".toList, value)]

/-- The value of a member of a JSON object. -/
def memberText (json : JsonApi) : Json → Str
  | .null => []
  | .scalar asString _ => asString
  | value => json.write value

/-- The bindings of a JSON body, or the exception. -/
def parseJson (api : RequestApi) (request : HttpRequest) :
    Except Exc (List (Str × Str)) :=
  match request.content with
  | none => .ok []
  | some value =>
      match api.json.parse (cString value) with
      | none =>
          .error (api.dcl.exception "invalid JSON structure of the request" [])
      | some root =>
          .ok (("content".toList, api.json.write root) ::
            match root with
            | .object members =>
                members.map fun member =>
                  (member.1, memberText api.json member.2)
            | _ => [])

def parseBody (api : RequestApi) (request : HttpRequest) :
    Except Exc (List (Str × Str)) :=
  match bodyKind api.dcl request with
  | .head => .ok [("HTTP_METHOD".toList, "GET".toList)]
  | .none => .ok []
  | .urlencoded => .ok (parseUrlencoded api.dcl request)
  | .data => .ok (parseData api request)
  | .json => parseJson api request
  | .plain => .ok (parsePlain request)

/-! ## The environment -/

structure Environment where
  system : Context
  global : Context
  user : Context
  session : Context

/-- What loading a session did: the variables it added, and the identifier
of the session or the message of the exception. -/
structure SessionLoad where
  bindings : List (Str × Str)
  result : Except Str Str

namespace Environment

/-- The constructor of `environment`. -/
def new : Environment :=
  { system := .new "system".toList
    global := .new "global".toList
    user := Context.newUser
    session := Context.newLocal.addValue "CONTENT_TYPE".toList
      "text/plain".toList }

/-- The constructor of `http_environment`. -/
def http (load : SessionLoad) : Environment :=
  let environment := new
  let session :=
    match load.result with
    | .ok id => environment.session.addValue "SESSION".toList id
    | .error what =>
        environment.session.addValue "SESSION_ERROR".toList what
  { environment with
    user := environment.user.addValues load.bindings
    session := session.addValue "SESSION_PERSISTENT".toList "0".toList }

/-- The chain of contexts, from the one `get_context` returns. -/
def contexts (environment : Environment) : List Context :=
  [environment.session, environment.user, environment.global,
    environment.system]

/-- The parts of the path after the first one. -/
def pathBindings (dcl : Dcl) (request : HttpRequest) : List (Str × Str) :=
  (dcl.tokenize request.pathInfo "/".toList).zipIdx.tail.map fun part =>
    ("arg".toList ++ dcl.toStringInt part.2, part.1)

/-- `get_path`.  An XML document with another root element is freed twice. -/
def getPath (api : RequestApi) (request : HttpRequest)
    (environment : Environment) : Outcome Exc (Str × Environment) :=
  let regular : Outcome Exc (Str × Environment) :=
    .value (request.pathTranslated, { environment with
      session := environment.session.addValues
        (pathBindings api.dcl request) })
  if request.method = .post ∧ request.contentType = "text/xml".toList then
    match api.xmlRoot (request.content.getD []) with
    | none => regular
    | some root =>
        if root = "methodCall".toList ∨ root = "Envelope".toList then
          .value (request.pathTranslated, environment)
        else .halt .fault
  else regular

def headerBindings (request : HttpRequest) : List (Str × Str) :=
  request.headers.map fun header =>
    ("HTTP_".toList ++ header.1.map (fun c => if c = '-' then '_' else c),
      header.2)

/-- The CGI-like variables. -/
def standardBindings (dcl : Dcl) (request : HttpRequest) :
    List (Str × Str) :=
  [("PATH_INFO".toList, request.pathInfo),
    ("HTTP_METHOD".toList, request.methodName),
    ("HTTP_REMOTE_ADDR".toList, request.remoteAddr),
    ("SERVER_NAME".toList, request.serverName),
    ("SERVER_PORT".toList, dcl.toStringInt request.serverPort),
    ("HTTPS".toList, if request.https then "on".toList else [])]

/-- The variables the FastCGI server adds. -/
def variableBindings (request : HttpRequest) : List (Str × Str) :=
  request.processVars.map fun entry => ("ENV_".toList ++ entry.1, entry.2)

/-- `init_custom_params`: the environment and the exception it raises. -/
def initCustomParams (api : RequestApi) (request : HttpRequest)
    (environment : Environment) : Environment × Option Exc :=
  let started := (environment.session.addValues
    (headerBindings request)).addValues
      (paramBindings api.dcl request.queryString)
  match parseBody api request with
  | .error exception => ({ environment with session := started },
      some exception)
  | .ok bindings =>
      ({ environment with
        session := ((started.addValues bindings).addValues
          (standardBindings api.dcl request)).addValues
            (variableBindings request) }, none)

/-- A request up to the point where its script starts. -/
def prepare (api : RequestApi) (load : SessionLoad) (request : HttpRequest) :
    Outcome Exc (Environment × Option Exc) :=
  match (http load).getPath api request with
  | .value (_, environment) =>
      .value (environment.initCustomParams api request)
  | .error exception => .error exception
  | .halt reason => .halt reason

end Environment

/-! ## What a request submits -/

/-- The names of the parameters in a text `a=1&b=2`. -/
def paramNames (dcl : Dcl) (text : Str) : List Str :=
  (dcl.tokenize text "&".toList).map fun token =>
    dcl.urlDecode (dcl.tokenizePair token "=".toList).1

/-- The names a request body submits. -/
def bodyNames (api : RequestApi) (request : HttpRequest) : List Str :=
  match bodyKind api.dcl request with
  | .head | .none => []
  | .urlencoded =>
      request.content.elim [] fun value => paramNames api.dcl (cString value)
  | .data => (parseData api request).map Prod.fst
  | .json =>
      match parseJson api request with
      | .error _ => []
      | .ok bindings => bindings.map Prod.fst
  | .plain => (parsePlain request).map Prod.fst

/-- All names a request submits. -/
def submittedNames (api : RequestApi) (request : HttpRequest) : List Str :=
  paramNames api.dcl request.queryString ++ bodyNames api request

/-- The names the server itself binds. -/
def ServerName (dcl : Dcl) (name : Str) : Prop :=
  upName name ∈ ["CONTENT_TYPE".toList, "SESSION".toList,
    "SESSION_ERROR".toList, "SESSION_PERSISTENT".toList, "PATH_INFO".toList,
    "SERVER_NAME".toList, "SERVER_PORT".toList, "HTTPS".toList] ∨
  "HTTP_".toList <+: upName name ∨ "ENV_".toList <+: upName name ∨
  ∃ number : Nat, upName name =
    upName ("arg".toList ++ dcl.toStringInt number)

theorem mem_pushParam {param value name : Str}
    {params : List (Str × List Str)} :
    name ∈ (pushParam param value params).map Prod.fst ↔
      name = param ∨ name ∈ params.map Prod.fst := by
  induction params with
  | nil => simp [pushParam]
  | cons entry entries induction =>
      rw [pushParam]
      by_cases same : param = entry.1
      · simp [same]
      · rw [if_neg same]
        by_cases before : param < entry.1
        · simp [before]
        · rw [if_neg before, List.map_cons, List.mem_cons, induction,
            List.map_cons, List.mem_cons]
          tauto

/-- The map has exactly the names of the text. -/
theorem mem_paramBindings (dcl : Dcl) (text name : Str) :
    name ∈ (paramBindings dcl text).map Prod.fst ↔
      name ∈ paramNames dcl text := by
  have grouped : ∀ (tokens : List Str) (params : List (Str × List Str)),
      name ∈ (tokens.foldl (fun params token =>
        pushParam (dcl.urlDecode (dcl.tokenizePair token "=".toList).1)
          (dcl.urlDecode (dcl.tokenizePair token "=".toList).2) params)
            params).map Prod.fst ↔
        name ∈ params.map Prod.fst ∨ name ∈ tokens.map fun token =>
          dcl.urlDecode (dcl.tokenizePair token "=".toList).1 := by
    intro tokens
    induction tokens with
    | nil => simp
    | cons token tokens induction =>
        intro params
        rw [List.foldl_cons, induction, mem_pushParam, List.map_cons,
          List.mem_cons]
        tauto
  have whole := grouped (dcl.tokenize text "&".toList) []
  simp only [List.map_nil, List.not_mem_nil, false_or] at whole
  rw [paramNames, ← whole, paramBindings, List.map_map]
  rfl

/-- The names a body binds are those it submits, but for the method. -/
theorem mem_parseBody {api : RequestApi} {request : HttpRequest}
    {bindings : List (Str × Str)}
    (parsed : parseBody api request = .ok bindings) :
    (∀ name ∈ bodyNames api request, name ∈ bindings.map Prod.fst) ∧
    ∀ name ∈ bindings.map Prod.fst,
      name ∈ bodyNames api request ∨ name = "HTTP_METHOD".toList := by
  rw [parseBody] at parsed
  rw [bodyNames]
  cases kind : bodyKind api.dcl request with
  | head =>
      simp only [kind, Except.ok.injEq] at parsed
      subst parsed
      simp
  | none =>
      simp only [kind, Except.ok.injEq] at parsed
      subst parsed
      simp
  | urlencoded =>
      simp only [kind, Except.ok.injEq, parseUrlencoded] at parsed
      subst parsed
      cases request.content with
      | none => simp
      | some value =>
          simp only [Option.elim_some, mem_paramBindings]
          tauto
  | data =>
      simp only [kind, Except.ok.injEq] at parsed
      subst parsed
      tauto
  | json =>
      simp only [kind] at parsed
      rw [parsed]
      tauto
  | plain =>
      simp only [kind, Except.ok.injEq] at parsed
      subst parsed
      tauto

/-- A body that cannot be read submits nothing. -/
theorem bodyNames_of_error {api : RequestApi} {request : HttpRequest}
    {exception : Exc} (raised : parseBody api request = .error exception) :
    bodyNames api request = [] := by
  rw [parseBody] at raised
  rw [bodyNames]
  cases kind : bodyKind api.dcl request with
  | json =>
      simp only [kind] at raised
      rw [raised]
  | head => simp [kind] at raised
  | none => simp [kind] at raised
  | urlencoded => simp [kind] at raised
  | data => simp [kind] at raised
  | plain => simp [kind] at raised

namespace Environment

/-- The bindings of the constructors. -/
def startBindings (load : SessionLoad) : List (Str × Str) :=
  [("CONTENT_TYPE".toList, "text/plain".toList),
    match load.result with
    | .ok id => ("SESSION".toList, id)
    | .error what => ("SESSION_ERROR".toList, what),
    ("SESSION_PERSISTENT".toList, "0".toList)]

theorem http_session (load : SessionLoad) :
    (http load).session = Context.newLocal.addValues (startBindings load) := by
  rcases load with ⟨bindings, result⟩
  cases result <;> rfl

/-- `get_path` binds the parts of the path or nothing. -/
theorem getPath_cases {api : RequestApi} {request : HttpRequest}
    {before after : Environment} {path : Str}
    (returned : before.getPath api request = .value (path, after)) :
    ∃ parts, (parts = [] ∨ parts = pathBindings api.dcl request) ∧
      after = { before with session := before.session.addValues parts } := by
  have regular : ∀ {result : Str × Environment},
      (Outcome.value (request.pathTranslated, { before with
        session := before.session.addValues
          (pathBindings api.dcl request) }) : Outcome Exc _) =
        .value result →
      ∃ parts, (parts = [] ∨ parts = pathBindings api.dcl request) ∧
        result.2 =
          { before with session := before.session.addValues parts } := by
    intro result same
    cases same
    exact ⟨_, .inr rfl, rfl⟩
  rw [getPath] at returned
  by_cases xml : request.method = .post ∧
      request.contentType = "text/xml".toList
  · rw [if_pos xml] at returned
    cases root : api.xmlRoot (request.content.getD []) with
    | none =>
        simp only [root] at returned
        exact regular returned
    | some name =>
        simp only [root] at returned
        by_cases call : name = "methodCall".toList ∨
            name = "Envelope".toList
        · rw [if_pos call] at returned
          cases returned
          exact ⟨[], .inl rfl, rfl⟩
        · rw [if_neg call] at returned
          cases returned
  · rw [if_neg xml] at returned
    exact regular returned

theorem serverName_start (dcl : Dcl) (load : SessionLoad) :
    ∀ name ∈ (startBindings load).map Prod.fst, ServerName dcl name := by
  intro name member
  left
  rcases load with ⟨bindings, result⟩
  cases result <;>
    simp only [startBindings, List.map_cons, List.map_nil, List.mem_cons,
      List.not_mem_nil, or_false] at member <;>
    rcases member with rfl | rfl | rfl <;> decide

theorem serverName_path (dcl : Dcl) (request : HttpRequest) :
    ∀ name ∈ (pathBindings dcl request).map Prod.fst,
      ServerName dcl name := by
  intro name member
  rw [pathBindings, List.map_map, List.mem_map] at member
  obtain ⟨part, _, rfl⟩ := member
  exact .inr (.inr (.inr ⟨part.2, rfl⟩))

theorem serverName_prefixed (dcl : Dcl) (name : Str) :
    ServerName dcl ("HTTP_".toList ++ name) ∧
      ServerName dcl ("ENV_".toList ++ name) := by
  constructor
  · exact .inr (.inl (by rw [upName_append]; exact List.prefix_append _ _))
  · exact .inr (.inr (.inl (by
      rw [upName_append]; exact List.prefix_append _ _)))

theorem serverName_headers (dcl : Dcl) (request : HttpRequest) :
    ∀ name ∈ (headerBindings request).map Prod.fst, ServerName dcl name := by
  intro name member
  rw [headerBindings, List.map_map, List.mem_map] at member
  obtain ⟨header, _, rfl⟩ := member
  exact (serverName_prefixed dcl _).1

theorem serverName_variables (dcl : Dcl) (request : HttpRequest) :
    ∀ name ∈ (variableBindings request).map Prod.fst,
      ServerName dcl name := by
  intro name member
  rw [variableBindings, List.map_map, List.mem_map] at member
  obtain ⟨entry, _, rfl⟩ := member
  exact (serverName_prefixed dcl _).2

theorem serverName_standard (dcl : Dcl) (request : HttpRequest) :
    ∀ name ∈ (standardBindings dcl request).map Prod.fst,
      ServerName dcl name := by
  intro name member
  simp only [standardBindings, List.map_cons, List.map_nil, List.mem_cons,
    List.not_mem_nil, or_false] at member
  rcases member with rfl | rfl | rfl | rfl | rfl | rfl
  · exact .inl (by decide)
  · exact (serverName_prefixed dcl "METHOD".toList).1
  · exact (serverName_prefixed dcl "REMOTE_ADDR".toList).1
  · exact .inl (by decide)
  · exact .inl (by decide)
  · exact .inl (by decide)

/-- `init_custom_params` binds what the request submits and names of the
server. -/
theorem initCustomParams_cases (api : RequestApi) (request : HttpRequest)
    (before : Environment) :
    ∃ bindings,
      (before.initCustomParams api request).1 =
        { before with session := before.session.addValues bindings } ∧
      (∀ name ∈ bindings.map Prod.fst,
        ServerName api.dcl name ∨ name ∈ submittedNames api request) ∧
      ∀ name ∈ submittedNames api request,
        name ∈ bindings.map Prod.fst := by
  rw [initCustomParams]
  cases parsed : parseBody api request with
  | error exception =>
      refine ⟨headerBindings request ++
        paramBindings api.dcl request.queryString, ?_, ?_, ?_⟩
      · simp [Context.addValues_append]
      · intro name member
        rw [List.map_append, List.mem_append, mem_paramBindings] at member
        rcases member with header | query
        · exact .inl (serverName_headers api.dcl request name header)
        · exact .inr (List.mem_append_left _ query)
      · intro name member
        rw [submittedNames, bodyNames_of_error parsed, List.append_nil]
          at member
        rw [List.map_append, List.mem_append, mem_paramBindings]
        exact .inr member
  | ok body =>
      have names := mem_parseBody parsed
      refine ⟨headerBindings request ++
        (paramBindings api.dcl request.queryString ++ (body ++
          (standardBindings api.dcl request ++ variableBindings request))),
        ?_, ?_, ?_⟩
      · simp [Context.addValues_append]
      · intro name member
        simp only [List.map_append, List.mem_append, mem_paramBindings]
          at member
        rcases member with header | query | inside | standard | process
        · exact .inl (serverName_headers api.dcl request name header)
        · exact .inr (List.mem_append_left _ query)
        · rcases names.2 name inside with submitted | rfl
          · exact .inr (List.mem_append_right _ submitted)
          · exact .inl (serverName_prefixed api.dcl "METHOD".toList).1
        · exact .inl (serverName_standard api.dcl request name standard)
        · exact .inl (serverName_variables api.dcl request name process)
      · intro name member
        rw [submittedNames, List.mem_append] at member
        simp only [List.map_append, List.mem_append, mem_paramBindings]
        rcases member with query | inside
        · exact .inr (.inl query)
        · exact .inr (.inr (.inl (names.1 name inside)))

/-- The chain of a prepared request. -/
theorem prepare_cases {api : RequestApi} {load : SessionLoad}
    {request : HttpRequest} {environment : Environment}
    {raised : Option Exc}
    (prepared : prepare api load request = .value (environment, raised)) :
    ∃ bindings,
      environment.contexts =
        [Context.newLocal.addValues bindings,
          Context.newUser.addValues load.bindings,
          .new "global".toList, .new "system".toList] ∧
      (∀ name ∈ bindings.map Prod.fst,
        ServerName api.dcl name ∨ name ∈ submittedNames api request) ∧
      ∀ name ∈ submittedNames api request, name ∈ bindings.map Prod.fst := by
  rw [prepare] at prepared
  cases returned : (http load).getPath api request with
  | error exception => simp [returned] at prepared
  | halt reason => simp [returned] at prepared
  | value result =>
      obtain ⟨path, after⟩ := result
      simp only [returned, Outcome.value.injEq] at prepared
      obtain ⟨parts, fromPath, moved⟩ := getPath_cases returned
      obtain ⟨bindings, added, only, all⟩ :=
        initCustomParams_cases api request after
      rw [prepared] at added
      refine ⟨startBindings load ++ (parts ++ bindings), ?_, ?_, ?_⟩
      · subst moved
        rw [contexts, show environment = _ from added]
        simp only [http_session, Context.addValues_append]
        rfl
      · intro name member
        simp only [List.map_append, List.mem_append] at member
        rcases member with start | part | inside
        · exact .inl (serverName_start api.dcl load name start)
        · rcases fromPath with rfl | rfl
          · simp at part
          · exact .inl (serverName_path api.dcl request name part)
        · exact only name inside
      · intro name member
        simp only [List.map_append, List.mem_append]
        exact .inr (.inr (all name member))

end Environment

/-! ## Names of the interpreter -/

/-- The value of a name in the chain of a prepared request. -/
theorem lookup_prepared (name : Str) (session user : List (Str × Str)) :
    Chain.lookup name [Context.newLocal.addValues session,
      Context.newUser.addValues user, .new "global".toList,
      .new "system".toList] =
        (lastBinding (upName name) session).or
          (lastBinding (upName name) user) := by
  simp only [Chain.lookup, Context.newLocal, Context.newUser, findVar_new]
  cases lastBinding (upName name) session with
  | some value => rfl
  | none =>
      cases lastBinding (upName name) user with
      | some value => rfl
      | none => rfl

theorem upName_head_at {name : Str} :
    (upName name).head? = some '@' ↔ name.head? = some '@' := by
  cases name with
  | nil => simp
  | cons c name =>
      simp only [upName_cons, List.head?_cons, Option.some.injEq]
      constructor
      · intro upper
        exact eq_of_toUpper_eq upper (by decide)
      · intro same
        subst same
        rfl

theorem ServerName.head_ne_at {dcl : Dcl} {name : Str}
    (server : ServerName dcl name) : name.head? ≠ some '@' := by
  rw [ne_eq, ← upName_head_at]
  have led : ∀ {lead rest : Str}, lead.head? ≠ some '@' → lead ≠ [] →
      lead <+: rest → rest.head? ≠ some '@' := by
    intro lead rest other filled start
    obtain ⟨tail, rfl⟩ := start
    cases lead with
    | nil => exact absurd rfl filled
    | cons c lead => exact other
  rcases server with fixed | http | process | ⟨number, part⟩
  · simp only [List.mem_cons, List.not_mem_nil, or_false] at fixed
    rcases fixed with same | same | same | same | same | same | same | same <;>
      rw [same] <;> decide
  · exact led (by decide) (by decide) http
  · exact led (by decide) (by decide) process
  · have start : "ARG".toList <+: upName name :=
      ⟨upName (dcl.toStringInt number), by rw [part, upName_append]; rfl⟩
    exact led (by decide) (by decide) start

/-- No name of the interpreter is bound in a chain of contexts. -/
def NoInternal (contexts : List Context) : Prop :=
  ∀ name, name.head? = some '@' → Chain.lookup name contexts = none

/-- The names of the interpreter are free when a script starts exactly when
neither the session nor the request brings one. -/
theorem internal_names_hidden {api : RequestApi} {load : SessionLoad}
    {request : HttpRequest} {environment : Environment}
    {raised : Option Exc}
    (prepared : Environment.prepare api load request =
      .value (environment, raised)) :
    NoInternal environment.contexts ↔
      ∀ name ∈ load.bindings.map Prod.fst ++ submittedNames api request,
        name.head? ≠ some '@' := by
  obtain ⟨bindings, chain, only, all⟩ := Environment.prepare_cases prepared
  rw [chain]
  constructor
  · intro hidden name member start
    have unbound := hidden name start
    rw [lookup_prepared, Option.or_eq_none_iff] at unbound
    rcases List.mem_append.mp member with stored | submitted
    · obtain ⟨binding, inside, rfl⟩ := List.mem_map.mp stored
      exact lastBinding_eq_none.mp unbound.2 binding inside rfl
    · obtain ⟨binding, inside, rfl⟩ :=
        List.mem_map.mp (all name submitted)
      exact lastBinding_eq_none.mp unbound.1 binding inside rfl
  · intro plain name start
    have other : ∀ binding : Str × Str, binding.1.head? ≠ some '@' →
        upName binding.1 ≠ upName name := by
      intro binding differs same
      apply differs
      rw [← upName_head_at, same, upName_head_at]
      exact start
    rw [lookup_prepared, Option.or_eq_none_iff]
    constructor
    · apply lastBinding_eq_none.mpr
      intro binding inside
      apply other
      rcases only binding.1 (List.mem_map_of_mem inside) with server | sent
      · exact server.head_ne_at
      · exact plain _ (List.mem_append_right _ sent)
    · apply lastBinding_eq_none.mpr
      intro binding inside
      apply other
      exact plain _ (List.mem_append_left _ (List.mem_map_of_mem inside))

/-- The libraries as the witnesses need them. -/
def RequestApi.plain : RequestApi where
  dcl := .plain
  json := Outside.plain.json
  mime _ := .mk false [] [] [] [] []
  xmlRoot _ := none

/-- A GET request with a query string. -/
def getRequest (queryString : Str) : HttpRequest where
  method := .get
  methodName := "GET".toList
  headers := []
  queryString
  contentType := []
  content := none
  pathInfo := "/page".toList
  pathTranslated := "/page".toList
  remoteAddr := "127.0.0.1".toList
  serverName := "localhost".toList
  serverPort := 80
  https := false
  processVars := []

/-- A session with the variables of a text. -/
def SessionLoad.ofText (text : Str) : SessionLoad :=
  { bindings := Session.readText .plain text, result := .ok "id".toList }

theorem internal_names_hidden_plain :
    ∃ environment, Environment.prepare .plain
        (.ofText "ROLE=guest".toList) (getRequest "page=2".toList) =
          .value (environment, none) ∧
      NoInternal environment.contexts := by
  obtain ⟨environment, prepared⟩ : ∃ environment, Environment.prepare .plain
      (.ofText "ROLE=guest".toList) (getRequest "page=2".toList) =
        .value (environment, none) := ⟨_, rfl⟩
  refine ⟨environment, prepared, ?_⟩
  apply (internal_names_hidden prepared).mpr
  decide

/-- A query string can bind the handle of a list. -/
theorem query_binds_handle :
    ∃ environment, Environment.prepare .plain (.ofText [])
        (getRequest "@LIST@x=12345".toList) = .value (environment, none) ∧
      Chain.lookup "@LIST@x".toList environment.contexts =
        some "12345".toList := by
  refine ⟨_, rfl, ?_⟩
  decide

/-! ## Session variables -/

namespace Environment

/-- The stored variables only go to the user context. -/
theorem prepare_user {api : RequestApi} {load : SessionLoad}
    {request : HttpRequest} {environment : Environment}
    {raised : Option Exc}
    (prepared : prepare api load request = .value (environment, raised))
    (bindings : List (Str × Str)) :
    prepare api { load with bindings } request =
      .value ({ environment with
        user := Context.newUser.addValues bindings }, raised) := by
  have started : http { load with bindings } =
      { http load with user := Context.newUser.addValues bindings } := rfl
  have path : ∀ (before after : Environment) (user : Context) (path : Str),
      before.getPath api request = .value (path, after) →
        getPath api request { before with user } =
          .value (path, { after with user }) := by
    intro before after user path returned
    rw [getPath] at returned ⊢
    by_cases xml : request.method = .post ∧
        request.contentType = "text/xml".toList
    · rw [if_pos xml] at returned ⊢
      cases root : api.xmlRoot (request.content.getD []) with
      | none =>
          simp only [root] at returned ⊢
          cases returned
          rfl
      | some name =>
          simp only [root] at returned ⊢
          by_cases call : name = "methodCall".toList ∨
              name = "Envelope".toList
          · rw [if_pos call] at returned ⊢
            cases returned
            rfl
          · rw [if_neg call] at returned
            cases returned
    · rw [if_neg xml] at returned ⊢
      cases returned
      rfl
  have params : ∀ (before : Environment) (user : Context),
      initCustomParams api request { before with user } =
        ({ (before.initCustomParams api request).1 with user },
          (before.initCustomParams api request).2) := by
    intro before user
    rw [initCustomParams, initCustomParams]
    cases parseBody api request with
    | error exception => rfl
    | ok bindings => rfl
  rw [prepare] at prepared ⊢
  cases returned : (http load).getPath api request with
  | error exception => simp [returned] at prepared
  | halt reason => simp [returned] at prepared
  | value result =>
      obtain ⟨text, after⟩ := result
      simp only [returned, Outcome.value.injEq] at prepared
      rw [started, path _ _ _ _ returned]
      apply congrArg Outcome.value
      rw [params, prepared]

end Environment

/-- A request has a script to start: an XML document it brings is a call, and
its body can be read. -/
def HttpRequest.Starts (api : RequestApi) (request : HttpRequest) : Prop :=
  (request.method = .post ∧ request.contentType = "text/xml".toList →
    ∀ root, api.xmlRoot (request.content.getD []) = some root →
      root = "methodCall".toList ∨ root = "Envelope".toList) ∧
  ∃ bindings, parseBody api request = .ok bindings

namespace Environment

theorem starts_of_prepare {api : RequestApi} {load : SessionLoad}
    {request : HttpRequest} {environment : Environment}
    (prepared : prepare api load request = .value (environment, none)) :
    request.Starts api := by
  rw [prepare] at prepared
  cases returned : (http load).getPath api request with
  | error exception => simp [returned] at prepared
  | halt reason => simp [returned] at prepared
  | value result =>
      obtain ⟨path, after⟩ := result
      simp only [returned, Outcome.value.injEq] at prepared
      constructor
      · intro xml root found
        by_contra call
        rw [getPath, if_pos xml] at returned
        simp only [found, if_neg call] at returned
        cases returned
      · rw [initCustomParams] at prepared
        cases parsed : parseBody api request with
        | error exception => simp [parsed] at prepared
        | ok bindings => exact ⟨bindings, rfl⟩

theorem prepare_of_starts {api : RequestApi} {request : HttpRequest}
    (starts : request.Starts api) (load : SessionLoad) :
    ∃ environment, prepare api load request = .value (environment, none) := by
  obtain ⟨call, bindings, parsed⟩ := starts
  have params : ∀ before : Environment,
      ∃ after, before.initCustomParams api request = (after, none) := by
    intro before
    rw [initCustomParams, parsed]
    exact ⟨_, rfl⟩
  have path : ∃ text after,
      (http load).getPath api request = .value (text, after) := by
    rw [getPath]
    by_cases xml : request.method = .post ∧
        request.contentType = "text/xml".toList
    · rw [if_pos xml]
      cases root : api.xmlRoot (request.content.getD []) with
      | none => exact ⟨_, _, rfl⟩
      | some name =>
          simp only [if_pos (call xml name root)]
          exact ⟨_, _, rfl⟩
    · rw [if_neg xml]
      exact ⟨_, _, rfl⟩
  obtain ⟨text, after, returned⟩ := path
  obtain ⟨environment, added⟩ := params after
  refine ⟨environment, ?_⟩
  rw [prepare, returned]
  simp only [added]

end Environment

theorem getValue_newLocal (name : Str) (contexts : List Context) :
    Chain.getValue name (Context.newLocal :: contexts) =
      (Chain.lookup name contexts).getD [] := rfl

/-- Whatever session is stored, a script that starts for the request reads
the stored value of the variable. -/
def Unforged (api : RequestApi) (request : HttpRequest) (name : Str) : Prop :=
  ∀ (load : SessionLoad) (value : Str) (environment : Environment),
    Environment.prepare api load request = .value (environment, none) →
    lastBinding (upName name) load.bindings = some value →
    Chain.getValue name (Context.newLocal :: environment.contexts) = value

/-- A request leaves a session variable alone exactly when it does not submit
the name of the variable. -/
theorem session_variable_unforged {api : RequestApi} {request : HttpRequest}
    {name : Str} (own : ¬ ServerName api.dcl name) :
    Unforged api request name ↔
      (request.Starts api →
        ∀ submitted ∈ submittedNames api request,
          upName submitted ≠ upName name) := by
  constructor
  · intro unforged starts submitted member same
    obtain ⟨environment, prepared⟩ := Environment.prepare_of_starts starts
      { bindings := [], result := .ok [] }
    have bound : ∀ value : Str, lastBinding (upName name) [(name, value)] =
        some value := by
      intro value
      simp [lastBinding]
    have read : ∀ value : Str, Chain.getValue name (Context.newLocal ::
        { environment with user :=
          Context.newUser.addValues [(name, value)] : Environment }.contexts)
            = value := by
      intro value
      apply unforged { bindings := [(name, value)], result := .ok [] }
      · exact Environment.prepare_user prepared [(name, value)]
      · exact bound value
    obtain ⟨bindings, chain, _, all⟩ := Environment.prepare_cases prepared
    have front : environment.session =
        Context.newLocal.addValues bindings := by
      rw [Environment.contexts] at chain
      exact (List.cons.inj chain).1
    obtain ⟨binding, inside, its⟩ := List.mem_map.mp (all submitted member)
    have found : ∃ value,
        lastBinding (upName name) bindings = some value := by
      cases last : lastBinding (upName name) bindings with
      | none =>
          exact absurd (its ▸ same) (lastBinding_eq_none.mp last _ inside)
      | some value => exact ⟨value, rfl⟩
    obtain ⟨value, last⟩ := found
    have fixed : ∀ stored : Str, stored = value := by
      intro stored
      rw [← read stored, getValue_newLocal]
      simp [Environment.contexts, Chain.lookup, front, Context.newLocal,
        findVar_new, last]
    have clash : ([] : Str) = ['a'] := (fixed []).trans (fixed ['a']).symm
    simp at clash
  · intro plain load value environment prepared stored
    have free := plain (Environment.starts_of_prepare prepared)
    obtain ⟨bindings, chain, only, _⟩ := Environment.prepare_cases prepared
    have absent : lastBinding (upName name) bindings = none := by
      apply lastBinding_eq_none.mpr
      intro binding inside same
      rcases only binding.1 (List.mem_map_of_mem inside) with server | sent
      · rw [ServerName, same] at server
        exact own server
      · exact free binding.1 sent same
    rw [getValue_newLocal, chain, lookup_prepared, absent, stored]
    rfl

theorem session_variable_unforged_page :
    Unforged .plain (getRequest "page=2".toList) "role".toList := by
  have own : ¬ ServerName RequestApi.plain.dcl "role".toList := by
    rintro (fixed | http | process | ⟨number, part⟩)
    · exact absurd fixed (by decide)
    · exact absurd http (by decide)
    · exact absurd process (by decide)
    · have head := congrArg List.head? part
      rw [upName_append] at head
      cases head
  apply (session_variable_unforged own).mpr
  intro _
  decide

/-- A parameter of the query hides the session variable of its name. -/
theorem query_hides_role :
    ∃ environment, Environment.prepare .plain
        (.ofText "ROLE=guest".toList) (getRequest "role=admin".toList) =
          .value (environment, none) ∧
      lastBinding "ROLE".toList (SessionLoad.ofText
        "ROLE=guest".toList).bindings = some "guest".toList ∧
      Chain.getValue "role".toList
        (Context.newLocal :: environment.contexts) = "admin".toList := by
  refine ⟨_, rfl, ?_, ?_⟩
  · decide
  · decide

end DbPager
