import DbPager.Environment

/-!
# Header variables

The server binds a variable for every header of the request, and after that
it binds what the request submits.  A later binding of the same name hides an
earlier one, so a header variable is only as good as the names the client has
not chosen.
-/

namespace DbPager

open Effect

/-- The variable a header is bound to. -/
def headerVariable (name : Str) : Str :=
  "HTTP_".toList ++ name.map fun c => if c = '-' then '_' else c

/-- The bindings of a request body; a body that cannot be read has none. -/
def bodyBindings (api : RequestApi) (request : HttpRequest) :
    List (Str × Str) :=
  match parseBody api request with
  | .ok bindings => bindings
  | .error _ => []

/-- The value the request submits for a name, as a query parameter or in its
body; the last one counts. -/
def submittedValue (api : RequestApi) (request : HttpRequest) (name : Str) :
    Option Str :=
  lastBinding (upName name)
    (paramBindings api.dcl request.queryString ++ bodyBindings api request)

/-- The header variables the server overwrites itself. -/
def serverHeaders : List Str :=
  ["HTTP_METHOD".toList, "HTTP_REMOTE_ADDR".toList]

/-- Among bindings of different variables every binding is the last one of
its variable. -/
theorem lastBinding_of_pairwise {bindings : List (Str × Str)}
    (distinct : bindings.Pairwise fun first second =>
      upName first.1 ≠ upName second.1)
    {binding : Str × Str} (member : binding ∈ bindings) :
    lastBinding (upName binding.1) bindings = some binding.2 := by
  induction bindings with
  | nil => cases member
  | cons first bindings induction =>
      obtain ⟨apart, distinct⟩ := List.pairwise_cons.mp distinct
      rw [lastBinding]
      rcases List.mem_cons.mp member with rfl | member
      · have later : lastBinding (upName binding.1) bindings = none := by
          apply lastBinding_eq_none.mpr
          intro other inside same
          exact apart other inside same.symm
        rw [later]
        simp
      · rw [induction distinct member]
        rfl

namespace Environment

/-- The variable of a header gets no value from the CGI variables. -/
theorem lastBinding_standard (dcl : Dcl) (request : HttpRequest)
    {name : Str} (own : upName (headerVariable name) ∉ serverHeaders) :
    lastBinding (upName (headerVariable name))
      (standardBindings dcl request) = none := by
  apply lastBinding_eq_none.mpr
  intro binding member same
  have prefixed : upName (headerVariable name) =
      "HTTP_".toList ++ upName (name.map fun c =>
        if c = '-' then '_' else c) := by
    unfold headerVariable
    rw [upName_append]
    rfl
  simp only [standardBindings, List.mem_cons, List.not_mem_nil, or_false]
    at member
  rcases member with rfl | rfl | rfl | rfl | rfl | rfl
  · rw [prefixed] at same
    cases same
  · apply own
    rw [← same]
    exact List.mem_cons_self
  · apply own
    rw [← same]
    exact List.mem_cons_of_mem _ List.mem_cons_self
  · rw [prefixed] at same
    cases same
  · rw [prefixed] at same
    cases same
  · rw [prefixed] at same
    have fifth : some 'S' = some '_' := congrArg (fun text => text[4]?) same
    cases fifth

theorem lastBinding_variables (request : HttpRequest) (name : Str) :
    lastBinding (upName (headerVariable name))
      (variableBindings request) = none := by
  apply lastBinding_eq_none.mpr
  intro binding member same
  obtain ⟨entry, _, rfl⟩ := List.mem_map.mp member
  unfold headerVariable at same
  rw [upName_append, upName_append] at same
  cases same

/-- What a header variable holds after `init_custom_params`: what the request
submits under its name, or else the value of the header. -/
theorem lookup_header {api : RequestApi} {request : HttpRequest}
    {before : Environment} (layered : before.session.stack ≠ [])
    {name value : Str} (sent : (name, value) ∈ request.headers)
    (distinct : request.headers.Pairwise fun first second =>
      upName (headerVariable first.1) ≠ upName (headerVariable second.1))
    (own : upName (headerVariable name) ∉ serverHeaders) :
    Chain.lookup (headerVariable name)
        (before.initCustomParams api request).1.contexts =
      some ((submittedValue api request (headerVariable name)).getD value) := by
  have header : lastBinding (upName (headerVariable name))
      (headerBindings request) = some value := by
    have apart : (headerBindings request).Pairwise fun first second =>
        upName first.1 ≠ upName second.1 := by
      apply List.pairwise_map.mpr
      exact distinct
    have member : (headerVariable name, value) ∈ headerBindings request :=
      List.mem_map.mpr ⟨(name, value), sent, rfl⟩
    exact lastBinding_of_pairwise apart member
  have found : findVar (upName (headerVariable name))
      (before.initCustomParams api request).1.session.stack =
        some ((submittedValue api request (headerVariable name)).getD
          value) := by
    rw [initCustomParams, submittedValue, bodyBindings]
    cases parseBody api request with
    | error exception =>
        simp only [← Context.addValues_append]
        rw [findVar_addValues _ _ layered, lastBinding_append, header,
          List.append_nil]
        cases lastBinding (upName (headerVariable name))
          (paramBindings api.dcl request.queryString) <;> rfl
    | ok bindings =>
        simp only [← Context.addValues_append]
        rw [findVar_addValues _ _ layered]
        simp only [lastBinding_append, header,
          lastBinding_standard api.dcl request own,
          lastBinding_variables, Option.none_or]
        cases lastBinding (upName (headerVariable name)) bindings with
        | some submitted => rfl
        | none =>
            cases lastBinding (upName (headerVariable name))
              (paramBindings api.dcl request.queryString) <;> rfl
  rw [contexts, Chain.lookup, found]

/-- The environment in which `init_custom_params` is called, whatever
`get_path` has bound. -/
def located (load : SessionLoad) (parts : List (Str × Str)) : Environment :=
  { http load with session := (http load).session.addValues parts }

theorem located_layered (load : SessionLoad) (parts : List (Str × Str)) :
    (located load parts).session.stack ≠ [] := by
  unfold located
  rw [http_session]
  apply Context.addValues_layered
  apply Context.addValues_layered
  exact List.cons_ne_nil _ _

end Environment

/-- A header variable holds the value of its header exactly when the request
does not submit another value under the name of the variable. -/
theorem header_variable_authentic (api : RequestApi) (load : SessionLoad)
    (parts : List (Str × Str)) {request : HttpRequest} {name value : Str}
    (sent : (name, value) ∈ request.headers)
    (distinct : request.headers.Pairwise fun first second =>
      upName (headerVariable first.1) ≠ upName (headerVariable second.1))
    (own : upName (headerVariable name) ∉ serverHeaders) :
    Chain.getValue (headerVariable name)
        ((Environment.located load parts).initCustomParams api
          request).1.contexts = value ↔
      ∀ submitted ∈ submittedValue api request (headerVariable name),
        submitted = value := by
  rw [Chain.getValue, Environment.lookup_header
    (Environment.located_layered load parts) sent distinct own]
  cases submittedValue api request (headerVariable name) with
  | none => simp
  | some submitted => simp

/-- A request with one header and a query string. -/
def headerRequest (queryString : Str) : HttpRequest :=
  { getRequest queryString with
    headers := [("X-User".toList, "guest".toList)] }

theorem header_variable_authentic_page :
    Chain.getValue "HTTP_X_USER".toList
      ((Environment.located (.ofText []) []).initCustomParams .plain
        (headerRequest "page=2".toList)).1.contexts = "guest".toList := by
  have sent : ("X-User".toList, "guest".toList) ∈
      (headerRequest "page=2".toList).headers := List.mem_cons_self
  have same := header_variable_authentic .plain (.ofText []) [] sent
    (List.pairwise_singleton _ _) (by decide)
  have read := same.mpr (by decide)
  exact read

/-- A query parameter takes the place of a header. -/
theorem query_hides_header :
    ("X-User".toList, "guest".toList) ∈
        (headerRequest "http_x_user=admin".toList).headers ∧
      Chain.getValue (headerVariable "X-User".toList)
        ((Environment.located (.ofText []) []).initCustomParams .plain
          (headerRequest "http_x_user=admin".toList)).1.contexts =
            "admin".toList := by
  constructor
  · exact List.mem_cons_self
  · decide

end DbPager
