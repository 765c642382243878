import DbPager.Environment
import Mathlib.Data.List.Induction

/-!
# Repeated parameters

Several values of one parameter are joined with commas.  The loop decides
about a comma by looking at what it has joined so far, so that empty values
at the beginning leave no trace.
-/

namespace DbPager

open Effect Environment

/-! ## The loop -/

theorem joinRest_eq {joined : Str} (filled : joined ≠ []) (values : List Str) :
    values.foldl (fun joined value =>
      (if joined.isEmpty then joined else joined ++ ",".toList) ++ value)
        joined = ",".toList.intercalate (joined :: values) := by
  induction values generalizing joined with
  | nil => simp
  | cons value values induction =>
      have more : (if joined.isEmpty then joined else joined ++ ",".toList) ++
          value = joined ++ ",".toList ++ value := by
        cases joined with
        | nil => exact absurd rfl filled
        | cons c joined => rfl
      rw [List.foldl_cons, more, induction (by simp [filled])]
      cases values with
      | nil => simp [List.intercalate]
      | cons next values => simp [List.intercalate]

/-- The values are joined from the first one on that is not empty. -/
theorem joinValues_eq (values : List Str) :
    joinValues values =
      ",".toList.intercalate (values.dropWhile List.isEmpty) := by
  have folded : values.foldl (fun joined value =>
      (if joined.isEmpty then joined else joined ++ ",".toList) ++ value) [] =
        ",".toList.intercalate (values.dropWhile List.isEmpty) := by
    induction values with
    | nil => rfl
    | cons value values induction =>
        cases value with
        | nil => exact induction
        | cons c value => exact joinRest_eq (by simp) values
  unfold joinValues
  split
  · rename_i value
    cases value with
    | nil => rfl
    | cons c value => simp
  · exact folded

theorem length_intercalate_dropWhile (values : List Str) :
    (",".toList.intercalate (values.dropWhile List.isEmpty)).length ≤
      (",".toList.intercalate values).length := by
  induction values with
  | nil => exact Nat.le_refl _
  | cons value values induction =>
      cases value with
      | nil =>
          cases values with
          | nil => exact Nat.le_refl _
          | cons next values =>
              rw [List.dropWhile_cons_of_pos rfl,
                List.intercalate_cons_of_ne_nil (List.cons_ne_nil _ _)]
              simp only [List.length_append]
              omega
      | cons c value => exact Nat.le_refl _

/-- Two or more values are joined with all their commas exactly when the
first one is not empty. -/
theorem joined_iff {values : List Str} (repeated : 2 ≤ values.length) :
    ",".toList.intercalate (values.dropWhile List.isEmpty) =
        ",".toList.intercalate values ↔
      values.head? ≠ some [] := by
  match values, repeated with
  | [] :: next :: values, _ =>
      constructor
      · intro same
        have length := congrArg List.length same
        have fewer := length_intercalate_dropWhile (next :: values)
        rw [List.dropWhile_cons_of_pos rfl,
          List.intercalate_cons_of_ne_nil (List.cons_ne_nil _ _)] at length
        simp only [List.length_append] at length
        have comma : ",".toList.length = 1 := rfl
        omega
      · intro filled
        exact absurd rfl filled
  | (c :: value) :: next :: values, _ =>
      simp

/-! ## The values of a name -/

/-- The names and values of a text `a=1&b=2`, in order. -/
def submittedPairs (dcl : Dcl) (text : Str) : List (Str × Str) :=
  (dcl.tokenize text "&".toList).map fun token =>
    (dcl.urlDecode (dcl.tokenizePair token "=".toList).1,
      dcl.urlDecode (dcl.tokenizePair token "=".toList).2)

/-- The values of a name in a list of names and values. -/
def valuesOf (name : Str) (pairs : List (Str × Str)) : List Str :=
  (pairs.filter fun pair => pair.1 = name).map Prod.snd

/-- The values submitted under a name, in order. -/
def submittedValues (dcl : Dcl) (text name : Str) : List Str :=
  valuesOf name (submittedPairs dcl text)

/-- The parameters are listed in the order of their names. -/
def InNameOrder {α : Type} (params : List (Str × α)) : Prop :=
  params.Pairwise fun first second => first.1 < second.1

theorem pushParam_inNameOrder {params : List (Str × List Str)}
    (ordered : InNameOrder params) (param value : Str) :
    InNameOrder (pushParam param value params) := by
  induction params with
  | nil => exact List.pairwise_singleton _ _
  | cons entry entries induction =>
      obtain ⟨above, rest⟩ := List.pairwise_cons.mp ordered
      unfold pushParam
      split
      · exact List.pairwise_cons.mpr ⟨above, rest⟩
      · rename_i different
        split
        · rename_i before
          refine List.pairwise_cons.mpr ⟨?_, ordered⟩
          intro later member
          rcases List.mem_cons.mp member with rfl | member
          · exact before
          · exact List.lt_trans before (above later member)
        · rename_i notBefore
          refine List.pairwise_cons.mpr ⟨?_, induction rest⟩
          intro later member
          have named : later.1 ∈ (pushParam param value entries).map
              Prod.fst := List.mem_map_of_mem member
          rcases mem_pushParam.mp named with same | inside
          · rw [same]
            exact str_lt_of_not_lt notBefore different
          · obtain ⟨other, listed, same⟩ := List.mem_map.mp inside
            rw [← same]
            exact above other listed

/-- Pushing a value only changes the values of its parameter. -/
theorem lookup_pushParam {params : List (Str × List Str)}
    (ordered : InNameOrder params) (param value other : Str) :
    (pushParam param value params).lookup other =
      if other = param then
        some ((params.lookup param).getD [] ++ [value])
      else params.lookup other := by
  induction params with
  | nil => exact lookup_entry (param, [value]) [] other
  | cons entry entries induction =>
      obtain ⟨above, rest⟩ := List.pairwise_cons.mp ordered
      unfold pushParam
      split
      · rename_i same
        subst same
        rw [lookup_entry, lookup_entry, lookup_entry, if_pos rfl]
        by_cases its : other = entry.1
        · rw [if_pos its, if_pos its]
          rfl
        · rw [if_neg its, if_neg its, if_neg its]
      · rename_i different
        split
        · rename_i before
          have absent : (entry :: entries).lookup param = none := by
            rw [List.lookup_eq_none_iff]
            intro listed member
            apply bne_iff_ne.mpr
            rintro rfl
            rcases List.mem_cons.mp member with rfl | later
            · exact different rfl
            · exact List.lt_irrefl _
                (List.lt_trans before (above listed later))
          rw [absent]
          exact lookup_entry (param, [value]) (entry :: entries) other
        · rw [lookup_entry, lookup_entry, lookup_entry, induction rest,
            if_neg different]
          by_cases its : other = entry.1
          · rw [its, if_pos rfl, if_neg (Ne.symm different), if_pos rfl]
          · rw [if_neg its, if_neg its]

/-- What the map holds of a name with the given values. -/
def held (values : List Str) : Option (List Str) :=
  if values.isEmpty then none else some values

theorem held_getD (values : List Str) : (held values).getD [] = values := by
  cases values <;> rfl

theorem held_append (values : List Str) (value : Str) :
    held (values ++ [value]) = some (values ++ [value]) := by
  cases values <;> rfl

theorem pushAll_spec (pairs : List (Str × Str)) :
    InNameOrder (pairs.foldl (fun params pair =>
        pushParam pair.1 pair.2 params) []) ∧
      ∀ name, (pairs.foldl (fun params pair =>
          pushParam pair.1 pair.2 params) []).lookup name =
        held (valuesOf name pairs) := by
  -- The pairs read so far grow at the end.
  induction pairs using List.reverseRecOn with
  | nil => exact ⟨List.Pairwise.nil, fun name => rfl⟩
  | append_singleton pairs pair induction =>
      obtain ⟨ordered, holds⟩ := induction
      rw [List.foldl_append, List.foldl_cons, List.foldl_nil]
      refine ⟨pushParam_inNameOrder ordered _ _, ?_⟩
      intro name
      rw [lookup_pushParam ordered, holds, holds, held_getD]
      by_cases same : name = pair.1
      · have grown : valuesOf name (pairs ++ [pair]) =
            valuesOf name pairs ++ [pair.2] := by
          simp [valuesOf, same]
        rw [if_pos same, grown, held_append, same]
      · have kept : valuesOf name (pairs ++ [pair]) = valuesOf name pairs := by
          simp [valuesOf, Ne.symm same]
        rw [if_neg same, kept]

/-- The map holds the submitted values of every submitted name, in the order
of the names. -/
theorem groupParams_spec (dcl : Dcl) (text : Str) :
    InNameOrder (groupParams dcl text) ∧
      ∀ name, (groupParams dcl text).lookup name =
        held (submittedValues dcl text name) := by
  have pushed : groupParams dcl text =
      (submittedPairs dcl text).foldl (fun params pair =>
        pushParam pair.1 pair.2 params) [] := by
    unfold groupParams submittedPairs
    rw [List.foldl_map]
  rw [pushed]
  exact pushAll_spec (submittedPairs dcl text)

theorem lookup_of_mem {α : Type} {params : List (Str × α)}
    (ordered : InNameOrder params) {name : Str} {value : α}
    (member : (name, value) ∈ params) : params.lookup name = some value := by
  induction params with
  | nil => cases member
  | cons entry entries induction =>
      obtain ⟨above, rest⟩ := List.pairwise_cons.mp ordered
      rcases List.mem_cons.mp member with same | later
      · rw [lookup_entry, ← same, if_pos rfl]
      · have different : name ≠ entry.1 := by
          rintro rfl
          exact List.lt_irrefl _ (above (entry.1, value) later)
        rw [lookup_entry, if_neg different]
        exact induction rest later

/-- The bindings of a text, one for every name with values. -/
theorem mem_bindings {dcl : Dcl} {text name value : Str} :
    (name, value) ∈ paramBindings dcl text ↔
      submittedValues dcl text name ≠ [] ∧
        value = joinValues (submittedValues dcl text name) := by
  obtain ⟨ordered, holds⟩ := groupParams_spec dcl text
  unfold paramBindings
  rw [List.mem_map]
  constructor
  · rintro ⟨⟨first, values⟩, member, same⟩
    cases same
    have found := lookup_of_mem ordered member
    rw [holds, held] at found
    split at found
    · cases found
    · rename_i filled
      cases found
      exact ⟨by simpa using filled, rfl⟩
  · rintro ⟨filled, rfl⟩
    have found := holds name
    rw [held, if_neg (by simpa using filled)] at found
    obtain ⟨before, after, whole, -⟩ := List.lookup_eq_some_iff.mp found
    refine ⟨(name, submittedValues dcl text name), ?_, rfl⟩
    rw [whole]
    exact List.mem_append_right _ List.mem_cons_self

theorem paramBindings_inNameOrder (dcl : Dcl) (text : Str) :
    InNameOrder (paramBindings dcl text) :=
  List.pairwise_map.mpr (groupParams_spec dcl text).1

/-- In a list in the order of its names the last spelling is bound last. -/
theorem lastBinding_inNameOrder {key value : Str}
    {bindings : List (Str × Str)} (ordered : InNameOrder bindings)
    (found : lastBinding key bindings = some value) :
    ∃ last, (last, value) ∈ bindings ∧ upName last = key ∧
      ∀ other ∈ bindings, upName other.1 = key → ¬ last < other.1 := by
  induction bindings with
  | nil => cases found
  | cons binding bindings induction =>
      obtain ⟨above, rest⟩ := List.pairwise_cons.mp ordered
      rw [lastBinding, Option.or_eq_some_iff] at found
      rcases found with found | ⟨none, found⟩
      · obtain ⟨last, member, named, latest⟩ := induction rest found
        refine ⟨last, List.mem_cons_of_mem _ member, named, ?_⟩
        intro other inside same
        rcases List.mem_cons.mp inside with rfl | inside
        · exact List.lt_asymm (above _ member)
        · exact latest other inside same
      · by_cases named : upName binding.1 = key
        · rw [if_pos named] at found
          cases found
          refine ⟨binding.1, List.mem_cons_self, named, ?_⟩
          intro other inside same
          rcases List.mem_cons.mp inside with rfl | inside
          · exact List.lt_irrefl _
          · exact absurd same (lastBinding_eq_none.mp none other inside)
        · rw [if_neg named] at found
          cases found

/-! ## What a script reads -/

/-- The last, in the order of the map, of the submitted names that differ
from the given one at most in case. -/
def LastSpelling (dcl : Dcl) (text name last : Str) : Prop :=
  submittedValues dcl text last ≠ [] ∧ upName last = upName name ∧
    ∀ other, submittedValues dcl text other ≠ [] →
      upName other = upName name → ¬ last < other

theorem LastSpelling.unique {dcl : Dcl} {text name one two : Str}
    (first : LastSpelling dcl text name one)
    (second : LastSpelling dcl text name two) : one = two := by
  by_contra different
  exact first.2.2 two second.1 second.2.1
    (str_lt_of_not_lt (second.2.2 one first.1 first.2.1) (Ne.symm different))

/-- The variable gets the joined values of the last spelling of its name. -/
theorem lastBinding_params {dcl : Dcl} {text name : Str}
    (submitted : submittedValues dcl text name ≠ []) :
    ∃ last, LastSpelling dcl text name last ∧
      lastBinding (upName name) (paramBindings dcl text) =
        some (joinValues (submittedValues dcl text last)) := by
  cases found : lastBinding (upName name) (paramBindings dcl text) with
  | none =>
      have bound := mem_bindings.mpr ⟨submitted, rfl⟩
      exact absurd rfl (lastBinding_eq_none.mp found _ bound)
  | some value =>
      obtain ⟨last, member, named, latest⟩ := lastBinding_inNameOrder
        (paramBindings_inNameOrder dcl text) found
      obtain ⟨filled, rfl⟩ := mem_bindings.mp member
      refine ⟨last, ⟨filled, named, ?_⟩, rfl⟩
      intro other more same
      exact latest _ (mem_bindings.mpr ⟨more, rfl⟩) same

/-- The two sources of parameters. -/
inductive ParamSource where
  | query
  | body
  deriving DecidableEq

namespace ParamSource

/-- The text `a=1&b=2` a request brings in the source, if it brings one. -/
def text (api : RequestApi) (request : HttpRequest) : ParamSource → Option Str
  | query => some request.queryString
  | body =>
      if bodyKind api.dcl request = .urlencoded then
        request.content.map cString
      else none

/-- What is bound after the parameters of the source: the fields of the body
after those of the query, and then the variables of the server and of the
process.  A request whose body cannot be read gets no further. -/
def later (api : RequestApi) (request : HttpRequest) (source : ParamSource) :
    List (Str × Str) :=
  match parseBody api request with
  | .error _ => []
  | .ok fields =>
      (if source = query then fields else []) ++
        (standardBindings api.dcl request ++ variableBindings request)

/-- The name is not bound again after the parameters of the source. -/
def Undisturbed (api : RequestApi) (request : HttpRequest)
    (source : ParamSource) (name : Str) : Prop :=
  lastBinding (upName name) (source.later api request) = none

end ParamSource

/-- A body in the form of a query string is read like one. -/
theorem parseBody_urlencoded {api : RequestApi} {request : HttpRequest}
    {text : Str} (sent : ParamSource.body.text api request = some text) :
    parseBody api request = .ok (paramBindings api.dcl text) := by
  unfold ParamSource.text at sent
  simp only at sent
  split at sent
  · rename_i kind
    obtain ⟨content, there, same⟩ := Option.map_eq_some_iff.mp sent
    simp only [parseBody, kind, parseUrlencoded, there, same]
  · cases sent

/-- The fields of a body that is read like a query string come after the
query. -/
theorem later_query {api : RequestApi} {request : HttpRequest} {text : Str}
    (sent : ParamSource.body.text api request = some text) :
    ParamSource.query.later api request =
      paramBindings api.dcl text ++ ParamSource.body.later api request := by
  simp [ParamSource.later, parseBody_urlencoded sent]

theorem initCustomParams_eq (api : RequestApi) (request : HttpRequest)
    (before : Environment) :
    (before.initCustomParams api request).1 = { before with
      session := before.session.addValues (headerBindings request ++
        (paramBindings api.dcl request.queryString ++
          ParamSource.query.later api request)) } := by
  unfold initCustomParams ParamSource.later
  cases parseBody api request with
  | error exception => simp [Context.addValues_append]
  | ok fields => simp [Context.addValues_append]

/-- In a prepared request the parameters of a source stand between what is
bound before and what is bound after them. -/
theorem prepare_bindings {api : RequestApi} {load : SessionLoad}
    {request : HttpRequest} {environment : Environment}
    {raised : Option Exc}
    (prepared : prepare api load request = .value (environment, raised))
    {source : ParamSource} {text : Str}
    (sent : source.text api request = some text) :
    ∃ before, environment.contexts =
      [Context.newLocal.addValues (before ++
          (paramBindings api.dcl text ++ source.later api request)),
        Context.newUser.addValues load.bindings,
        .new "global".toList, .new "system".toList] := by
  rw [prepare] at prepared
  cases returned : (http load).getPath api request with
  | error exception => simp [returned] at prepared
  | halt reason => simp [returned] at prepared
  | value result =>
      obtain ⟨path, located⟩ := result
      simp only [returned, Outcome.value.injEq] at prepared
      obtain ⟨parts, -, rfl⟩ := getPath_cases returned
      have bound := initCustomParams_eq api request
        { http load with session := (http load).session.addValues parts }
      rw [prepared, http_session] at bound
      simp only at bound
      rw [bound]
      cases source with
      | query =>
          cases sent
          refine ⟨startBindings load ++ (parts ++ headerBindings request), ?_⟩
          simp only [contexts, List.append_assoc, Context.addValues_append]
          rfl
      | body =>
          refine ⟨startBindings load ++ (parts ++ (headerBindings request ++
            paramBindings api.dcl request.queryString)), ?_⟩
          simp only [contexts, later_query sent, List.append_assoc,
            Context.addValues_append]
          rfl

/-- What a script reads under a name of the source: what has been bound last
after the parameters, or else their last spelling. -/
theorem lookup_submitted {api : RequestApi} {load : SessionLoad}
    {request : HttpRequest} {environment : Environment}
    {raised : Option Exc}
    (prepared : prepare api load request = .value (environment, raised))
    {source : ParamSource} {text name : Str}
    (sent : source.text api request = some text)
    (submitted : submittedValues api.dcl text name ≠ []) :
    Chain.lookup name environment.contexts =
      (lastBinding (upName name) (source.later api request)).or
        (lastBinding (upName name) (paramBindings api.dcl text)) := by
  obtain ⟨before, chain⟩ := prepare_bindings prepared sent
  obtain ⟨last, -, bound⟩ := lastBinding_params submitted
  rw [chain, lookup_prepared, lastBinding_append, lastBinding_append, bound]
  cases lastBinding (upName name) (source.later api request) <;> rfl

/-- The variable bound to the name is the values with a comma between any
two. -/
def JoinsFaithfully (dcl : Dcl) (environment : Environment)
    (text name : Str) : Prop :=
  Chain.lookup name environment.contexts =
    some (",".toList.intercalate (submittedValues dcl text name))

/-- The name is the last spelling in the text and its first value is not
empty, or else the last spelling has values that join to the same text. -/
def KeepsCommas (dcl : Dcl) (text name : Str) : Prop :=
  ∃ last, LastSpelling dcl text name last ∧
    if last = name then
      (submittedValues dcl text name).head? ≠ some []
    else
      ",".toList.intercalate
          ((submittedValues dcl text last).dropWhile List.isEmpty) =
        ",".toList.intercalate (submittedValues dcl text name)

theorem keepsCommas_iff {dcl : Dcl} {text name : Str}
    (repeated : 2 ≤ (submittedValues dcl text name).length) :
    lastBinding (upName name) (paramBindings dcl text) =
        some (",".toList.intercalate (submittedValues dcl text name)) ↔
      KeepsCommas dcl text name := by
  have submitted : submittedValues dcl text name ≠ [] := by
    intro none
    rw [none] at repeated
    exact absurd repeated (by decide)
  obtain ⟨last, spelling, bound⟩ := lastBinding_params submitted
  rw [bound, Option.some.injEq, joinValues_eq]
  constructor
  · intro same
    refine ⟨last, spelling, ?_⟩
    split
    · rename_i its
      rw [its] at same
      exact (joined_iff repeated).mp same
    · exact same
  · rintro ⟨other, others, keeps⟩
    rw [others.unique spelling] at keeps
    split at keeps
    · rename_i its
      rw [its]
      exact (joined_iff repeated).mpr keeps
    · exact keeps

/-- A variable of a prepared request holds the repeated values of its name
with all the commas exactly when nothing else is bound under the name after
the parameters, the first value is not empty and no other spelling takes the
place of the name; what is bound may also happen to be the same text.
Comma-free values are then the parts of the variable, and what is not
disturbed later depends on the text only, not on the source that brings it. -/
theorem repeated_joined_iff {api : RequestApi} {load : SessionLoad}
    {request : HttpRequest} {environment : Environment}
    {raised : Option Exc}
    (prepared : prepare api load request = .value (environment, raised))
    {source : ParamSource} {text name : Str}
    (sent : source.text api request = some text)
    (repeated : 2 ≤ (submittedValues api.dcl text name).length) :
    (JoinsFaithfully api.dcl environment text name ↔
      match lastBinding (upName name) (source.later api request) with
      | some value =>
          value = ",".toList.intercalate (submittedValues api.dcl text name)
      | none => KeepsCommas api.dcl text name) ∧
    ((∀ value ∈ submittedValues api.dcl text name, ',' ∉ value) →
      (",".toList.intercalate (submittedValues api.dcl text name)).splitOn
          ',' = submittedValues api.dcl text name) ∧
    ∀ {load' : SessionLoad} {request' : HttpRequest}
        {environment' : Environment} {raised' : Option Exc}
        {source' : ParamSource},
      prepare api load' request' = .value (environment', raised') →
      source'.text api request' = some text →
      source.Undisturbed api request name →
      source'.Undisturbed api request' name →
      Chain.lookup name environment'.contexts =
        Chain.lookup name environment.contexts := by
  have submitted : submittedValues api.dcl text name ≠ [] := by
    intro none
    rw [none] at repeated
    exact absurd repeated (by decide)
  have read := lookup_submitted prepared sent submitted
  refine ⟨?_, ?_, ?_⟩
  · rw [JoinsFaithfully, read]
    cases lastBinding (upName name) (source.later api request) with
    | some value => exact Option.some_inj
    | none => exact keepsCommas_iff repeated
  · intro free
    exact List.splitOn_intercalate ',' free submitted
  · intro load' request' environment' raised' source' prepared' sent' own own'
    unfold ParamSource.Undisturbed at own own'
    rw [lookup_submitted prepared' sent' submitted, read, own, own']

/-- A form with two values, and the same name once more in the query. -/
def formRequest : HttpRequest :=
  { getRequest "x=9".toList with
    method := .post
    contentType := "application/x-www-form-urlencoded".toList
    content := some "x=1&x=2".toList }

theorem repeated_joined_sample :
    ∃ environment, prepare .plain (.ofText []) formRequest =
        .value (environment, none) ∧
      JoinsFaithfully .plain environment "x=1&x=2".toList "x".toList := by
  obtain ⟨environment, prepared⟩ : ∃ environment,
      prepare .plain (.ofText []) formRequest = .value (environment, none) :=
    ⟨_, rfl⟩
  refine ⟨environment, prepared, ?_⟩
  have sent : ParamSource.body.text .plain formRequest =
      some "x=1&x=2".toList := by decide
  have repeated : 2 ≤ (submittedValues RequestApi.plain.dcl
      "x=1&x=2".toList "x".toList).length := by decide
  have own : lastBinding (upName "x".toList)
      (ParamSource.body.later .plain formRequest) = none := by decide
  apply (repeated_joined_iff prepared sent repeated).1.mpr
  rw [own]
  exact (keepsCommas_iff repeated).mp (by decide)

/-- `?x=&x=a` binds `a`, and the first value is lost. -/
theorem empty_first_value_lost :
    ∃ environment, prepare .plain (.ofText []) (getRequest "x=&x=a".toList) =
        .value (environment, none) ∧
      submittedValues .plain "x=&x=a".toList "x".toList =
        [[], "a".toList] ∧
      ¬ JoinsFaithfully .plain environment "x=&x=a".toList "x".toList := by
  refine ⟨_, rfl, by decide, ?_⟩
  unfold JoinsFaithfully
  decide

end DbPager
