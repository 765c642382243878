import DbPager.Families.Machine

/-!
# The built-in tags, one by one

One lemma for every class of tags.  First the code of the tag is written out
with what the members of the family have in common; the rest follows the code.
-/

namespace DbPager

open Effect

open Prog (Uniform)

variable {W ι : Type} {family : Family W ι} {Allowed : Permits W}
  {seen : Prop}
  {Holds Inside Closes : ∀ {α : Type}, (ι → M W α) → Prop}

section Tags

variable (native : Native family.outside.dcl Allowed seen Holds Inside Closes)
  (serves : family.Serves Holds)

namespace Family

include native serves

theorem expression_uniform : Holds fun member =>
    TagExpression.execute (family.interp member) (family.self member) :=
  native.bind serves.text fun _ => native.emit _

theorem var_uniform : Holds fun member =>
    TagVar.execute (family.interp member) (family.self member)
      (family.callers member) := by
  have inner := serves.inside native
  have parameter := fun name => inner.getParameter native.inside name
  simp only [TagVar.execute, family.shared]
  apply native.withLayer
  refine native.inside.bind (parameter "name") fun names => ?_
  refine native.inside.bind (native.inside.forEach fun name _ => ?_)
    fun _ => inner.childs
  refine native.inside.bind (parameter "type") fun type => ?_
  refine native.inside.bind (parameter "value") fun value => ?_
  exact native.addTyped name value _

theorem set_uniform (sees : seen) : Holds fun member =>
    TagSet.execute (family.interp member) (family.self member)
      (family.callers member) := by
  simp only [TagSet.execute, family.shared]
  refine native.bind (native.capture serves.childs) fun value => ?_
  refine native.bind (serves.parameter native "name") fun names => ?_
  exact native.forEach fun name _ =>
    native.setValue name value (.of_seen sees)

theorem try_uniform : Holds fun member =>
    TagTry.execute (family.interp member) (family.self member)
      (family.callers member) := by
  have found : ∀ member, (family.self member).getChild "catch".toList =
      (family.tag.childs.find? fun tag => tag.getName == "catch".toList).map
        (family.self member).child := fun _ => rfl
  simp only [TagTry.execute, found]
  apply native.tryCatch
  · exact native.bind (native.capture serves.childs) fun out => native.emit out
  · intro exception
    apply Uniform.ite _ (native.throw exception)
    cases search : family.tag.childs.find? fun tag =>
        tag.getName == "catch".toList with
    | none => exact native.throw exception
    | some handler =>
        have member := List.mem_of_find?_eq_some search
        have handled := serves.handler handler member
        simp only [Option.map_some, Loc.child]
        cases kind : handler.kind with
        | «catch» =>
            have childs := handled kind
            simp only [TagCatch.processException, family.shared]
            apply native.withLayer
            refine native.inside.bind
              (native.inside.when (native.addValue _ _)) fun _ => ?_
            exact native.inside.bind (native.addValue _ _) fun _ =>
              native.raise childs
        | _ => exact native.halt .fault

theorem throw_uniform : Holds fun member =>
    TagThrow.execute (family.interp member) (family.self member)
      (family.callers member) := by
  simp only [TagThrow.execute, TagThrow.message, family.shared]
  refine native.bind (serves.parameter native "message") fun text => ?_
  refine native.bind
    (Uniform.ite (native.capture serves.childs) (native.pure _))
    fun message => ?_
  refine native.bind (serves.parameter native "code") fun code => ?_
  apply Uniform.ite (native.throw _)
  exact native.bind (native.int _) fun _ => native.throw _

theorem case_uniform : Holds fun member =>
    TagCase.execute (family.interp member) (family.self member)
      (family.callers member) := by
  refine native.bind (serves.parameter native "match") fun pattern => ?_
  refine native.bind (native.getValue _ (.of_ne (by decide))) fun tested => native.when ?_
  exact native.bind serves.childs fun _ => native.throw _

theorem switch_uniform : Holds fun member =>
    TagSwitch.execute (family.interp member) (family.self member)
      (family.callers member) := by
  have inner := serves.inside native
  simp only [TagSwitch.execute, family.shared]
  apply native.withLayer
  apply native.inside.tryCatch
  · refine native.inside.bind (inner.getParameter native.inside "test")
      fun test => ?_
    exact native.inside.bind (native.addValue _ _) fun _ => inner.childs
  · intro exception
    exact Uniform.ite (native.inside.pure _) (native.inside.throw _)

theorem while_uniform : Holds fun member =>
    TagWhile.execute (family.interp member) (family.self member)
      (family.callers member) := by
  simp only [TagWhile.execute, family.shared]
  refine native.whileLoop ?_ serves.childs _
  exact native.bind (serves.parameter native "test") fun _ => native.pure _

theorem bindArguments_uniform (params : List (Str × Str)) :
    Inside fun member =>
      bindArguments (family.interp member) (family.self member) params := by
  simp only [bindArguments, family.shared]
  refine native.inside.forEach fun param _ => ?_
  exact native.inside.bind (native.raise (serves.param param.2)) fun _ =>
    native.addValue _ _

section Called

variable {up : List Tag} (ups : ∀ member, family.ups member = up)
include ups

omit native serves in
theorem self_eq (member : ι) : family.self member = ⟨family.tag, up⟩ :=
  congrArg (Loc.mk family.tag) (ups member)

/-- A custom tag, if running its definition has the property. -/
theorem usr_uniform
    (invokes : ∀ definition, TagUsr.target ⟨family.tag, up⟩ = some definition →
      Holds fun member =>
        invoke (family.interp member) (family.self member) definition) :
    Holds fun member =>
      TagUsr.execute (family.interp member) (family.self member) := by
  have target : ∀ member, TagUsr.target (family.self member) =
      TagUsr.target ⟨family.tag, up⟩ :=
    fun member => congrArg TagUsr.target (family.self_eq ups member)
  simp only [TagUsr.execute, undefinedTag, target, family.shared]
  apply native.withLayer
  refine native.inside.bind (family.bindArguments_uniform native serves _)
    fun _ => native.raise ?_
  cases found : TagUsr.target ⟨family.tag, up⟩ with
  | none => exact native.throw _
  | some definition => exact invokes definition found

theorem call_uniform
    (invokes : ∀ name definition, findTag name up = some definition →
      Holds fun member =>
        invoke (family.interp member) (family.self member) definition) :
    Holds fun member =>
      TagCall.execute (family.interp member) (family.self member) := by
  have arguments : ∀ member, TagCall.arguments (family.self member) =
      TagCall.arguments ⟨family.tag, []⟩ := fun _ => rfl
  have above : ∀ member, (family.self member).up = up := ups
  simp only [TagCall.execute, undefinedTag, arguments, above, family.shared]
  refine native.bind (serves.parameter native "name") fun name => ?_
  apply native.withLayer
  refine native.inside.bind (family.bindArguments_uniform native serves _)
    fun _ => native.raise ?_
  have invoked := invokes name
  cases found : findTag name up with
  | none => exact native.throw _
  | some definition => exact invoked definition found

end Called

omit serves in
theorem async_uniform
    (threads : ∀ tag ∈ family.tag.childs, Holds fun member =>
      TagAsync.thread (family.interp member) (family.self member)
        (family.callers member) tag) :
    Holds fun member =>
      TagAsync.execute (family.interp member) (family.self member)
        (family.callers member) := by
  have all : ∀ numbers, Holds fun member =>
      TagAsync.threads (family.interp member) (family.self member)
        (family.callers member) numbers := by
    intro numbers
    induction numbers with
    | nil => exact native.pure []
    | cons number numbers induction =>
        simp only [TagAsync.threads, family.shared]
        cases found : family.tag.childs[number]? with
        | none => exact induction
        | some tag =>
            have ran := threads tag (List.mem_of_getElem? found)
            refine native.bind ran fun out => ?_
            exact native.bind induction fun _ => native.pure _
  simp only [TagAsync.execute, family.shared]
  refine native.bind (all _) fun outputs => ?_
  exact native.forEach fun number _ => native.emit _

theorem cycle_uniform {name : Str} (apart : Apart seen name)
    (fragments : List Str) : Holds fun member =>
      TagSplit.cycle (family.interp member) (family.self member)
        (family.callers member) name fragments := by
  simp only [TagSplit.cycle, family.shared]
  refine native.forEach fun fragment _ => ?_
  exact native.bind (native.setValue _ _ apart) fun _ => serves.childs

omit serves in
/-- The last name bound is the one before, or one of the names. -/
theorem bindNames_uniform {α : Type} {names : List Str}
    {next : ι → Str × List Str → M W α} : ∀ {last : Str} (fragments : List Str),
    (∀ bound rest, bound = last ∨ bound ∈ names →
      Inside fun member => next member (bound, rest)) →
    Inside fun member =>
      TagSplit.bindNames (family.interp member) last names fragments >>=
        next member := by
  induction names with
  | nil =>
      intro last fragments holds
      exact holds last fragments (.inl rfl)
  | cons name names induction =>
      intro last fragments holds
      cases fragments with
      | nil => exact holds last [] (.inl rfl)
      | cons fragment fragments =>
          simp only [TagSplit.bindNames, Prog.bind_assoc, family.shared]
          refine native.inside.bind (native.addValue _ _) fun _ => ?_
          apply induction fragments
          intro bound rest named
          apply holds bound rest
          right
          rcases named with rfl | member
          · exact List.mem_cons_self
          · exact List.mem_cons_of_mem name member

theorem bound_uniform (sep : Str) (fragments : List Str) {names : List Str}
    (apart : ∀ name ∈ names, Apart seen name) : Inside fun member =>
      TagSplit.bound (family.interp member) (family.self member)
        (family.callers member) sep fragments names := by
  have inner := serves.inside native
  match names with
  | [] =>
      simp only [TagSplit.bound, family.shared]
      exact native.inside.throw _
  | [name] =>
      have cycled := fun fragments => native.raise
        (family.cycle_uniform native serves
          (apart name List.mem_cons_self) fragments)
      simp only [TagSplit.bound, family.shared]
      refine native.inside.bind (native.addValue _ _) fun _ => ?_
      refine native.inside.bind (inner.getParameter native.inside "order")
        fun order => ?_
      apply Uniform.ite (cycled _)
      exact Uniform.ite (cycled _) (native.inside.throw _)
  | first :: second :: names =>
      simp only [TagSplit.bound, family.shared]
      apply family.bindNames_uniform native fragments
      intro last rest named
      have here : Apart seen last := by
        rcases named with rfl | member
        · exact .of_ne (by decide)
        · exact apart last member
      refine native.inside.bind (native.inside.when ?_) fun _ => inner.childs
      refine native.raise
        (native.bind (native.getValue _ here) fun _ => ?_)
      exact native.setValue _ _ here

/-- The tag, with any way of reading the names and binding them. -/
theorem splitWith_uniform
    {body : ι → Str → List Str → M W Unit}
    (inside : ∀ sep fragments, Inside fun member => body member sep fragments) :
    Holds fun member => (do
      M.enter
      let (sep, fragments) ←
        (TagSplit.source (family.interp member) (family.self member)).onError
          (M.record (.leak .splitParameter))
      (body member sep fragments).onError M.leave
      M.leave : M W Unit) := by
  have source : Holds fun member =>
      TagSplit.source (family.interp member) (family.self member) := by
    simp only [TagSplit.source, family.shared]
    refine native.bind (serves.parameter native "separator") fun _ => ?_
    refine native.bind (serves.parameter native "value") fun value => ?_
    exact native.bind (native.orTimeout _) fun _ => native.pure _
  apply native.enter
  apply native.guarded (native.raise source) (native.leak _)
  intro ⟨sep, fragments⟩
  exact native.guarded (inside sep fragments) native.leave fun _ => native.leave

theorem split_uniform (sees : seen) : Holds fun member =>
    TagSplit.execute (family.interp member) (family.self member)
      (family.callers member) := by
  have inner := serves.inside native
  apply family.splitWith_uniform native serves
  intro sep fragments
  simp only [TagSplit.body, family.shared]
  refine native.inside.bind (inner.getParameter native.inside "name")
    fun text => ?_
  exact family.bound_uniform native serves sep fragments
    fun name _ => .of_seen sees

theorem substr_uniform : Holds fun member =>
    TagSubstr.execute (family.interp member) (family.self member)
      (family.callers member) := by
  have inner := serves.inside native
  have parameter := fun name => inner.getParameter native.inside name
  simp only [TagSubstr.execute, family.shared]
  apply native.withLayer
  refine native.inside.bind (parameter "value") fun str => ?_
  refine native.inside.bind (parameter "what") fun what => ?_
  refine native.inside.bind (parameter "with") fun replacement => ?_
  refine native.inside.bind (native.raise (native.orTimeout _))
    fun result => ?_
  refine native.inside.bind (parameter "name") fun name => ?_
  exact native.inside.bind (native.addValue _ _) fun _ => inner.childs

theorem withVariable_uniform (name value : Str) : Holds fun member =>
    TagRegexp.withVariable (family.interp member) (family.self member)
      (family.callers member) name value := by
  simp only [TagRegexp.withVariable, family.shared]
  apply native.withLayer
  exact native.inside.bind (native.addValue _ _) fun _ =>
    native.raise serves.childs

theorem search_uniform (expression variableName : Str) (budget : Nat) :
    ∀ input, Holds fun member =>
      TagRegexp.search (family.interp member) (family.self member)
        (family.callers member) expression variableName budget input := by
  induction budget with
  | zero => exact fun _ => native.halt .timeout
  | succ budget induction =>
      intro input
      simp only [TagRegexp.search, family.shared]
      cases family.outside.regexp.findAndConsume expression input with
      | some result =>
          refine native.bind ?_ fun _ => induction _
          exact family.withVariable_uniform native serves _ _
      | none => exact native.pure _

theorem regexp_uniform : Holds fun member =>
    TagRegexp.execute (family.interp member) (family.self member)
      (family.callers member) := by
  simp only [TagRegexp.execute, family.shared]
  refine native.bind (serves.parameter native "expr") fun parameter => ?_
  refine native.bind (serves.parameter native "value") fun value => ?_
  refine native.bind (serves.parameter native "name") fun name => ?_
  refine native.bind (serves.parameter native "with") fun replacement => ?_
  apply Uniform.ite (family.search_uniform native serves _ _ _ _)
  split
  · exact family.withVariable_uniform native serves _ _
  · exact native.pure _

theorem realExecute_uniform : Holds fun member =>
    TagUnknown.realExecute (family.interp member) (family.self member)
      (family.callers member) := by
  have converted : ∀ member, TagUnknown.convert (family.self member) =
      TagUnknown.convert ⟨family.tag, []⟩ := fun _ => rfl
  simp only [TagUnknown.realExecute, converted, family.shared]
  refine native.bind (native.emit _) fun _ => ?_
  refine native.bind (native.forEach fun param _ => ?_) fun _ => ?_
  · simp only [TagUnknown.writeParam, converted]
    apply Uniform.ite (native.pure _)
    apply Uniform.ite
    · exact native.bind (serves.param param.2) fun _ =>
        native.when (native.emit _)
    · apply Uniform.ite (native.pure _)
      exact native.bind (serves.param param.2) fun _ =>
        native.when (native.emit _)
  · exact native.bind (native.capture serves.childs) fun _ => native.emit _

theorem unknown_uniform (sees : seen) : Holds fun member =>
    TagUnknown.execute (family.interp member) (family.self member)
      (family.callers member) := by
  have inside := family.realExecute_uniform native serves
  simp only [TagUnknown.execute, family.shared]
  refine native.bind (native.getValue _ (.of_seen sees)) fun root => ?_
  apply Uniform.ite _ inside
  apply native.withLayer
  refine native.inside.bind (native.addValue _ _) fun _ => native.raise ?_
  exact native.bind (native.capture inside) fun _ => native.emit _

omit serves in
theorem cdata_uniform (sees : seen) : Holds fun member =>
    (TagCdata.execute (family.self member) : M W Unit) := by
  simp only [TagCdata.execute, family.shared]
  refine native.bind (native.getValue _ (.of_seen sees)) fun _ => ?_
  exact Uniform.ite (native.emit _) (native.emit _)

omit serves in
theorem handle_uniform {variableName : Str} (apart : Apart seen variableName)
    (name : Str) (message : String) : Holds fun member =>
      handle (family.interp member) variableName name message := by
  simp only [handle, family.shared]
  refine native.bind (native.getValue _ apart) fun pointer => ?_
  exact Uniform.ite (native.throw _) (native.pointer _)

theorem childJson_uniform : Holds fun member =>
    childJson (family.interp member) (family.self member)
      (family.callers member) := by
  simp only [childJson, family.shared]
  refine native.bind (native.capture serves.childs) fun buf => ?_
  apply Uniform.ite (native.pure _)
  exact native.bind (native.orThrow _ _) fun _ => native.pure _

theorem list_uniform : Holds fun member =>
    TagList.execute (family.interp member) (family.self member)
      (family.callers member) := by
  simp only [TagList.execute, family.shared]
  refine native.bind (serves.parameter native "name") fun name => ?_
  refine native.withVector fun addr => native.withLayer ?_
  exact native.inside.bind (native.addValue _ _) fun _ =>
    native.raise serves.childs

theorem listAdd_uniform : Holds fun member =>
    TagListAdd.execute (family.interp member) (family.self member) := by
  simp only [TagListAdd.execute, listPointer, family.shared]
  refine native.bind (serves.parameter native "name") fun name => ?_
  refine native.bind (serves.parameter native "value") fun value => ?_
  refine native.bind (family.handle_uniform native (.stem (by decide) _) _ _)
    fun addr => ?_
  exact native.bind (native.getVector _) fun _ => native.setVector _ _

theorem listRemove_uniform : Holds fun member =>
    TagListRemove.execute (family.interp member) (family.self member) := by
  simp only [TagListRemove.execute, listPointer, family.shared]
  refine native.bind (serves.parameter native "name") fun name => ?_
  refine native.bind (serves.parameter native "number") fun key => ?_
  refine native.bind (family.handle_uniform native (.stem (by decide) _) _ _)
    fun addr => ?_
  refine native.bind (native.getVector _) fun vector => ?_
  refine native.bind (native.int _) fun index => ?_
  exact Uniform.ite (native.setVector _ _) (native.halt .fault)

omit serves in
theorem at_uniform (vector : Vector) (index : Int) :
    Holds fun _ => (vector.at index : M W Str) := by
  cases index with
  | ofNat position => exact native.orThrow _ _
  | negSucc position => exact native.throw _

theorem listElement_uniform : Holds fun member =>
    TagListElement.execute (family.interp member) (family.self member)
      (family.callers member) := by
  simp only [TagListElement.execute, listPointer, family.shared]
  refine native.bind (serves.parameter native "name") fun name => ?_
  refine native.bind (serves.parameter native "number") fun key => ?_
  refine native.bind (family.handle_uniform native (.stem (by decide) _) _ _)
    fun addr => native.withLayer ?_
  refine native.inside.bind (native.raise (native.int _)) fun index => ?_
  refine native.inside.bind (native.raise (native.getVector _))
    fun vector => ?_
  refine native.inside.bind (native.raise (at_uniform native vector index))
    fun value => ?_
  exact native.inside.bind (native.addValue _ _) fun _ =>
    native.raise serves.childs

theorem listLoop_uniform (name : Str) (addr budget : Nat) :
    ∀ position, Holds fun member =>
      TagListElements.loop (family.interp member) (family.self member)
        (family.callers member) name addr budget position := by
  induction budget with
  | zero => exact fun _ => native.halt .timeout
  | succ budget induction =>
      intro position
      simp only [TagListElements.loop, family.shared]
      refine native.bind (native.getVector _) fun vector => ?_
      cases vector.content[position]? with
      | none => exact native.pure _
      | some value =>
          refine native.bind (native.withLayer ?_) fun _ => ?_
          · exact native.inside.bind (native.addValue _ _) fun _ =>
              native.raise serves.childs
          · refine native.bind (native.getVector _) fun after => ?_
            exact Uniform.ite (induction _) (native.halt .fault)

theorem listElements_uniform : Holds fun member =>
    TagListElements.execute (family.interp member) (family.self member)
      (family.callers member) := by
  simp only [TagListElements.execute, listPointer, family.shared]
  refine native.bind (serves.parameter native "name") fun name => ?_
  refine native.bind (family.handle_uniform native (.stem (by decide) _) _ _)
    fun addr => ?_
  exact family.listLoop_uniform native serves _ _ _ _

theorem listFromJson_uniform : Holds fun member =>
    TagListFromJson.execute (family.interp member) (family.self member)
      (family.callers member) := by
  have store (elements : List Json) (addr : Nat) : Holds fun _ : ι => (do
      let vector ← M.getVector addr
      M.setVector addr
        (Vector.pushAll family.outside (vector.change [] .cleared)
          (elements.map
            (Json.elementText family.outside.json.write))) : M W Unit) :=
    native.bind (native.getVector _) fun _ => native.setVector _ _
  simp only [TagListFromJson.execute, listPointer, family.shared]
  refine native.bind (serves.parameter native "name") fun name => ?_
  refine native.bind (family.handle_uniform native (.stem (by decide) _) _ _)
    fun addr => ?_
  refine native.bind (family.childJson_uniform native serves) fun root => ?_
  match root with
  | some (.array elements) => exact store _ _
  | some (.object members) => exact store _ _
  | some .null => exact native.pure _
  | some (.scalar _ _) => exact native.pure _
  | none => exact native.pure _

theorem map_uniform : Holds fun member =>
    TagMap.execute (family.interp member) (family.self member)
      (family.callers member) := by
  simp only [TagMap.execute, family.shared]
  refine native.bind (serves.parameter native "name") fun name => ?_
  refine native.withMap fun data => native.withMap fun dataTypes => ?_
  apply native.withLayer
  refine native.inside.bind (native.addValue _ _) fun _ => ?_
  exact native.inside.bind (native.addValue _ _) fun _ =>
    native.raise serves.childs

theorem mapSet_uniform : Holds fun member =>
    TagMapSet.execute (family.interp member) (family.self member) := by
  simp only [TagMapSet.execute, mapPointer, mapTypesPointer, family.shared]
  refine native.bind (serves.parameter native "name") fun name => ?_
  refine native.bind (serves.parameter native "key") fun key => ?_
  refine native.bind (serves.parameter native "type") fun type => ?_
  refine native.bind (serves.parameter native "value") fun value => ?_
  refine native.bind (family.handle_uniform native (.stem (by decide) _) _ _)
    fun data => ?_
  refine native.bind (native.getMap _) fun map => ?_
  refine native.bind (native.setMap _ _) fun _ => native.when ?_
  refine native.bind (family.handle_uniform native (.stem (by decide) _) _ _)
    fun dataTypes => ?_
  exact native.bind (native.getMap _) fun _ => native.setMap _ _

theorem mapUnset_uniform : Holds fun member =>
    TagMapUnset.execute (family.interp member) (family.self member) := by
  simp only [TagMapUnset.execute, mapPointer]
  refine native.bind (serves.parameter native "name") fun name => ?_
  refine native.bind (serves.parameter native "key") fun key => ?_
  refine native.bind (family.handle_uniform native (.stem (by decide) _) _ _)
    fun data => ?_
  exact native.bind (native.getMap _) fun _ => native.setMap _ _

theorem mapElement_uniform : Holds fun member =>
    TagMapElement.execute (family.interp member) (family.self member)
      (family.callers member) := by
  simp only [TagMapElement.execute, TagMapElement.bind, mapPointer,
    family.shared]
  refine native.bind (serves.parameter native "name") fun name => ?_
  refine native.bind (serves.parameter native "key") fun key => ?_
  refine native.bind (family.handle_uniform native (.stem (by decide) _) _ _)
    fun data => native.withLayer ?_
  refine native.inside.bind (native.raise (native.getMap _)) fun map => ?_
  refine native.inside.bind ?_ fun _ => native.raise serves.childs
  cases map.content.lookup key with
  | some value => exact native.addValue _ _
  | none => exact native.inside.pure _

theorem mapLoop_uniform (name : Str) (data budget : Nat) :
    ∀ entry, Holds fun member =>
      TagMapElements.loop (family.interp member) (family.self member)
        (family.callers member) name data budget entry := by
  induction budget with
  | zero => exact fun _ => native.halt .timeout
  | succ budget induction =>
      intro entry
      cases entry with
      | none => exact native.pure _
      | some entry =>
          simp only [TagMapElements.loop, family.shared]
          refine native.bind (native.getMap _) fun before => ?_
          refine native.bind (native.withLayer ?_) fun _ => ?_
          · refine native.inside.bind (native.addValue _ _) fun _ => ?_
            exact native.inside.bind (native.addValue _ _) fun _ =>
              native.raise serves.childs
          · refine native.bind (native.getMap _) fun after => ?_
            exact Uniform.ite (induction _) (native.halt .fault)

theorem mapElements_uniform : Holds fun member =>
    TagMapElements.execute (family.interp member) (family.self member)
      (family.callers member) := by
  simp only [TagMapElements.execute, mapPointer, family.shared]
  refine native.bind (serves.parameter native "name") fun name => ?_
  refine native.bind (family.handle_uniform native (.stem (by decide) _) _ _)
    fun data => ?_
  refine native.bind (native.getMap _) fun map => ?_
  exact family.mapLoop_uniform native serves _ _ _ _

theorem mapValues_uniform : Holds fun member =>
    TagMapValues.execute (family.interp member) (family.self member)
      (family.callers member) := by
  simp only [TagMapValues.execute, mapPointer, family.shared]
  refine native.bind (serves.parameter native "name") fun name => ?_
  refine native.bind (serves.parameter native "prefix") fun parameter => ?_
  refine native.bind (family.handle_uniform native (.stem (by decide) _) _ _)
    fun data => native.withLayer ?_
  refine native.inside.bind (native.raise (native.getMap _)) fun map => ?_
  exact native.inside.bind
    (native.inside.forEach fun entry _ => native.addValue _ _)
    fun _ => native.raise serves.childs

theorem mapFromJson_uniform : Holds fun member =>
    TagMapFromJson.execute (family.interp member) (family.self member)
      (family.callers member) := by
  simp only [TagMapFromJson.execute, mapPointer, family.shared]
  refine native.bind (serves.parameter native "name") fun name => ?_
  refine native.bind (family.handle_uniform native (.stem (by decide) _) _ _)
    fun data => ?_
  refine native.bind (family.childJson_uniform native serves) fun root => ?_
  match root with
  | some (.object members) =>
      exact native.bind (native.getMap _) fun _ => native.setMap _ _
  | some (.array elements) => exact native.pure _
  | some .null => exact native.pure _
  | some (.scalar _ _) => exact native.pure _
  | none => exact native.pure _

omit serves in
theorem jsonMembers_uniform (types : Vars)
    (entries : List (Sigma fun _ : Str => Str)) :
    ∀ written, Holds fun member =>
      TagMapToJson.members (family.interp member) types entries written := by
  induction entries with
  | nil => exact fun _ => native.pure _
  | cons entry entries induction =>
      intro written
      simp only [TagMapToJson.members, TagMapToJson.value, family.shared]
      refine native.bind ?_ fun _ => induction _
      apply Uniform.ite (native.orThrow _ _)
      apply Uniform.ite (native.orThrow _ _)
      apply Uniform.ite (native.pure _)
      exact Uniform.ite (native.orThrow _ _) (native.pure _)

theorem mapToJson_uniform : Holds fun member =>
    TagMapToJson.execute (family.interp member) (family.self member) := by
  simp only [TagMapToJson.execute, TagMapToJson.types, mapPointer,
    mapTypesPointer, family.shared]
  refine native.bind (serves.parameter native "name") fun name => ?_
  refine native.bind (family.handle_uniform native (.stem (by decide) _) _ _)
    fun data => ?_
  refine native.bind (family.handle_uniform native (.stem (by decide) _) _ _)
    fun dataTypes => ?_
  refine native.bind (native.getMap _) fun map => ?_
  refine native.bind (Uniform.ite (native.pure _) ?_) fun types => ?_
  · exact native.bind (native.getMap _) fun _ => native.pure _
  · exact native.bind (family.jsonMembers_uniform native _ _ _)
      fun _ => native.emit _

section System

variable {pgsql ldap : Prop}
  (permitted : family.outside.Permitted pgsql ldap Allowed)

omit serves in
include permitted in
theorem logMessage_uniform (level : LogLevel) (message : Str) :
    Holds fun member => logMessage (family.interp member) level message := by
  simp only [logMessage, family.shared]
  refine native.bind native.services fun services => ?_
  exact Uniform.ite (native.io (permitted.system.log _ _)) (native.halt .fault)

include permitted

theorem log_uniform : Holds fun member =>
    TagLog.execute (family.interp member) (family.self member)
      (family.callers member) :=
  native.bind (native.capture serves.childs) fun _ =>
    family.logMessage_uniform native permitted _ _

theorem read_uniform : Holds fun member =>
    TagRead.execute (family.interp member) (family.self member)
      (family.callers member) := by
  simp only [TagRead.execute, family.shared]
  refine native.bind serves.childs fun _ => ?_
  refine native.bind (serves.parameter native "href") fun href => ?_
  refine native.bind (native.io (permitted.system.readFile _)) fun found => ?_
  cases found with
  | some text => exact native.emit _
  | none => exact native.throw _

theorem write_uniform : Holds fun member =>
    TagWrite.execute (family.interp member) (family.self member)
      (family.callers member) := by
  simp only [TagWrite.execute, family.shared]
  refine native.bind (native.capture serves.childs) fun buf => ?_
  refine native.bind (serves.parameter native "href") fun href => ?_
  exact native.bind (native.io (permitted.system.writeFile _ _)) fun _ =>
    native.when (native.throw _)

theorem delete_uniform : Holds fun member =>
    TagDelete.execute (family.interp member) (family.self member)
      (family.callers member) := by
  simp only [TagDelete.execute, family.shared]
  refine native.bind (serves.parameter native "href") fun href => ?_
  refine native.bind (native.io (permitted.system.remove _)) fun removed => ?_
  exact native.bind (native.when (native.throw _)) fun _ => serves.childs

theorem rename_uniform : Holds fun member =>
    TagRename.execute (family.interp member) (family.self member)
      (family.callers member) := by
  simp only [TagRename.execute, family.shared]
  refine native.bind (serves.parameter native "href") fun href => ?_
  refine native.bind (serves.parameter native "as") fun newName => ?_
  refine native.bind (native.io (permitted.system.rename _ _))
    fun renamed => ?_
  exact native.bind (native.when (native.throw _)) fun _ => serves.childs

theorem locale_uniform : Holds fun member =>
    TagLocale.execute (family.interp member) (family.self member)
      (family.callers member) := by
  simp only [TagLocale.execute, family.shared]
  refine native.bind (serves.parameter native "domain") fun domain => ?_
  refine native.bind (serves.parameter native "path") fun path => ?_
  refine native.bind (serves.parameter native "locale") fun locale => ?_
  apply Uniform.ite (native.throw _)
  apply Uniform.ite (native.throw _)
  apply native.withLayer
  refine native.inside.bind (native.addValue _ _) fun _ => ?_
  refine native.inside.bind (native.addValue _ _) fun _ => native.raise ?_
  exact native.bind (native.io (permitted.system.registerCatalogAt _ _))
    fun _ => serves.childs

theorem system_uniform : Holds fun member =>
    TagSystem.execute (family.interp member) (family.self member)
      (family.callers member) := by
  simp only [TagSystem.execute, family.shared]
  refine native.bind (serves.parameter native "href") fun href => ?_
  refine native.bind (serves.parameter native "parameters") fun args => ?_
  refine native.bind (native.tryCatch ?_ fun _ => ?_) fun errstr => ?_
  · refine native.bind (native.capture serves.childs) fun input => ?_
    refine native.bind (native.io (permitted.system.process _ _ _))
      fun result => ?_
    exact native.bind (native.emit _) fun _ => native.pure _
  · exact Uniform.ite (native.throw _) (native.throw _)
  · exact native.when (native.throw _)

theorem http_uniform : Holds fun member =>
    TagHttp.execute (family.interp member) (family.self member)
      (family.callers member) := by
  have parameter := fun name => serves.parameter native name
  simp only [TagHttp.execute, family.shared]
  refine native.bind (native.io permitted.system.curlInit) fun ready => ?_
  refine native.bind (native.when (native.throw _)) fun _ => ?_
  refine native.bind (parameter "href") fun href => ?_
  refine native.bind (parameter "user") fun user => ?_
  refine native.bind (parameter "password") fun password => ?_
  refine native.bind (parameter "certificate") fun certificate => ?_
  refine native.bind (parameter "private-key") fun privateKey => ?_
  refine native.bind (parameter "ca-certificate") fun _ => ?_
  refine native.bind (parameter "certificate-data") fun _ => ?_
  refine native.bind (parameter "private-key-data") fun _ => ?_
  refine native.bind (parameter "ca-certificate-data") fun _ => ?_
  refine native.bind (parameter "method") fun method => ?_
  refine native.bind (native.capture serves.childs) fun content => ?_
  refine native.bind (native.io (permitted.system.curlPerform _))
    fun response => ?_
  match response with
  | .error message => exact native.throw _
  | .ok (code, body) => exact Uniform.ite (native.throw _) (native.emit _)

end System

end Family

end Tags

end DbPager
