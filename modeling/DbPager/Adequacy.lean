import DbPager.Interpreter
import DbPager.Scenes

/-!
# The interpreter carries out the language

Every tag of the language does what its meaning says, when the tags it calls
do.  So a virtual call does what the procedure does, however deep the calls
are nested.
-/

namespace DbPager

open Effect Language

namespace Semantics

variable {W : Type} {outside : Outside W} {expressions : Expressions outside}
variable {call : Procedure → Scene → Answer Str Char Exc Loc} {budget : Nat}
variable {run : Loc → Option Loc → M W Unit} {self : Loc} {caller : Option Loc}

theorem emits (text : Str) : Does call budget (Prog.emit text : M W Unit)
    (.write text) :=
  Realizes.emit (Kept.same After.refl)

theorem throws (exception : Exc) :
    Does call budget (Prog.throw exception : M W Unit) (.throw exception) :=
  Realizes.stop (Kept.same After.refl)

theorem Does.compute {program : M W Str} {expr : Expr Str Char Exc}
    {rest : Str → M W Unit} {next : Str → Statement}
    (reads : Reads Presents program expr)
    (others : ∀ value, Does call budget (rest value) (next value)) :
    Does call budget (program >>= rest) (.compute expr next) :=
  Realizes.compute reads (Kept.same After.refl) others

/-- What is read from the state does not matter. -/
theorem Does.read {γ : Type} {view : St W → γ} {rest : γ → M W Unit}
    {stmt : Statement} (does : ∀ seen, Does call budget (rest seen) stmt) :
    Does call budget (Prog.read view >>= rest) stmt :=
  fun state scene shown => does (view state) state scene shown

theorem readsVariable (name : Str) :
    Reads Presents (M.getValue name : M W Str) (valueOf name) := by
  intro state scene shown result same
  cases same
  rw [M.getValue_eq, shown.shown name]
  rfl

theorem readsParam (self : Loc) (text : Str) :
    Reads Presents ((Interp.ofRun outside budget run).executeParam self text)
      (expressions.value text) := by
  intro state scene shown result same
  exact expressions.computed same
    (Evaluator.executeFunction outside run
      (Interp.paramTag text :: self.tag :: self.up)) state shown.shown

theorem readsParameter (self : Loc) (name : String) :
    Reads Presents ((Interp.ofRun outside budget run).getParameter self name)
      (param expressions self name) := by
  unfold Interp.getParameter param
  cases self.findParam name.toList with
  | none => exact Reads.pure fun _ => rfl
  | some text => exact readsParam self text

section Tags

variable (runs : ∀ self caller,
  Does call budget (run self caller) (.invoke (self, caller)))
include runs

theorem does_childs (self : Loc) (caller : Option Loc) :
    Does call budget
      ((Interp.ofRun outside budget run).executeChilds self caller)
      (childs self caller) :=
  Performs.each After.trans (fun tag _ => runs (self.child tag) caller)
    (emits self.tag.text)

omit runs in
/-- A binding with the type of the context at hand. -/
theorem addTyped_local (name value : Str) {type : Str} {state : St W}
    (headed : Headed state.contexts)
    (isLocal : (type.isEmpty || outside.dcl.compare type Context.localType) =
      true) :
    M.addTyped outside.dcl name value
        (if type.isEmpty then Context.localType else type) state =
      M.addValue outside.dcl name value state := by
  obtain ⟨context, parents, top, same, layers⟩ := headed
  cases stack : context.stack with
  | nil => exact absurd stack layers
  | cons layer rest =>
      have compared : outside.dcl.compare
          (if (if type.isEmpty then Context.localType else type).isEmpty
            then context.type
            else if type.isEmpty then Context.localType else type)
          context.type = true := by
        rw [same]
        cases type with
        | nil =>
            have named : Context.localType ≠ [] := nofun
            simp [named, outside.dcl.compare_self]
        | cons first last => simpa using isLocal
      have untyped : outside.dcl.compare
          (if ([] : Str).isEmpty then context.type else []) context.type =
            true := by
        simp [outside.dcl.compare_self]
      simp only [M.addValue, M.addTyped, Prog.act, top, Chain.addValue,
        compared, untyped, if_true, stack]

theorem does_var (names : List Str) :
    DoesInside call budget
      (Prog.forEach (fun name => do
          let type ← (Interp.ofRun outside budget run).getParameter self "type"
          let value ←
            (Interp.ofRun outside budget run).getParameter self "value"
          M.addTyped outside.dcl name value
            (if type.isEmpty then Context.localType else type)) names >>=
        fun _ => (Interp.ofRun outside budget run).executeChilds self caller)
      (tagVar expressions self caller names) := by
  induction names with
  | nil => exact (does_childs runs self caller).inside
  | cons name names induction =>
      rw [Prog.forEach, tagVar]
      simp only [Prog.bind_assoc]
      apply DoesInside.compute (readsParameter self "type")
      intro type
      apply DoesInside.compute (readsParameter self "value")
      intro value
      cases isLocal : type.isEmpty ||
          outside.dcl.compare type Context.localType with
      | false => exact fun _ _ => .stuck _
      | true =>
          intro layer outer state scene here
          have added := addTyped_local name value here.presents.headed isLocal
          rw [if_pos rfl, Prog.bind_congr added]
          exact induction.declare outside.dcl name value layer outer state scene
            here

theorem does_tagVar :
    Does call budget
      (TagVar.execute (Interp.ofRun outside budget run) self caller)
      (.compute (param expressions self "name") fun names =>
        tagVar expressions self caller (outside.dcl.tokens names)) := by
  apply Does.withLayer
  apply DoesInside.compute (readsParameter self "name")
  intro names
  exact does_var runs (outside.dcl.tokens names)

theorem does_tagSet :
    Does call budget
      (TagSet.execute (Interp.ofRun outside budget run) self caller)
      (tagSet expressions self caller) := by
  apply Performs.capture After.trans (does_childs runs self caller)
  intro value
  apply Does.compute (readsParameter self "name")
  intro names
  apply Performs.forEach After.refl After.trans
  exact fun name _ => Does.assign outside.dcl name value

/-- A handler with the variables of the exception. -/
theorem does_handle (handler : Loc) (exception : Exc) :
    Does call budget
      (TagCatch.processException (Interp.ofRun outside budget run) handler
        exception caller)
      (handle outside.dcl handler caller exception) := by
  apply Does.withLayer
  have childs : Does call budget
      ((Interp.ofRun outside budget run).executeChilds handler caller) _ :=
    does_childs runs handler caller
  have content := childs.inside.declare outside.dcl
    "error_message".toList exception.what
  unfold handle Prog.when
  cases exception.cls == .app with
  | false => exact content
  | true => exact content.declare outside.dcl _ _

theorem does_tagTry :
    Does call budget
      (TagTry.execute (Interp.ofRun outside budget run) self caller)
      (tagTry outside.dcl self caller) := by
  apply Performs.rescue After.trans
  · exact Performs.capture After.trans (does_childs runs self caller) emits
  · intro exception isStd
    rw [if_pos isStd]
    cases self.getChild "catch".toList with
    | none => exact throws exception
    | some handler =>
        simp only
        generalize handler.tag.kind = kind
        cases kind with
        | «catch» => exact does_handle runs handler exception
        | _ => exact Realizes.stuck _
  · intro exception other
    rw [if_neg (by simp [other])]

omit runs in
theorem does_throwWith (message : Str) :
    Does call budget
      (do
        let code ← (Interp.ofRun outside budget run).getParameter self "code"
        if code.isEmpty then Prog.throw (.dbp message)
        else Prog.throw (.app message (← M.int outside.dcl code)))
      (throwWith expressions self message) := by
  apply Does.compute (readsParameter self "code")
  intro code
  split
  · exact throws _
  · unfold M.int
    cases outside.dcl.fromStringInt code with
    | none => exact throws _
    | some code => exact throws _

theorem does_tagThrow :
    Does call budget
      (TagThrow.execute (Interp.ofRun outside budget run) self caller)
      (tagThrow expressions self caller) := by
  apply Does.compute (readsParameter self "message")
  intro parameter
  unfold TagThrow.message
  split
  · apply Performs.capture After.trans (does_childs runs self caller)
    exact does_throwWith
  · exact does_throwWith parameter

theorem does_tagCase :
    Does call budget
      (TagCase.execute (Interp.ofRun outside budget run) self caller)
      (tagCase expressions self caller) := by
  apply Does.compute (readsParameter self "match")
  intro pattern
  apply Does.compute (readsVariable switchVar)
  intro tested
  unfold Prog.when
  split
  · exact Performs.seq After.trans (does_childs runs self caller) (throws _)
  · exact emits []

theorem does_tagSwitch :
    Does call budget
      (TagSwitch.execute (Interp.ofRun outside budget run) self caller)
      (tagSwitch expressions self caller) := by
  apply Does.withLayer
  apply DoesInside.ignore
  apply DoesInside.compute (readsParameter self "test")
  intro tested
  exact (does_childs runs self caller).inside.declare outside.dcl switchVar
    tested

theorem does_tagWhile :
    Does call budget
      (TagWhile.execute (Interp.ofRun outside budget run) self caller)
      (tagWhile expressions self caller) :=
  Performs.loop After.refl After.trans (readsParameter self "test")
    (does_childs runs self caller)

omit runs in
/-- The arguments of a call, before a body inside the layer. -/
theorem does_arguments {body : M W Unit} {stmt : Statement}
    (does : DoesInside call budget body stmt) (params : List (Str × Str)) :
    DoesInside call budget
      (bindArguments (Interp.ofRun outside budget run) self params >>=
        fun _ => body)
      (arguments expressions stmt params) := by
  unfold bindArguments
  induction params with
  | nil => exact does
  | cons param params induction =>
      rw [Prog.forEach, arguments]
      simp only [Prog.bind_assoc]
      apply DoesInside.compute (readsParam self param.2)
      intro value
      exact induction.declare outside.dcl param.1 value

/-- A definition that was found, or the exception for one that was not. -/
theorem does_invokeFound (name : Str) (found : Option Loc) :
    Does call budget
      (match found with
        | some definition =>
            DbPager.invoke (Interp.ofRun outside budget run) self definition
        | none =>
            Prog.throw
              (undefinedTag (Interp.ofRun outside budget run) name) : M W Unit)
      (invokeFound outside.dcl self name found) := by
  cases found with
  | none => exact throws _
  | some definition => exact Does.invoke (runs definition (some self))

theorem does_tagUsr :
    Does call budget (TagUsr.execute (Interp.ofRun outside budget run) self)
      (tagUsr expressions self) := by
  apply Does.withLayer
  apply does_arguments
  exact (does_invokeFound runs self.tag.getName (TagUsr.target self)).inside

theorem does_tagCall :
    Does call budget (TagCall.execute (Interp.ofRun outside budget run) self)
      (tagCall expressions self) := by
  apply Does.compute (readsParameter self "name")
  intro name
  apply Does.withLayer
  apply does_arguments
  exact (does_invokeFound runs name (findTag name self.up)).inside

/-- What is rendered for a call, with the call pushed back at the end. -/
theorem does_tagExecute :
    Does call budget
      (TagExecute.execute (Interp.ofRun outside budget run) self)
      (tagExecute expressions self) := by
  apply Does.read
  intro exec
  apply Does.record
  apply Does.slot
  intro loc
  apply DoesBack.compute (readsParameter self "name")
  intro name
  split
  · apply DoesBack.record
    exact (does_childs runs loc (some self)).back (pushes_record loc .rendered)
  · cases loc.getChild ('@' :: name) with
    | none => exact (pushes_push loc).back
    | some slot =>
        apply DoesBack.record
        exact (runs slot (some loc)).back (pushes_record loc .rendered)

theorem does_tagTag :
    Does call budget
      (TagTag.execute (Interp.ofRun outside budget run) self caller)
      (tagTag self caller) := by
  cases caller with
  | none => exact emits []
  | some tag =>
      unfold TagTag.execute tagTag
      simp only
      split
      · exact does_childs runs self (some tag)
      · exact emits []

omit runs in
theorem does_attr (param : Str × Str) :
    Does call budget
      (TagUnknown.writeParam (Interp.ofRun outside budget run) self param)
      (attr expressions self param) := by
  unfold TagUnknown.writeParam attr Prog.when
  split
  · exact emits []
  · split
    · apply Does.compute (readsParam self param.2)
      intro value
      cases value.isEmpty with
      | true => exact emits []
      | false => exact emits _
    · split
      · exact emits []
      · apply Does.compute (readsParam self param.2)
        intro value
        cases value.isEmpty with
        | true => exact emits []
        | false => exact emits _

theorem does_element :
    Does call budget
      (TagUnknown.realExecute (Interp.ofRun outside budget run) self caller)
      (element expressions self caller) := by
  apply Performs.seq After.trans (emits _)
  apply Performs.each After.trans
  · exact fun param _ => does_attr param
  · apply Performs.capture After.trans (does_childs runs self caller)
    exact fun data => emits _

theorem does_tagUnknown :
    Does call budget
      (TagUnknown.execute (Interp.ofRun outside budget run) self caller)
      (tagUnknown expressions self caller) := by
  apply Does.compute (readsVariable htmlFirst)
  intro root
  split
  · apply Does.withLayer
    apply DoesInside.declare
    apply Does.inside
    exact Performs.capture After.trans (does_element runs) fun _ => emits _
  · exact does_element runs

omit runs in
theorem does_tagCdata :
    Does call budget (TagCdata.execute self : M W Unit) (tagCdata self) := by
  apply Does.compute (readsVariable htmlFirst)
  intro root
  split
  · exact emits _
  · exact emits _

omit runs in
theorem does_tagExpression :
    Does call budget
      (TagExpression.execute (Interp.ofRun outside budget run) self)
      (tagExpression expressions self) := by
  refine Does.compute ?_ emits
  intro state scene shown result same
  exact expressions.computed same
    (Evaluator.executeFunction outside run (self.tag :: self.up)) state
    shown.shown

/-! ## `dbp:split` -/

theorem does_cycle (name : Str) (fragments : List Str) :
    Does call budget
      (TagSplit.cycle (Interp.ofRun outside budget run) self caller name
        fragments)
      (cycle outside.dcl self caller name fragments) := by
  apply Performs.forEach After.refl After.trans
  intro fragment _
  exact Performs.seq After.trans (Does.assign outside.dcl name fragment)
    (does_childs runs self caller)

omit runs in
theorem does_spread {after : Str × List Str → M W Unit}
    {rest : Str → List Str → Statement}
    (does : ∀ last fragments,
      DoesInside call budget (after (last, fragments)) (rest last fragments))
    (last : Str) (names fragments : List Str) :
    DoesInside call budget
      (TagSplit.bindNames (Interp.ofRun outside budget run) last names
        fragments >>= after)
      (spread rest last names fragments) := by
  induction names generalizing last fragments with
  | nil => exact does last fragments
  | cons name names induction =>
      cases fragments with
      | nil => exact does last []
      | cons fragment fragments =>
          rw [TagSplit.bindNames, spread, Prog.bind_assoc]
          exact (induction name fragments).declare outside.dcl name fragment

theorem does_append (sep last : Str) (rest : List Str) :
    Does call budget
      (do
        Prog.when (!rest.isEmpty) do
          let value ← M.getValue last
          M.setValue outside.dcl last
            (rest.foldl (fun value fragment => value ++ sep ++ fragment) value)
        (Interp.ofRun outside budget run).executeChilds self caller)
      (append outside.dcl self caller sep last rest) := by
  have content : Does call budget
      ((Interp.ofRun outside budget run).executeChilds self caller) _ :=
    does_childs runs self caller
  unfold append Prog.when
  cases rest with
  | nil => exact content
  | cons fragment rest =>
      simp only [List.isEmpty_cons, Bool.not_false, if_true, Prog.bind_assoc,
        Bool.false_eq_true, if_false]
      apply Does.compute (readsVariable last)
      intro value
      exact Performs.seq After.trans (Does.assign outside.dcl last _) content

theorem does_splitBody (sep : Str) (fragments : List Str) :
    DoesInside call budget
      (TagSplit.body (Interp.ofRun outside budget run) self caller sep
        fragments)
      (splitBody expressions self caller sep fragments) := by
  apply DoesInside.compute (readsParameter self "name")
  intro text
  have same : (Interp.ofRun outside budget run).dcl = outside.dcl := rfl
  simp only [same]
  generalize outside.dcl.tokenize text ",".toList = names
  rcases names with _ | ⟨name, _ | ⟨second, names⟩⟩
  · exact (throws _).inside
  · apply DoesInside.declare
    apply DoesInside.compute (readsParameter self "order")
    intro order
    apply Does.inside
    split
    · exact does_cycle runs name fragments
    · split
      · exact does_cycle runs name fragments.reverse
      · exact throws _
  · apply does_spread
    exact fun last rest => (does_append runs sep last rest).inside

omit runs in
theorem quiet_ne_error (expr : Expr Str Char Exc) (vars : Variables)
    (exception : Exc) : quiet expr vars ≠ some (.error exception) := by
  intro same
  unfold quiet at same
  split at same
  next => cases same
  next other => exact other exception same

omit runs in
theorem quiet_eq_ok {expr : Expr Str Char Exc} {vars : Variables}
    {value : Str} (same : quiet expr vars = some (.ok value)) :
    expr vars = some (.ok value) := by
  unfold quiet at same
  split at same
  next => cases same
  next => exact same

omit runs in
/-- The tag is a layer around its body, once its first parameters are read. -/
theorem split_eq {state : St W} {sep : Str} {fragments : List Str}
    (read : TagSplit.source (Interp.ofRun outside budget run) self
      (state.withLayer ∅) = ⟨state.withLayer ∅, [], .value (sep, fragments)⟩) :
    TagSplit.execute (Interp.ofRun outside budget run) self caller state =
      M.withLayer (TagSplit.body (Interp.ofRun outside budget run) self caller
        sep fragments) state := by
  have entered : M.enter state = ⟨state.withLayer ∅, [], .value ()⟩ := rfl
  have left : (M.leave >>= fun _ => pure () : M W Unit) = M.leave :=
    Prog.bind_pure _
  unfold TagSplit.execute M.withLayer
  rw [Prog.bind_silent entered, Prog.bind_silent (Prog.onError_eq read _),
    Prog.bind_silent entered]
  exact congrArg (fun leave => (Prog.onError _ M.leave >>= fun _ => leave) _)
    left.symm

theorem does_tagSplit :
    Does call budget
      (TagSplit.execute (Interp.ofRun outside budget run) self caller)
      (tagSplit expressions self caller) := by
  intro state scene shown
  have inside := shown.entered.presents
  have reads (name : String) : Reads Presents
      ((Interp.ofRun outside budget run).getParameter self name)
      (param expressions self name) := readsParameter self name
  rw [tagSplit, eval, withValue]
  split
  next => exact .stuck
  next exception same => exact absurd same (quiet_ne_error _ _ exception)
  next parameter same =>
      have first := reads "separator" _ _ inside _ (quiet_eq_ok same)
      rw [eval, withValue]
      split
      next => exact .stuck
      next exception same => exact absurd same (quiet_ne_error _ _ exception)
      next value same =>
          have second := reads "value" _ _ inside _ (quiet_eq_ok same)
          cases cut : splitFrom outside.dcl
              (if parameter.isEmpty then ",".toList else parameter) value
              (value.length + 1) 0 with
          | none =>
              simp only [cut]
              exact .stuck
          | some fragments =>
              have sourced : TagSplit.source (Interp.ofRun outside budget run)
                  self (state.withLayer ∅) = ⟨state.withLayer ∅, [],
                    .value (if parameter.isEmpty then ",".toList
                      else parameter, fragments)⟩ := by
                unfold TagSplit.source
                rw [Prog.bind_silent first, Prog.bind_silent second]
                have same : (Interp.ofRun outside budget run).dcl =
                  outside.dcl := rfl
                simp only [same, cut]
                rfl
              rw [split_eq sourced]
              simp only [cut]
              exact Does.withLayer (does_splitBody runs _ fragments) state scene
                shown

/-! ## Every tag -/

/-- Every class of tags does what its meaning says, if the calls do. -/
theorem does_dispatch :
    Does call budget (dispatch (Interp.ofRun outside budget run) self caller)
      (meaning expressions (self, caller)) := by
  unfold dispatch meaning
  simp only
  generalize known : self.tag.kind = kind
  cases kind with
  | expression => exact does_tagExpression
  | cdata => exact does_tagCdata
  | unknown name => exact does_tagUnknown runs
  | usr name userTag => exact does_tagUsr runs
  | userFunction name => exact does_tagUsr runs
  | module => exact does_childs runs self caller
  | «include» => exact does_childs runs self caller
  | var => exact does_tagVar runs
  | set => exact does_tagSet runs
  | «try» => exact does_tagTry runs
  | «catch» => exact emits []
  | throw => exact does_tagThrow runs
  | case => exact does_tagCase runs
  | switch => exact does_tagSwitch runs
  | «while» => exact does_tagWhile runs
  | split => exact does_tagSplit runs
  | tag name => exact does_tagTag runs
  | call => exact does_tagCall runs
  | execute => exact does_tagExecute runs
  | _ => exact Realizes.stuck _

end Tags

/-- A virtual call does what the procedure does, at every depth. -/
theorem does_execute (expressions : Expressions outside) (depth : Nat)
    (self : Loc) (caller : Option Loc) :
    Does (Language.run (meaning expressions) depth) depth
      (DbPager.execute outside depth self caller) (.invoke (self, caller)) := by
  induction depth generalizing self caller with
  | zero => exact fun _ _ _ => .timeout
  | succ depth induction =>
      intro state scene shown
      have does : Does (Language.run (meaning expressions) depth) depth
          (dispatch (Interp.ofRun outside depth (DbPager.execute outside depth))
            self caller) (meaning expressions (self, caller)) :=
        does_dispatch induction
      exact does state scene shown

end Semantics

end DbPager
