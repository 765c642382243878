import DbPager.Layers
import DbPager.Library.Output

/-!
# Output and exceptions

`dbp:try` writes the output of its body when the body has completed, and
otherwise hands the exception to the child called `catch`.  The statements
say when this makes the output all or nothing.
-/

namespace DbPager

open Effect

variable {W : Type}

/-- A `find?` for a property agrees with the one for a weaker property whose
result has the stronger one. -/
theorem find?_of_imp {α : Type} {weak strong : α → Bool} {items : List α}
    {found : α} (implies : ∀ item, strong item = true → weak item = true)
    (search : items.find? weak = some found) (holds : strong found = true) :
    items.find? strong = some found := by
  obtain ⟨_, before, after, rfl, earlier⟩ :=
    List.find?_eq_some_iff_append.mp search
  apply List.find?_eq_some_iff_append.mpr
  refine ⟨holds, before, after, rfl, ?_⟩
  intro item member
  have unnamed := earlier item member
  cases unmatched : strong item with
  | false => rfl
  | true =>
      rw [implies item unmatched] at unnamed
      exact unnamed

/-- The class is `tag_catch`. -/
def Kind.isCatch : Kind → Bool
  | «catch» => true
  | _ => false

theorem Kind.eq_of_isCatch {kind : Kind} (isCatch : kind.isCatch = true) :
    kind = .catch := by
  cases kind <;> first | rfl | cases isCatch

namespace TagTry

def catchName : Str := "catch".toList

/-- The first `dbp:catch` among the children. -/
def firstCatch (self : Loc) : Option Loc :=
  (self.tag.childs.find? fun tag => tag.kind.isCatch).map self.child

theorem named_of_isCatch (tag : Tag) (isCatch : tag.kind.isCatch = true) :
    (tag.getName == catchName) = true := by
  unfold Tag.getName
  rw [Kind.eq_of_isCatch isCatch]
  rfl

theorem firstCatch_of_getChild {self handler : Loc}
    (found : self.getChild catchName = some handler)
    (isCatch : handler.tag.kind.isCatch = true) :
    firstCatch self = some handler := by
  obtain ⟨tag, search, rfl⟩ := Option.map_eq_some_iff.mp found
  have first := find?_of_imp named_of_isCatch search isCatch
  unfold firstCatch
  rw [first]
  rfl

theorem getChild_of_firstCatch {self handler : Loc}
    (found : firstCatch self = some handler) :
    ∃ child, self.getChild catchName = some child := by
  obtain ⟨tag, search, rfl⟩ := Option.map_eq_some_iff.mp found
  have isCatch : tag.kind.isCatch = true := (List.find?_eq_some_iff_append.mp
    search).1
  have named := named_of_isCatch tag isCatch
  have present : (self.tag.childs.find?
      fun tag => tag.getName == catchName).isSome := by
    apply List.find?_isSome.mpr
    exact ⟨tag, List.mem_of_find?_eq_some search, named⟩
  obtain ⟨child, first⟩ := Option.isSome_iff_exists.mp present
  exact ⟨self.child child, by rw [Loc.getChild, first]; rfl⟩

/-- The code of an exception that has one. -/
def codeLayer (dcl : Dcl) (exception : Exc) : Vars :=
  if exception.cls == .app then
    (∅ : Vars).insert "ERROR_CODE".toList (dcl.toStringInt exception.code)
  else ∅

/-- The variables a `dbp:catch` is executed with. -/
def errorLayer (dcl : Dcl) (exception : Exc) : Vars :=
  (codeLayer dcl exception).insert "ERROR_MESSAGE".toList exception.what

/-- The body of a `dbp:catch`, executed with these variables, ends normally
with the given output. -/
structure Handles (interp : Interp W) (handler : Loc) (caller : Option Loc)
    (exception : Exc) (middle final : St W) (text : Str) : Prop where
  ran : interp.executeChilds handler caller
      (middle.withLayer (errorLayer interp.dcl exception)) =
    ⟨final, text, .value ()⟩
  layered : final.Layered

/-- A `dbp:catch` ends as its body does. -/
theorem processException_finished {interp : Interp W} {handler : Loc}
    {caller : Option Loc} {exception : Exc} {middle final : St W} {text : Str}
    {outcome : Outcome Exc Unit} (chain : middle.contexts ≠ [])
    (ran : interp.executeChilds handler caller
      (middle.withLayer (errorLayer interp.dcl exception)) =
        ⟨final, text, outcome⟩)
    (finished : outcome.Finished) (layered : final.Layered) :
    TagCatch.processException interp handler exception caller middle =
      ⟨final.dropLayer, text, outcome⟩ := by
  have code : Prog.when (exception.cls == .app)
      (M.addValue interp.dcl "error_code".toList
        (interp.dcl.toStringInt exception.code)) (middle.withLayer ∅) =
        ⟨middle.withLayer (codeLayer interp.dcl exception), [],
          .value ()⟩ := by
    unfold codeLayer
    cases app : exception.cls == .app with
    | false => rfl
    | true => exact M.addValue_withLayer interp.dcl _ _ ∅ chain rfl
  have message : M.addValue interp.dcl "error_message".toList exception.what
      (middle.withLayer (codeLayer interp.dcl exception)) =
        ⟨middle.withLayer (errorLayer interp.dcl exception), [], .value ()⟩ :=
    M.addValue_withLayer interp.dcl _ _ _ chain rfl
  apply M.withLayer_finished _ finished layered
  rw [Prog.bind_silent code, Prog.bind_silent message]
  exact ran

theorem processException_eq {interp : Interp W} {handler : Loc}
    {caller : Option Loc} {exception : Exc} {middle final : St W} {text : Str}
    (chain : middle.contexts ≠ [])
    (handles : Handles interp handler caller exception middle final text) :
    TagCatch.processException interp handler exception caller middle =
      ⟨final.dropLayer, text, .value ()⟩ :=
  processException_finished chain handles.ran trivial handles.layered

section Runs

variable {interp : Interp W} {self : Loc} {caller : Option Loc}
  {state middle : St W} {out : Str} {exception : Exc}

theorem execute_completed {final : St W}
    (ran : interp.executeChilds self caller state = ⟨final, out, .value ()⟩) :
    execute interp self caller state = ⟨final, out, .value ()⟩ := by
  unfold execute
  apply Prog.tryCatch_eq
  rw [Prog.bind_silent (Prog.capture_eq ran)]
  rfl

/-- The body is replaced by the handler, and what it has written is lost. -/
theorem execute_raised
    (ran : interp.executeChilds self caller state =
      ⟨middle, out, .error exception⟩) (isStd : exception.isStd = true) :
    execute interp self caller state =
      (match self.getChild catchName with
      | none => Prog.throw exception
      | some handler =>
          match handler.tag.kind with
          | .catch =>
              TagCatch.processException interp handler exception caller
          | _ => Prog.halt .fault) middle := by
  have body : (do
      let out ← (interp.executeChilds self caller).capture
      Prog.emit out : M W Unit) state = ⟨middle, [], .error exception⟩ :=
    Prog.bind_error (Prog.capture_error ran) _
  unfold execute
  rw [Prog.tryCatch_error body, if_pos isStd]
  rfl

end Runs

/-- The output of a `dbp:try` is all or nothing: the whole output of a body
that completes; the output of the first `dbp:catch` alone, executed with the
variables for the exception, if the body raises one and the `dbp:catch`
completes; and nothing, with the same exception, if there is no
`dbp:catch`. -/
structure AllOrNothing (interp : Interp W) (loc : Loc) (caller : Option Loc)
    (state : St W) (run : Run (St W) Exc Char Unit) : Prop where
  completed : ∀ final out,
    interp.executeChilds loc caller state = ⟨final, out, .value ()⟩ →
    run = ⟨final, out, .value ()⟩
  caught : ∀ middle out exception handler final text,
    interp.executeChilds loc caller state = ⟨middle, out, .error exception⟩ →
    exception.isStd = true → firstCatch loc = some handler →
    Handles interp handler caller exception middle final text →
    run = ⟨final.dropLayer, text, .value ()⟩
  uncaught : ∀ middle out exception,
    interp.executeChilds loc caller state = ⟨middle, out, .error exception⟩ →
    exception.isStd = true → firstCatch loc = none →
    run = ⟨middle, [], .error exception⟩

/-- The body raises, and the first child called `catch` is not a
`dbp:catch`, while there is none or the first one would complete. -/
def MisledBy (interp : Interp W) (self : Loc) (caller : Option Loc)
    (state : St W) (other : Loc) : Prop :=
  self.getChild catchName = some other ∧ other.tag.kind.isCatch = false ∧
    ∃ middle out exception,
      interp.executeChilds self caller state =
        ⟨middle, out, .error exception⟩ ∧
      exception.isStd = true ∧
      ∀ handler, firstCatch self = some handler → ∃ final text,
        Handles interp handler caller exception middle final text

theorem execute_misled {interp : Interp W} {self other : Loc}
    {caller : Option Loc} {state middle : St W} {out : Str} {exception : Exc}
    (ran : interp.executeChilds self caller state =
      ⟨middle, out, .error exception⟩) (isStd : exception.isStd = true)
    (found : self.getChild catchName = some other)
    (wrong : other.tag.kind.isCatch = false) :
    execute interp self caller state = ⟨middle, [], .halt .fault⟩ := by
  rw [execute_raised ran isStd, found]
  cases kind : other.tag.kind
  case «catch» =>
    rw [kind] at wrong
    cases wrong
  all_goals
    simp only [kind]
    rfl

/-- The number of contexts is the same after every execution. -/
theorem contexts_kept (outside : Outside W) (depth : Nat) {loc : Loc}
    {caller : Option Loc} {state middle : St W} {out : Str} {exception : Exc}
    (isLocal : Layers.HeadLocal state)
    (ran : (Interp.ofRun outside depth
      (DbPager.execute outside depth)).executeChilds loc caller state =
        ⟨middle, out, .error exception⟩) : middle.contexts ≠ [] := by
  have keeps := (serves_of_run (Layers.execute_keeps outside depth) loc
    caller : Serves _ (Interp.ofRun outside depth _) loc caller).childs state
  rw [ran] at keeps
  have types := (keeps isLocal).1
  intro missing
  rw [missing] at types
  have before : state.contexts = [] := by
    simpa using types
  rw [Layers.HeadLocal, before] at isLocal
  cases isLocal

/-- The output of a `dbp:try` in a script is all or nothing exactly when the
search for its `dbp:catch` is not misled by another child of that name. -/
theorem try_all_or_nothing (outside : Outside W) (depth : Nat) (self : Loc)
    (isTry : self.tag.kind = .try) (caller : Option Loc) (state : St W)
    (isLocal : state.contexts.head?.map Context.type =
      some Context.localType) :
    AllOrNothing (Interp.ofRun outside depth (DbPager.execute outside depth))
        self caller state
        (DbPager.execute outside (depth + 1) self caller state) ↔
      ¬ ∃ other, MisledBy
        (Interp.ofRun outside depth (DbPager.execute outside depth)) self
        caller state other := by
  have dispatched : DbPager.execute outside (depth + 1) self caller state =
      execute (Interp.ofRun outside depth (DbPager.execute outside depth)) self
        caller state := by
    rw [DbPager.execute, dispatch, isTry]
  rw [dispatched]
  constructor
  · rintro whole ⟨other, found, wrong, middle, out, exception, ran, isStd,
      completes⟩
    have misled := execute_misled ran isStd found wrong
    cases first : firstCatch self with
    | none =>
        have propagated := whole.uncaught middle out exception ran isStd first
        rw [misled] at propagated
        injection propagated with _ _ outcome
        cases outcome
    | some handler =>
        obtain ⟨final, text, handles⟩ := completes handler first
        have handled := whole.caught middle out exception handler final text ran
          isStd first handles
        rw [misled] at handled
        injection handled with _ _ outcome
        cases outcome
  · intro straight
    -- With the first child called `catch` goes the first `dbp:catch`.
    have isCatch {other : Loc} {middle : St W} {out : Str} {exception : Exc}
        (found : self.getChild catchName = some other)
        (ran : (Interp.ofRun outside depth
          (DbPager.execute outside depth)).executeChilds self caller state =
            ⟨middle, out, .error exception⟩) (isStd : exception.isStd = true)
        (completes : ∀ handler, firstCatch self = some handler → ∃ final text,
          Handles (Interp.ofRun outside depth (DbPager.execute outside depth))
            handler caller exception middle final text) :
        other.tag.kind.isCatch = true := by
      cases wrong : other.tag.kind.isCatch with
      | true => rfl
      | false =>
          exact absurd ⟨other, found, wrong, middle, out, exception, ran, isStd,
            completes⟩ straight
    refine ⟨?_, ?_, ?_⟩
    · intro final out ran
      exact execute_completed ran
    · intro middle out exception handler final text ran isStd first handles
      obtain ⟨other, found⟩ := getChild_of_firstCatch first
      have right := isCatch found ran isStd (by
        intro listed same
        rw [first] at same
        cases same
        exact ⟨final, text, handles⟩)
      have same := firstCatch_of_getChild found right
      rw [first] at same
      cases same
      rw [execute_raised ran isStd, found]
      simp only [Kind.eq_of_isCatch right]
      exact processException_eq (contexts_kept outside depth isLocal ran) handles
    · intro middle out exception ran isStd first
      have absent : self.getChild catchName = none := by
        cases found : self.getChild catchName with
        | none => rfl
        | some other =>
            have right := isCatch found ran isStd (by
              intro handler same
              rw [first] at same
              cases same)
            rw [firstCatch_of_getChild found right] at first
            cases first
      rw [execute_raised ran isStd, absent]
      rfl

/-- A `dbp:try` whose body writes and then raises, with the given last
child. -/
def raisingTry (last : Tag) : Loc :=
  ⟨.mk 1 .try []
    [.mk 2 .expression [] [] "a".toList,
      .mk 3 .throw [("message".toList, "x".toList)] [] [], last] [], []⟩

theorem try_all_or_nothing_caught :
    AllOrNothing (Interp.ofRun Outside.plain 3 (DbPager.execute Outside.plain 3))
      (raisingTry (.mk 4 .catch [] [] "b".toList)) none
      (St.fresh [Context.newLocal])
      (DbPager.execute Outside.plain 4
        (raisingTry (.mk 4 .catch [] [] "b".toList)) none
        (St.fresh [Context.newLocal])) := by
  apply (try_all_or_nothing Outside.plain 3 _ rfl none _ rfl).mpr
  rintro ⟨other, found, wrong, -⟩
  have first : some ((raisingTry (.mk 4 .catch [] [] "b".toList)).child
      (.mk 4 .catch [] [] "b".toList)) = some other := found
  cases first
  cases wrong

theorem catchName_plain : catchName.head? ≠ some '@' :=
  head_ne_at (by decide)

/-- An HTML element called `catch`. -/
def catchElement : Tag :=
  .mk 4 (.unknown ⟨catchName, catchName_plain⟩) [] [] []

/-- The element is taken for the handler. -/
theorem try_element_called_catch :
    ¬ AllOrNothing
      (Interp.ofRun Outside.plain 3 (DbPager.execute Outside.plain 3))
      (raisingTry catchElement) none (St.fresh [Context.newLocal])
      (DbPager.execute Outside.plain 4
        (raisingTry catchElement) none (St.fresh [Context.newLocal])) := by
  intro whole
  have raised := whole.uncaught _ _ (.dbp "x".toList) rfl rfl rfl
  have outcome := congrArg Run.outcome raised
  have fault : (Outcome.halt Halt.fault : Outcome Exc Unit) =
      .error (.dbp "x".toList) := outcome
  cases fault

end TagTry

end DbPager
