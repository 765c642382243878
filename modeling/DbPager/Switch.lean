import DbPager.Assignment
import DbPager.Layers
import DbPager.Library.Output

/-!
# The selection of a case

`dbp:switch` binds the tested value to a variable of its layer, and a
`dbp:case` that matches leaves the children of the switch by an exception.
The statements compare this with the selection of the first matching case.
-/

namespace DbPager

open Effect

variable {W : Type}

/-- The class is `tag_case`. -/
def Kind.isCase : Kind → Bool
  | case => true
  | _ => false

theorem Kind.eq_of_isCase {kind : Kind} (isCase : kind.isCase = true) :
    kind = .case := by
  cases kind <;> first | rfl | cases isCase

/-- The outcome is not the jump out of a case. -/
def NoJump {α : Type} (outcome : Outcome Exc α) : Prop :=
  ∀ exception, outcome = .error exception → exception.cls ≠ .tagCase

/-- Whether a case with the given pattern is taken for the tested value. -/
def caseMatches (tested pattern : Str) : Bool :=
  pattern.isEmpty || tested == pattern

/-- What a layer does depends only on the run of its body. -/
theorem M.withLayer_congr {α : Type} {first second : M W α} {state : St W}
    (same : first (state.withLayer ∅) = second (state.withLayer ∅)) :
    M.withLayer first state = M.withLayer second state := by
  have entered : M.enter state = ⟨state.withLayer ∅, [], .value ()⟩ := rfl
  unfold M.withLayer
  rw [Prog.bind_silent entered, Prog.bind_silent entered]
  exact Prog.bind_congr (Prog.tryCatch_congr same _) _

namespace TagSwitch

section Selection

-- `outer` executes the children of the switch, `inner` the parameters and the
-- children of its cases.
variable (outer inner : Interp W) (self : Loc) (caller : Option Loc)

/-- The children in order, up to and including the first case that matches
the tested value; the text of the switch if there is none. -/
def firstMatch (tested : Str) : List Tag → M W Unit
  | [] => Prog.emit self.tag.text
  | child :: rest =>
      if child.kind.isCase then do
        let pattern ← inner.getParameter (self.child child) "match"
        if caseMatches tested pattern then
          inner.executeChilds (self.child child) caller
        else firstMatch tested rest
      else do
        outer.run (self.child child) caller
        firstMatch tested rest

/-- The tested value, bound in the layer of the switch, and the selection for
it. -/
def selection : M W Unit := do
  let tested ← outer.getParameter self "test"
  M.addValue outer.dcl switchVar tested
  firstMatch outer inner self caller tested self.tag.childs

/-- From the given state on, the cases that are compared find the tested
value in the variable, and nothing but a matching case of the switch itself
jumps. -/
def Undisturbed (tested : Str) : List Tag → St W → Prop
  | [], _ => True
  | child :: rest, state =>
      if child.kind.isCase then
        NoJump (inner.getParameter (self.child child) "match" state).outcome ∧
        ∀ middle out pattern,
          inner.getParameter (self.child child) "match" state =
            ⟨middle, out, .value pattern⟩ →
          Chain.getValue switchVar middle.contexts = tested ∧
          if caseMatches tested pattern then
            NoJump
              (inner.executeChilds (self.child child) caller middle).outcome
          else Undisturbed tested rest middle
      else
        NoJump (outer.run (self.child child) caller state).outcome ∧
        ∀ middle out,
          outer.run (self.child child) caller state =
            ⟨middle, out, .value ()⟩ →
          Undisturbed tested rest middle

end Selection

/-- What `tag_switch` does inside its `try` block. -/
def body (interp : Interp W) (self : Loc) (caller : Option Loc) :
    M W Unit := do
  M.addValue interp.dcl switchVar (← interp.getParameter self "test")
  interp.executeChilds self caller

/-- The handler of `tag_switch`. -/
def caught (exception : Exc) : M W Unit :=
  if exception.cls == .tagCase then pure () else Prog.throw exception

theorem tryCatch_noJump {body : M W Unit} {state : St W}
    (quiet : NoJump (body state).outcome) :
    body.tryCatch caught state = body state := by
  cases ran : body state with
  | mk final out outcome =>
      cases outcome with
      | value result => exact Prog.tryCatch_eq ran _
      | error exception =>
          have other : (exception.cls == .tagCase) = false := by
            apply beq_eq_false_iff_ne.mpr
            exact quiet exception (by rw [ran])
          rw [Prog.tryCatch_error ran]
          unfold caught
          rw [other]
          simp [Prog.throw]
      | halt reason => exact Prog.tryCatch_halt ran _

/-- A body that ends with the jump ends the switch normally. -/
theorem tryCatch_jump (body : M W Unit) (state : St W)
    (quiet : NoJump (body state).outcome) :
    (body >>= fun _ => Prog.throw .tagCase).tryCatch caught state =
      body state := by
  cases ran : body state with
  | mk final out outcome =>
      cases outcome with
      | value result =>
          have jumped := Prog.bind_eq ran fun _ =>
            (Prog.throw .tagCase : M W Unit)
          rw [Prog.tryCatch_error jumped]
          simp [caught, Exc.tagCase, pure, Prog.pure, Prog.throw]
      | error exception =>
          rw [ran] at quiet
          have raised := Prog.bind_error ran fun _ =>
            (Prog.throw .tagCase : M W Unit)
          rw [tryCatch_noJump (by rw [raised]; exact quiet), raised]
      | halt reason =>
          exact Prog.tryCatch_halt (Prog.bind_halt ran _) _

section Loop

variable {outer inner : Interp W} {self : Loc} {caller : Option Loc}
  {tested : Str}

/-- The children from the given one on, and the text. -/
def executeFrom (outer : Interp W) (self : Loc) (caller : Option Loc)
    (childs : List Tag) : M W Unit := do
  Prog.forEach (fun tag => outer.run (self.child tag) caller) childs
  Prog.emit self.tag.text

theorem executeFrom_cons (child : Tag) (rest : List Tag) :
    executeFrom outer self caller (child :: rest) =
      outer.run (self.child child) caller >>= fun _ =>
        executeFrom outer self caller rest := by
  unfold executeFrom
  rw [Prog.forEach, Prog.bind_assoc]

/-- What comes after a program that returns is caught behind its output. -/
theorem tryCatch_bind {α : Type} {first : M W α} {state middle : St W}
    {out : Str} {result : α}
    (ran : first state = ⟨middle, out, .value result⟩)
    (next : α → M W Unit) :
    (first >>= next).tryCatch caught state =
      Prog.behind out ((next result).tryCatch caught middle) :=
  Prog.tryCatch_behind (Prog.bind_eq ran next) caught

theorem noJump_bind_error {α : Type} {first : M W α} {state middle : St W}
    {out : Str} {exception : Exc}
    (ran : first state = ⟨middle, out, .error exception⟩)
    (quiet : NoJump (first state).outcome) (next : α → M W Unit) :
    (first >>= next).tryCatch caught state =
      ⟨middle, out, .error exception⟩ := by
  have raised := Prog.bind_error ran next
  rw [tryCatch_noJump, raised]
  rw [raised]
  rw [ran] at quiet
  intro other same
  cases same
  exact quiet exception rfl

theorem noJump_bind_halt {α : Type} {first : M W α} {state middle : St W}
    {out : Str} {reason : Halt}
    (ran : first state = ⟨middle, out, .halt reason⟩) (next : α → M W Unit) :
    (first >>= next).tryCatch caught state = ⟨middle, out, .halt reason⟩ :=
  Prog.tryCatch_halt (Prog.bind_halt ran next) _

/-- A case as the first of the children that are left. -/
theorem executeFrom_case {child : Tag} {rest : List Tag} {state : St W}
    (isCase : child.kind.isCase = true)
    (run : outer.run (self.child child) caller =
      TagCase.execute inner (self.child child) caller)
    (undisturbed : Undisturbed outer inner self caller tested (child :: rest)
      state)
    (later : ∀ middle,
      Undisturbed outer inner self caller tested rest middle →
      (executeFrom outer self caller rest).tryCatch caught middle =
        firstMatch outer inner self caller tested rest middle) :
    (executeFrom outer self caller (child :: rest)).tryCatch caught state =
      firstMatch outer inner self caller tested (child :: rest) state := by
  rw [executeFrom_cons, run]
  unfold Undisturbed at undisturbed
  rw [if_pos isCase] at undisturbed
  obtain ⟨quiet, matching⟩ := undisturbed
  unfold firstMatch TagCase.execute
  rw [if_pos isCase, Prog.bind_assoc]
  cases ran : inner.getParameter (self.child child) "match" state with
  | mk middle out outcome =>
      cases outcome with
      | error exception =>
          rw [noJump_bind_error ran quiet, Prog.bind_error ran]
      | halt reason => rw [noJump_bind_halt ran, Prog.bind_halt ran]
      | value pattern =>
          obtain ⟨same, body⟩ := matching middle out pattern ran
          have read := M.getValue_eq switchVar middle
          rw [same] at read
          rw [tryCatch_bind ran, Prog.bind_eq ran]
          refine congrArg (Prog.behind out) ?_
          rw [Prog.tryCatch_congr ((congrFun (Prog.bind_assoc _ _ _)
            middle).trans (Prog.bind_silent read _))]
          by_cases chosen : caseMatches tested pattern = true
          · have taken : (pattern.isEmpty || tested == pattern) = true := chosen
            rw [if_pos chosen] at body
            rw [Prog.when, if_pos taken, Prog.bind_assoc, if_pos chosen]
            exact tryCatch_jump (inner.executeChilds (self.child child) caller)
              middle body
          · have passed : (pattern.isEmpty || tested == pattern) = false :=
              Bool.eq_false_iff.mpr chosen
            rw [if_neg chosen] at body
            rw [Prog.when, passed, if_neg chosen]
            exact later middle body

/-- Under the handler of the switch, the children are executed up to the
first case that matches. -/
theorem executeFrom_eq
    (runs : ∀ child, child.kind.isCase = true →
      outer.run (self.child child) caller =
        TagCase.execute inner (self.child child) caller)
    (childs : List Tag) (state : St W)
    (undisturbed : Undisturbed outer inner self caller tested childs state) :
    (executeFrom outer self caller childs).tryCatch caught state =
      firstMatch outer inner self caller tested childs state := by
  induction childs generalizing state with
  | nil => rfl
  | cons child rest induction =>
      by_cases isCase : child.kind.isCase = true
      · exact executeFrom_case isCase (runs child isCase) undisturbed induction
      · unfold Undisturbed at undisturbed
        rw [if_neg isCase] at undisturbed
        obtain ⟨quiet, later⟩ := undisturbed
        rw [executeFrom_cons]
        unfold firstMatch
        rw [if_neg isCase]
        cases ran : outer.run (self.child child) caller state with
        | mk middle out outcome =>
            cases outcome with
            | error exception =>
                rw [noJump_bind_error ran quiet, Prog.bind_error ran]
            | halt reason => rw [noJump_bind_halt ran, Prog.bind_halt ran]
            | value result =>
                rw [tryCatch_bind ran, Prog.bind_eq ran,
                  induction middle (later middle out ran)]
                rfl

end Loop

section Switch

variable (outer inner : Interp W) (self : Loc) (caller : Option Loc)

/-- The same for the whole switch, entered in the given state. -/
def UndisturbedSwitch (state : St W) : Prop :=
  NoJump (outer.getParameter self "test" (state.withLayer ∅)).outcome ∧
  ∀ middle out tested bound,
    outer.getParameter self "test" (state.withLayer ∅) =
      ⟨middle, out, .value tested⟩ →
    M.addValue outer.dcl switchVar tested middle = ⟨bound, [], .value ()⟩ →
    Undisturbed outer inner self caller tested self.tag.childs bound

variable {outer inner self caller}

theorem addValue_noJump (dcl : Dcl) (name value : Str) (state : St W) :
    NoJump (M.addValue dcl name value state).outcome := by
  intro exception raised
  cases contexts : state.contexts with
  | nil =>
      simp only [M.addValue, M.addTyped, Prog.act, contexts, Chain.addValue]
        at raised
      cases raised
      exact ExcClass.noConfusion
  | cons context parents =>
      simp only [M.addValue, M.addTyped, Prog.act, contexts, Chain.addValue,
        List.isEmpty_nil, if_true, dcl.compare_self] at raised
      cases stack : context.stack <;> simp [stack] at raised

/-- A switch that nothing disturbs selects the first case that matches its
tested value. -/
theorem execute_eq
    (runs : ∀ child, child.kind.isCase = true →
      outer.run (self.child child) caller =
        TagCase.execute inner (self.child child) caller)
    {state : St W}
    (undisturbed : UndisturbedSwitch outer inner self caller state) :
    execute outer self caller state =
      M.withLayer (selection outer inner self caller) state := by
  obtain ⟨quiet, later⟩ := undisturbed
  apply M.withLayer_congr
  unfold selection
  cases ran : outer.getParameter self "test" (state.withLayer ∅) with
  | mk middle out outcome =>
      cases outcome with
      | error exception =>
          rw [Prog.bind_error ran]
          exact noJump_bind_error ran quiet _
      | halt reason =>
          rw [Prog.bind_halt ran]
          exact noJump_bind_halt ran _
      | value tested =>
          rw [Prog.bind_eq ran]
          refine (tryCatch_bind ran _).trans ?_
          refine congrArg (Prog.behind out) ?_
          have quietBound := addValue_noJump outer.dcl switchVar tested middle
          cases binding : M.addValue outer.dcl switchVar tested middle with
          | mk bound written outcome =>
              have silent : written = [] :=
                (congrArg Run.out binding).symm
              subst silent
              cases outcome with
              | error exception =>
                  rw [Prog.bind_error binding]
                  exact noJump_bind_error binding quietBound _
              | halt reason =>
                  rw [Prog.bind_halt binding]
                  exact noJump_bind_halt binding _
              | value result =>
                  rw [Prog.bind_silent binding]
                  refine (tryCatch_bind binding _).trans ?_
                  exact executeFrom_eq runs self.tag.childs bound
                    (later middle out tested bound ran binding)

end Switch

section Nested

theorem tryCatch_caught (body : M W Unit) (state : St W) :
    NoJump (body.tryCatch caught state).outcome := by
  cases ran : body state with
  | mk final out outcome =>
      cases outcome with
      | value result =>
          rw [Prog.tryCatch_eq ran]
          intro exception raised
          cases raised
      | halt reason =>
          rw [Prog.tryCatch_halt ran]
          intro exception raised
          cases raised
      | error raised =>
          rw [Prog.tryCatch_error ran]
          unfold caught
          by_cases jump : raised.cls = .tagCase
          · rw [if_pos (beq_iff_eq.mpr jump)]
            intro exception other
            cases other
          · rw [if_neg (mt beq_iff_eq.mp jump)]
            intro exception same
            cases same
            exact jump

theorem withLayer_noJump {body : M W Unit} {state : St W}
    (quiet : NoJump (body (state.withLayer ∅)).outcome) :
    NoJump (M.withLayer body state).outcome := by
  have entered : M.enter state = ⟨state.withLayer ∅, [], .value ()⟩ := rfl
  unfold M.withLayer
  rw [Prog.bind_silent entered]
  cases ran : body (state.withLayer ∅) with
  | mk final out outcome =>
      have calm := M.leave_raises_nothing final
      cases outcome with
      | value result =>
          rw [Prog.bind_eq (Prog.onError_eq ran M.leave)]
          cases left : M.leave final with
          | mk last written ending =>
              rw [left] at calm
              intro exception raised
              cases ending with
              | value _ =>
                  rw [Prog.bind_eq left] at raised
                  cases raised
              | halt reason =>
                  rw [Prog.bind_halt left] at raised
                  cases raised
              | error other => exact absurd rfl (calm other)
      | halt reason =>
          have halted : body.onError M.leave (state.withLayer ∅) =
              ⟨final, out, .halt reason⟩ := Prog.tryCatch_halt ran _
          rw [Prog.bind_halt halted]
          intro exception raised
          cases raised
      | error raised =>
          rw [ran] at quiet
          have handed := Prog.onError_error ran M.leave
          cases ending : (M.leave final).outcome with
          | value _ =>
              rw [ending] at handed
              rw [Prog.bind_error handed]
              intro exception same
              cases same
              exact quiet raised rfl
          | halt reason =>
              rw [ending] at handed
              rw [Prog.bind_halt handed]
              intro exception same
              cases same
          | error other => exact absurd ending (calm other)

/-- A switch never jumps out of the one around it. -/
theorem execute_noJump (interp : Interp W) (self : Loc)
    (caller : Option Loc) (state : St W) :
    NoJump (execute interp self caller state).outcome :=
  withLayer_noJump (tryCatch_caught _ _)

/-- The final state of a layer around a body that comes to an end. -/
theorem withLayer_state {body : M W Unit} {state : St W}
    (finished : (body (state.withLayer ∅)).outcome.Finished)
    (layered : (body (state.withLayer ∅)).state.Layered) :
    (M.withLayer body state).state =
      (body (state.withLayer ∅)).state.dropLayer := by
  rw [M.withLayer_finished rfl finished layered]

theorem withLayer_finished {body : M W Unit} {state : St W}
    (finished : (M.withLayer body state).outcome.Finished) :
    (body (state.withLayer ∅)).outcome.Finished := by
  have entered : M.enter state = ⟨state.withLayer ∅, [], .value ()⟩ := rfl
  cases ran : body (state.withLayer ∅) with
  | mk final out outcome =>
      cases outcome with
      | value result => trivial
      | error exception => trivial
      | halt reason =>
          have halted : body.onError M.leave (state.withLayer ∅) =
              ⟨final, out, .halt reason⟩ := Prog.tryCatch_halt ran _
          unfold M.withLayer at finished
          rw [Prog.bind_silent entered, Prog.bind_halt halted] at finished
          exact finished.elim

theorem tryCatch_caught_state (body : M W Unit) (state : St W) :
    (body.tryCatch caught state).state = (body state).state ∧
      ((body.tryCatch caught state).outcome.Finished →
        (body state).outcome.Finished) := by
  cases ran : body state with
  | mk final out outcome =>
      cases outcome with
      | value result =>
          rw [Prog.tryCatch_eq ran]
          exact ⟨rfl, id⟩
      | halt reason =>
          rw [Prog.tryCatch_halt ran]
          exact ⟨rfl, id⟩
      | error exception =>
          rw [Prog.tryCatch_error ran]
          refine ⟨?_, fun _ => trivial⟩
          unfold caught
          split <;> rfl

/-- The variable of a switch is found with the given value, in the context at
hand or, from the threads of `dbp:async`, in a local context around it. -/
inductive Found (value : Str) : List Context → Prop where
  | here {context : Context} {parents : List Context} :
      context.type = Context.localType →
      findVar switchVar context.stack = some value →
      Found value (context :: parents)
  | there {context : Context} {parents : List Context} :
      context.type = Context.localType →
      findVar switchVar context.stack = none →
      Found value parents →
      Found value (context :: parents)

namespace Found

variable {dcl : Dcl} {value : Str} {contexts changed : List Context}

theorem lookup (found : Found value contexts) :
    Chain.lookup switchVar contexts = some value := by
  have upper : upName switchVar = switchVar := rfl
  induction found with
  | here _ bound => simp [Chain.lookup, upper, bound]
  | there _ unbound _ induction => simp [Chain.lookup, upper, unbound, induction]

theorem isLocal {state : St W} (found : Found value state.contexts) :
    Layers.HeadLocal state := by
  unfold Layers.HeadLocal
  generalize state.contexts = contexts at found
  cases found with
  | here isLocal _ => exact congrArg some isLocal
  | there isLocal _ _ => exact congrArg some isLocal

/-- The head of the chain with another stack that has the same binding. -/
theorem head_congr {context : Context} {parents : List Context}
    {stack : List Vars} (found : Found value (context :: parents))
    (same : findVar switchVar stack = findVar switchVar context.stack) :
    Found value ({ context with stack } :: parents) := by
  cases found with
  | here isLocal bound => exact .here isLocal (same.trans bound)
  | there isLocal unbound further =>
      exact .there isLocal (same.trans unbound) further

theorem parents_congr {context : Context} {parents others : List Context}
    (found : Found value (context :: parents))
    (kept : Found value parents → Found value others) :
    Found value (context :: others) := by
  cases found with
  | here isLocal bound => exact .here isLocal bound
  | there isLocal unbound further => exact .there isLocal unbound (kept further)

theorem setValue_other {name assigned : Str} (found : Found value contexts)
    (other : upName name ≠ switchVar)
    (result : Chain.setValue name assigned contexts = some changed) :
    Found value changed := by
  induction contexts generalizing changed with
  | nil => cases result
  | cons context parents induction =>
      unfold Chain.setValue at result
      split at result
      · rename_i stack here
        cases result
        exact found.head_congr (findVar_assignVar here other.symm)
      · obtain ⟨later, above, rfl⟩ := Option.map_eq_some_iff.mp result
        exact found.parents_congr fun further => induction further above

theorem setValue_same {name assigned : Str} (found : Found value contexts)
    (same : upName name = switchVar)
    (result : Chain.setValue name assigned contexts = some changed) :
    Found assigned changed := by
  induction found generalizing changed with
  | @here context parents isLocal bound =>
      unfold Chain.setValue at result
      rw [same] at result
      obtain ⟨stack, here, read⟩ :=
        @assignVar_bound _ assigned _ _ bound
      rw [here] at result
      cases result
      exact .here isLocal read
  | @there context parents isLocal unbound _ induction =>
      unfold Chain.setValue at result
      rw [same, assignVar_unbound unbound] at result
      obtain ⟨later, above, rfl⟩ := Option.map_eq_some_iff.mp result
      exact .there isLocal unbound (induction above)

/-- A declaration by an explicit type passes the local contexts. -/
theorem addValue {name declared type : Str} (found : Found value contexts)
    (named : type ≠ []) (other : dcl.compare type Context.localType = false)
    (result : Chain.addValue dcl name declared type contexts =
      .value changed) : Found value changed := by
  induction found generalizing changed with
  | here isLocal bound =>
      rcases Chain.addValue_cases result with ⟨same, -⟩ |
        ⟨-, -, later, -, rfl⟩
      · rw [isLocal, other] at same
        cases same named
      · exact .here isLocal bound
  | there isLocal unbound _ induction =>
      rcases Chain.addValue_cases result with ⟨same, -⟩ |
        ⟨-, -, later, added, rfl⟩
      · rw [isLocal, other] at same
        cases same named
      · exact .there isLocal unbound (induction added)

theorem head_type {context : Context} {parents : List Context}
    (found : Found value (context :: parents)) :
    context.type = Context.localType := by
  cases found with
  | here isLocal _ => exact isLocal
  | there isLocal _ _ => exact isLocal

/-- Whatever a script does, the variable is found again. -/
theorem step (found : Found value contexts)
    (step : Layers.Step dcl contexts changed) :
    ∃ later, Found later changed := by
  cases step with
  | @assign name assigned _ _ result =>
      by_cases same : upName name = switchVar
      · exact ⟨assigned, found.setValue_same same result⟩
      · exact ⟨value, found.setValue_other same result⟩
  | declare named other added =>
      rw [found.head_type] at other
      exact ⟨value, found.parents_congr fun further =>
        further.addValue named other added⟩

theorem steps (found : Found value contexts)
    (steps : Layers.Steps dcl contexts changed) :
    ∃ later, Found later changed := by
  induction steps with
  | refl => exact ⟨value, found⟩
  | tail earlier step induction =>
      obtain ⟨middle, reached⟩ := induction
      exact reached.step step

theorem bare_iff :
    Found value (contexts.map Layers.bare) ↔ Found value contexts := by
  induction contexts with
  | nil => rfl
  | cons context parents induction =>
      constructor
      · intro found
        cases found with
        | here isLocal bound => exact .here isLocal bound
        | there isLocal unbound further =>
            exact .there isLocal unbound (induction.mp further)
      · intro found
        cases found with
        | here isLocal bound => exact .here isLocal bound
        | there isLocal unbound further =>
            exact .there isLocal unbound (induction.mpr further)

end Found

/-- Behind the innermost layer the variable is found with the given value. -/
def Behind (value : Str) (contexts : List Context) : Prop :=
  ∃ context parents top below, contexts = context :: parents ∧
    context.stack = top :: below ∧
    Found value ({ context with stack := below } :: parents)

/-- The innermost layer binds the variable as well. -/
def Shadowed (value : Str) (contexts : List Context) : Prop :=
  ∃ context parents top below, contexts = context :: parents ∧
    context.stack = top :: below ∧ (top.lookup switchVar).isSome ∧
    Found value ({ context with stack := below } :: parents)

namespace Shadowed

variable {dcl : Dcl} {value : Str} {contexts changed : List Context}

theorem step (shadowed : Shadowed value contexts)
    (step : Layers.Step dcl contexts changed) : Shadowed value changed := by
  obtain ⟨context, parents, top, below, rfl, stack, covered, behind⟩ := shadowed
  generalize chain : context :: parents = contexts at step
  cases step with
  | declare named other added =>
      cases chain
      rw [show context.type = Context.localType from behind.head_type] at other
      exact ⟨context, _, top, below, rfl, stack, covered,
        behind.parents_congr fun further => further.addValue named other added⟩
  | @assign name assigned _ _ result =>
      subst chain
      unfold Chain.setValue at result
      split at result
      · rename_i layers here
        cases result
        rw [stack] at here
        unfold assignVar at here
        split at here
        · cases here
          refine ⟨_, parents, _, below, rfl, rfl, ?_, behind⟩
          rw [lookup_replace]
          split
          · rfl
          · exact covered
        · -- The name is not bound in the innermost layer, so it is another one.
          rename_i missing
          obtain ⟨rest, deeper, rfl⟩ := Option.map_eq_some_iff.mp here
          refine ⟨_, parents, top, rest, rfl, rfl, covered, ?_⟩
          have other : switchVar ≠ upName name := by
            intro same
            rw [← same] at missing
            rw [missing] at covered
            cases covered
          exact behind.head_congr (findVar_assignVar deeper other)
      · rename_i missing
        obtain ⟨later, above, rfl⟩ := Option.map_eq_some_iff.mp result
        refine ⟨context, later, top, below, rfl, stack, covered, ?_⟩
        apply behind.parents_congr
        intro further
        apply further.setValue_other _ above
        intro same
        obtain ⟨bound, found⟩ := Option.isSome_iff_exists.mp covered
        rw [same, stack, assignVar, found] at missing
        cases missing

theorem steps (shadowed : Shadowed value contexts)
    (steps : Layers.Steps dcl contexts changed) : Shadowed value changed := by
  induction steps with
  | refl => exact shadowed
  | tail earlier step induction => exact induction.step step

theorem bare_iff :
    Shadowed value (contexts.map Layers.bare) ↔ Shadowed value contexts := by
  constructor
  · rintro ⟨context, parents, top, below, chain, stack, covered, behind⟩
    obtain ⟨first, rest, rfl, rfl, rfl⟩ := List.map_eq_cons_iff.mp chain
    refine ⟨first, rest, top, below, rfl, stack, covered, ?_⟩
    exact (@Found.bare_iff value ({ first with stack := below } :: rest)).mp
      behind
  · rintro ⟨context, parents, top, below, rfl, stack, covered, behind⟩
    refine ⟨Layers.bare context, parents.map Layers.bare, top, below, rfl,
      stack, covered, ?_⟩
    exact (@Found.bare_iff value
      ({ context with stack := below } :: parents)).mpr behind

theorem behind (shadowed : Shadowed value contexts) :
    Behind value contexts := by
  obtain ⟨context, parents, top, below, chain, stack, _, behind⟩ := shadowed
  exact ⟨context, parents, top, below, chain, stack, behind⟩

end Shadowed

theorem Behind.layered {value : Str} {state : St W}
    (behind : Behind value state.contexts) : state.Layered := by
  obtain ⟨context, parents, top, below, chain, stack, _⟩ := behind
  exact ⟨context, parents, chain, by rw [stack]; exact List.cons_ne_nil _ _⟩

theorem Behind.found {value : Str} {state : St W}
    (behind : Behind value state.contexts) :
    Found value state.dropLayer.contexts := by
  obtain ⟨context, parents, top, below, chain, stack, found⟩ := behind
  have dropped : state.dropLayer.contexts =
      { context with stack := below } :: parents := by
    simp [St.dropLayer, St.mapHead, chain, Context.dropLayer, stack]
  rw [dropped]
  exact found

theorem Found.withLayer {value : Str} {contexts : List Context}
    (found : Found value contexts) :
    Found value (Chain.withLayer ∅ contexts) := by
  cases found with
  | @here context parents isLocal bound =>
      exact (Found.here isLocal bound).head_congr rfl
  | @there context parents isLocal unbound further =>
      exact (Found.there isLocal unbound further).head_congr rfl

/-- The names of the layers stay, so the variable is found behind the empty
layer. -/
theorem behind_of_steps {dcl : Dcl} {contexts changed : List Context}
    {value old : Str} (found : Found old contexts)
    (steps : Layers.Steps dcl
      ((Chain.withLayer ∅ contexts).map Layers.bare)
      (changed.map Layers.bare))
    (kept : Chain.lookup switchVar changed = some value) :
    Behind value changed := by
  obtain ⟨held, reached⟩ := (Found.bare_iff.mpr found.withLayer).steps steps
  have reached := Found.bare_iff.mp reached
  have same : held = value :=
    Option.some.inj (reached.lookup.symm.trans kept)
  subst same
  have chain : ∃ context parents, contexts = context :: parents := by
    cases found <;> exact ⟨_, _, rfl⟩
  obtain ⟨context, parents, rfl⟩ := chain
  obtain ⟨last, lastParents, whole, names, -⟩ := steps.names rfl
  obtain ⟨first, rest, rfl, rfl, rfl⟩ := List.map_eq_cons_iff.mp whole
  have keys : first.stack.map AList.keys =
      (∅ : Vars).keys :: context.stack.map AList.keys := names.names
  obtain ⟨top, below, stack, topKeys, -⟩ := List.map_eq_cons_iff.mp keys
  have uncovered : top.lookup switchVar = none := by
    apply AList.lookup_eq_none.mpr
    rw [AList.mem_keys, topKeys, AList.keys_empty]
    exact List.not_mem_nil
  refine ⟨first, rest, top, below, rfl, stack, reached.head_congr ?_⟩
  rw [stack]
  simp only [findVar, uncovered]

/-- Binding the tested value covers the variable of the switch around. -/
theorem shadowed_addValue (dcl : Dcl) (tested : Str) {value : Str}
    {state : St W} (behind : Behind value state.contexts) :
    ∃ bound, M.addValue dcl switchVar tested state =
        ⟨bound, [], .value ()⟩ ∧ Shadowed value bound.contexts := by
  obtain ⟨context, parents, top, below, chain, stack, found⟩ := behind
  have layer : state.contexts =
      Chain.withLayer top ({ context with stack := below } :: parents) := by
    rw [chain]
    cases context
    cases stack
    rfl
  have added := M.addValue_withLayer dcl switchVar tested top
    (List.cons_ne_nil _ _) layer
  refine ⟨_, added, _, parents, _, below, rfl, rfl, ?_, found⟩
  have upper : upName switchVar = switchVar := rfl
  rw [upper, AList.lookup_insert]
  rfl

theorem addValue_frame (dcl : Dcl) (name value : Str) (state : St W) :
    (M.addValue dcl name value state).state.trace = state.trace ∧
      (M.addValue dcl name value state).state.contexts.map Context.type =
        state.contexts.map Context.type := by
  cases added : Chain.addValue dcl name value [] state.contexts with
  | value changed =>
      simp [M.addValue, M.addTyped, Prog.act, added,
        Layers.addValue_types added]
  | error exception => simp [M.addValue, M.addTyped, Prog.act, added]
  | halt reason => simp [M.addValue, M.addTyped, Prog.act, added]

section Run

variable (outside : Outside W) (depth : Nat)

/-- The children of a switch work behind the layer in which the tested value
is bound. -/
theorem childs_behind {self : Loc} {caller : Option Loc} {tested value : Str}
    {middle final : St W} {out : Str} {outcome : Outcome Exc Unit}
    (isLocal : Layers.HeadLocal middle)
    (ran : (M.addValue outside.dcl switchVar tested >>= fun _ =>
        (Interp.ofRun outside depth
          (DbPager.execute outside depth)).executeChilds self caller) middle =
      ⟨final, out, outcome⟩)
    (finished : outcome.Finished) :
    ∃ events, final.trace = events ++ middle.trace ∧
      ((¬ ∃ place, .leak place ∈ events) → Behind value middle.contexts →
        Behind value final.contexts) := by
  have serves : Serves (Layers.localContract outside.dcl)
      (Interp.ofRun outside depth (DbPager.execute outside depth)) self caller :=
    serves_of_run (Layers.execute_keeps outside depth) self caller
  obtain ⟨boundTrace, types⟩ :=
    addValue_frame outside.dcl switchVar tested middle
  cases binding : M.addValue outside.dcl switchVar tested middle with
  | mk bound silent ending =>
      rw [binding] at boundTrace types
      cases ending with
      | halt reason =>
          rw [Prog.bind_halt binding] at ran
          cases ran
          exact finished.elim
      | error exception =>
          rw [Prog.bind_error binding] at ran
          cases ran
          refine ⟨[], boundTrace, ?_⟩
          intro _ behind
          obtain ⟨_, returned, -⟩ := shadowed_addValue outside.dcl tested behind
          rw [binding] at returned
          cases returned
      | value result =>
          rw [Prog.bind_eq binding] at ran
          have boundLocal : Layers.HeadLocal bound := by
            rw [Layers.headLocal_iff] at isLocal ⊢
            rw [types, isLocal]
          have meets := serves.childs bound
          cases childs : (Interp.ofRun outside depth
              (DbPager.execute outside depth)).executeChilds self caller
              bound with
          | mk last rest ending =>
              rw [childs] at meets ran
              cases ran
              obtain ⟨-, events, trace, steps⟩ := meets.done finished boundLocal
              rw [boundTrace] at trace
              refine ⟨events, trace, ?_⟩
              intro quiet behind
              obtain ⟨_, returned, shadowed⟩ :=
                shadowed_addValue outside.dcl tested behind
              rw [binding] at returned
              cases returned
              have after := (Shadowed.bare_iff.mpr shadowed).steps
                (steps.resolve_left quiet)
              exact (Shadowed.bare_iff.mp after).behind

/-- In a run without a leak, the part of a switch inside its layer leaves the
variable of the switch around alone. -/
theorem body_behind {self : Loc} {caller : Option Loc}
    {state : St W} {value : Str} (found : Found value state.contexts)
    (kept : Chain.lookup switchVar
      ((Interp.ofRun outside depth (DbPager.execute outside depth)).getParameter
        self "test" (state.withLayer ∅)).state.contexts = some value)
    {final : St W} {out : Str} {outcome : Outcome Exc Unit}
    (ran : body (Interp.ofRun outside depth (DbPager.execute outside depth))
      self caller (state.withLayer ∅) = ⟨final, out, outcome⟩)
    (finished : outcome.Finished)
    (clean : ∀ events place, final.trace = events ++ state.trace →
      .leak place ∉ events) :
    Behind value final.contexts := by
  have unrolled : body
      (Interp.ofRun outside depth (DbPager.execute outside depth)) self caller =
      (Interp.ofRun outside depth
          (DbPager.execute outside depth)).getParameter self "test" >>=
        fun tested => M.addValue outside.dcl switchVar tested >>= fun _ =>
          (Interp.ofRun outside depth
            (DbPager.execute outside depth)).executeChilds self caller := rfl
  have layer : (state.withLayer ∅).contexts =
      Chain.withLayer ∅ state.contexts := rfl
  have inside : Found value (state.withLayer ∅).contexts := by
    rw [layer]
    exact found.withLayer
  have entered : Layers.HeadLocal (state.withLayer ∅) := inside.isLocal
  have meets := (serves_of_run (Layers.execute_keeps outside depth) self caller :
    Serves (Layers.localContract outside.dcl)
      (Interp.ofRun outside depth _) self caller).getParameter "test"
      (state.withLayer ∅)
  rw [unrolled] at ran
  cases test : (Interp.ofRun outside depth
      (DbPager.execute outside depth)).getParameter self "test"
      (state.withLayer ∅) with
  | mk middle written tested =>
      rw [test] at kept meets
      -- The leaks of the test expression are leaks of the whole body.
      have early : ∀ {later : List Event}, tested.Finished →
          final.trace = later ++ middle.trace →
          (¬ ∃ place, .leak place ∈ later) ∧ Behind value middle.contexts := by
        intro later ended after
        obtain ⟨types, events, trace, steps⟩ := meets.done ended entered
        have whole : final.trace = (later ++ events) ++ state.trace := by
          rw [after, trace, List.append_assoc]
          rfl
        have quiet : ¬ ∃ place, .leak place ∈ events := by
          rintro ⟨place, leaked⟩
          exact clean _ place whole (List.mem_append_right later leaked)
        have steps := steps.resolve_left quiet
        rw [layer] at steps
        constructor
        · rintro ⟨place, leaked⟩
          exact clean _ place whole (List.mem_append_left events leaked)
        · exact behind_of_steps found steps kept
      cases tested with
      | halt reason =>
          rw [Prog.bind_halt test] at ran
          cases ran
          exact finished.elim
      | error exception =>
          rw [Prog.bind_error test] at ran
          cases ran
          exact (@early [] trivial rfl).2
      | value tested =>
          have headLocal : Layers.HeadLocal middle :=
            Layers.headLocal_stable entered (meets.done trivial entered)
          rw [Prog.bind_eq test] at ran
          cases ran
          obtain ⟨events, trace, behind⟩ :=
            childs_behind outside depth headLocal rfl finished
          obtain ⟨quiet, before⟩ := early trivial trace
          exact behind quiet before

/-- In a run without a leak, a switch inside another one leaves the variable
of that switch as it was. -/
theorem execute_keeps_variable {self : Loc} {caller : Option Loc}
    {state : St W} {value : Str} (found : Found value state.contexts)
    (kept : Chain.lookup switchVar
      ((Interp.ofRun outside depth (DbPager.execute outside depth)).getParameter
        self "test" (state.withLayer ∅)).state.contexts = some value)
    (finished : (execute
      (Interp.ofRun outside depth (DbPager.execute outside depth)) self caller
      state).outcome.Finished)
    (clean : ∀ events place,
      (execute (Interp.ofRun outside depth (DbPager.execute outside depth)) self
        caller state).state.trace = events ++ state.trace →
      .leak place ∉ events) :
    Found value
      (execute (Interp.ofRun outside depth (DbPager.execute outside depth)) self
        caller state).state.contexts := by
  have ended := withLayer_finished finished
  have trace := M.withLayer_view M.leave_trace ((body
    (Interp.ofRun outside depth (DbPager.execute outside depth)) self
    caller).tryCatch caught) state
  obtain ⟨same, finishes⟩ := tryCatch_caught_state (body
    (Interp.ofRun outside depth (DbPager.execute outside depth)) self caller)
    (state.withLayer ∅)
  cases ran : body (Interp.ofRun outside depth (DbPager.execute outside depth))
      self caller (state.withLayer ∅) with
  | mk final out outcome =>
      rw [ran] at same finishes
      have behind := body_behind outside depth found kept ran
        (finishes ended) (by
          intro events place whole
          apply clean events place
          exact trace.trans ((congrArg St.trace same).trans whole))
      rw [← show _ = final from same] at behind
      have left := withLayer_state ended behind.layered
      exact (congrArg (Found value) (congrArg St.contexts left)).mpr behind.found

end Run

end Nested

section Claim

/-- The interpreter with the given bound. -/
abbrev interpAt (outside : Outside W) (depth : Nat) : Interp W :=
  Interp.ofRun outside depth (DbPager.execute outside depth)

/-- A switch selects the first case that matches its tested value, unless
something disturbs it; and a switch inside it neither jumps out of it nor
changes the value that its later cases are compared with. -/
theorem switch_selects (outside : Outside W) (depth : Nat) :
    (∀ self caller state, self.tag.kind = .switch →
      UndisturbedSwitch (interpAt outside (depth + 1))
        (interpAt outside depth) self caller state →
      DbPager.execute outside (depth + 2) self caller state =
        M.withLayer (selection (interpAt outside (depth + 1))
          (interpAt outside depth) self caller) state) ∧
    (∀ nested caller state, nested.tag.kind = .switch →
      NoJump (DbPager.execute outside (depth + 1) nested caller state).outcome) ∧
    ∀ nested caller state final out outcome value,
      nested.tag.kind = .switch →
      DbPager.execute outside (depth + 1) nested caller state =
        ⟨final, out, outcome⟩ →
      outcome.Finished →
      (∀ events place, final.trace = events ++ state.trace →
        .leak place ∉ events) →
      Found value state.contexts →
      Chain.lookup switchVar
        ((interpAt outside depth).getParameter nested "test"
          (state.withLayer ∅)).state.contexts = some value →
      Found value final.contexts := by
  have dispatched : ∀ depth self caller, self.tag.kind = .switch →
      DbPager.execute outside (depth + 1) self caller =
        execute (interpAt outside depth) self caller := by
    intro depth self caller isSwitch
    unfold DbPager.execute dispatch
    rw [isSwitch]
  refine ⟨?_, ?_, ?_⟩
  · intro self caller state isSwitch undisturbed
    rw [dispatched (depth + 1) self caller isSwitch]
    apply execute_eq _ undisturbed
    intro child isCase
    have kind : (self.child child).tag.kind = .case := Kind.eq_of_isCase isCase
    show DbPager.execute outside (depth + 1) (self.child child) caller = _
    unfold DbPager.execute dispatch
    rw [kind]
  · intro nested caller state isSwitch
    rw [dispatched depth nested caller isSwitch]
    exact execute_noJump _ nested caller state
  · intro nested caller state final out outcome value isSwitch ran finished
      clean found kept
    rw [dispatched depth nested caller isSwitch] at ran
    have same : final =
        (execute (interpAt outside depth) nested caller state).state := by
      rw [ran]
    subst same
    apply execute_keeps_variable outside depth found kept _ clean
    rw [ran]
    exact finished

/-- A case with a text. -/
def caseTag (id : Nat) (pattern text : Str) : Tag :=
  .mk id .case [("match".toList, pattern)]
    [.mk (id + 1) .expression [] [] text] []

/-- A switch for `b` whose second case matches. -/
def secondMatches : Loc :=
  ⟨.mk 1 .switch [("test".toList, "b".toList)]
    [caseTag 2 "a".toList "x".toList, caseTag 4 "b".toList "y".toList,
      caseTag 6 [] "z".toList] [], []⟩

/-- Inside a switch for `a`. -/
def insideSwitch : St Unit :=
  St.fresh [{ Context.newLocal with
    stack := [(∅ : Vars).insert switchVar "a".toList] }]

theorem secondMatches_undisturbed :
    UndisturbedSwitch (interpAt Outside.plain 4) (interpAt Outside.plain 3)
      secondMatches none insideSwitch := by
  constructor
  · intro exception raised
    cases raised
  · intro middle out tested bound test binding
    cases test
    cases binding
    constructor
    · intro exception raised
      cases raised
    · intro middle out pattern read
      cases read
      refine ⟨rfl, ?_⟩
      show Undisturbed _ _ _ _ _ _ _
      constructor
      · intro exception raised
        cases raised
      · intro middle out pattern read
        cases read
        refine ⟨rfl, ?_⟩
        intro exception raised
        cases raised

theorem switch_selects_second :
    DbPager.execute Outside.plain 5 secondMatches none insideSwitch =
        M.withLayer (selection (interpAt Outside.plain 4)
          (interpAt Outside.plain 3) secondMatches none) insideSwitch ∧
      NoJump (DbPager.execute Outside.plain 4 secondMatches none
        insideSwitch).outcome ∧
      Found "a".toList (DbPager.execute Outside.plain 4 secondMatches none
        insideSwitch).state.contexts := by
  obtain ⟨selects, stays, keeps⟩ := switch_selects Outside.plain 3
  refine ⟨selects _ _ _ rfl secondMatches_undisturbed, stays _ _ _ rfl, ?_⟩
  refine keeps secondMatches none insideSwitch _ _ (.value ()) _ rfl rfl
    trivial ?_ (.here rfl rfl) rfl
  intro events place whole
  have silent : [] = events ++ [] := whole
  rw [List.append_nil] at silent
  subst silent
  exact List.not_mem_nil

/-- A switch for `a` that assigns `b` to its variable before a case for `b`. -/
def assigningSwitch : Loc :=
  ⟨.mk 1 .switch [("test".toList, "a".toList)]
    [.mk 2 .set [("name".toList, switchVar)]
      [.mk 3 .expression [] [] "b".toList] [],
      caseTag 4 "b".toList "x".toList] [], []⟩

/-- A switch without cases that calls a definition with a case in it. -/
def callingSwitch : Loc :=
  let definition : Tag := .mk 1 (.tag (some "f".toList))
    [("name".toList, "f".toList)] [caseTag 2 "a".toList "x".toList] []
  let switch : Tag := .mk 4 .switch [("test".toList, "a".toList)]
    [.mk 5 .call [("name".toList, "f".toList)] [] [],
      .mk 6 .expression [] [] "y".toList] []
  ⟨switch, [.mk 0 .module [] [definition, switch] []]⟩

/-- The variable can be assigned, and a case of a definition jumps. -/
theorem switch_disturbed :
    DbPager.execute Outside.plain 5 assigningSwitch none
        (St.fresh [Context.newLocal]) ≠
      M.withLayer (selection (interpAt Outside.plain 4)
        (interpAt Outside.plain 3) assigningSwitch none)
        (St.fresh [Context.newLocal]) ∧
    DbPager.execute Outside.plain 8 callingSwitch none
        (St.fresh [Context.newLocal]) ≠
      M.withLayer (selection (interpAt Outside.plain 7)
        (interpAt Outside.plain 6) callingSwitch none)
        (St.fresh [Context.newLocal]) := by
  constructor
  · intro same
    exact absurd (congrArg Run.out same) (by decide +kernel)
  · intro same
    have outcome := congrArg Run.outcome same
    have jumped : (Outcome.value () : Outcome Exc Unit) =
        .error .tagCase := outcome
    cases jumped

end Claim

end TagSwitch

end DbPager
