import DbPager.Assignment
import DbPager.Cdata
import DbPager.Comparisons
import DbPager.Layers
import DbPager.Strings

/-!
# The operators of the standard library

`operators.dbpx` defines `lib:if`, `lib:while` and `lib:for` as custom tags
that call each other.  Their tags are what the parser makes of the file; an
include moves them, with other addresses, to the page that uses them.
-/

namespace DbPager

open Effect

variable {W : Type}

namespace Operators

def xmlName {c : Char} (rest : Str) (other : c ≠ '@') : XmlName :=
  ⟨c :: rest, head_ne_at other⟩

def ifName : XmlName := @xmlName 'i' "f".toList (Char.ne_of_val_ne nofun)

def whileName : XmlName := @xmlName 'w' "hile".toList (Char.ne_of_val_ne nofun)

def forName : XmlName := @xmlName 'f' "or".toList (Char.ne_of_val_ne nofun)

section Tags

-- The number of tags that were read before those of the library.
variable (n : Nat)

def executeTag (addr : Nat) : Tag :=
  .mk addr .execute [] [] []

def testParam (text : String) : List (Str × Str) :=
  [("test".toList, text.toList)]

def ifCase : Tag :=
  .mk (n + 3) .case [("match".toList, "1".toList)] [executeTag (n + 4)] []

def ifSwitch : Tag :=
  .mk (n + 2) .switch (testParam "\x7b$test\x7d") [ifCase n] []

/-- `@if`. -/
def ifTag : Tag :=
  .mk (n + 1) (.tag (some "if".toList)) [("name".toList, "if".toList)]
    [ifSwitch n] []

/-- The call of `lib:while` in the definition of `lib:while`. -/
def whileAgain : Tag :=
  .mk (n + 8) (.usr whileName (some (n + 5))) (testParam "\x7b$test\x7d") []
    []

def whileIf : Tag :=
  .mk (n + 6) (.usr ifName (some (n + 1))) (testParam "\x7b$test\x7d")
    [executeTag (n + 7), whileAgain n] []

/-- `@while`. -/
def whileTag : Tag :=
  .mk (n + 5) (.tag (some "while".toList)) [("name".toList, "while".toList)]
    [whileIf n] []

/-- `tag_set` does not look at its parameter `value`. -/
def forSet : Tag :=
  .mk (n + 13) .set
    [("name".toList, "count".toList),
      ("value".toList, "\x7b$count + $step\x7d".toList)] [] []

def forWhile : Tag :=
  .mk (n + 11) (.usr whileName (some (n + 5)))
    (testParam "\x7b$to >= $count\x7d") [executeTag (n + 12), forSet n] []

def forVar : Tag :=
  .mk (n + 10) .var
    [("name".toList, "count".toList), ("value".toList, "\x7b$from\x7d".toList)]
    [forWhile n] []

/-- `@for`. -/
def forTag : Tag :=
  .mk (n + 9) (.tag (some "for".toList)) [("name".toList, "for".toList)]
    [forVar n] []

end Tags

section Deep

variable {state : St W} {count : Nat}

/-- The context at hand has that many layers to leave. -/
def Deep (count : Nat) (state : St W) : Prop :=
  ∃ context parents, state.contexts = context :: parents ∧
    count ≤ context.stack.length

theorem Deep.mapHead {change : Context → Context}
    (same : ∀ context, (change context).stack = context.stack)
    (deep : Deep count state) : Deep count (state.mapHead change) := by
  obtain ⟨context, parents, chain, layers⟩ := deep
  refine ⟨change context, parents, ?_, ?_⟩
  · simp [St.mapHead, chain]
  · rw [same]
    exact layers

theorem Deep.dropLayer (deep : Deep (count + 1) state) :
    Deep count state.dropLayer := by
  obtain ⟨context, parents, chain, layers⟩ := deep
  refine ⟨context.dropLayer, parents, ?_, ?_⟩
  · simp [St.dropLayer, St.mapHead, chain]
  · simp only [Context.dropLayer, List.length_tail]
    omega

theorem Deep.of_chain (chain : state.contexts ≠ []) : Deep 0 state := by
  obtain ⟨context, parents, whole⟩ := List.exists_cons_of_ne_nil chain
  exact ⟨context, parents, whole, Nat.zero_le _⟩

theorem Deep.withLayer {layer : Vars} (deep : Deep count state) :
    Deep (count + 1) (state.withLayer layer) := by
  obtain ⟨context, parents, chain, layers⟩ := deep
  refine ⟨{ context with stack := layer :: context.stack }, parents, ?_, ?_⟩
  · simp [St.withLayer, Chain.withLayer, chain]
  · exact Nat.succ_le_succ layers

theorem Deep.less {more : Nat} (deep : Deep more state) (fewer : count ≤ more) :
    Deep count state := by
  obtain ⟨context, parents, chain, layers⟩ := deep
  exact ⟨context, parents, chain, fewer.trans layers⟩

theorem Deep.layered (deep : Deep (count + 1) state) : state.Layered := by
  obtain ⟨context, parents, chain, layers⟩ := deep
  refine ⟨context, parents, chain, ?_⟩
  intro none
  rw [none] at layers
  cases layers

/-- The state in which a definition is executed. -/
def called (self definition : Loc) (state : St W) : St W :=
  (state.record (.call self definition)).mapHead (Context.push self)

/-- The state when a definition has come to its end. -/
def returned (state : St W) : St W :=
  (state.mapHead Context.popCall).record .ret

theorem Deep.returned (deep : Deep count state) : Deep count (returned state) :=
  deep.mapHead fun _ => rfl

end Deep

section Runs

/-- What a program makes of the run of an inner one that raises nothing. -/
def settle (finish : St W → St W) (run : Run (St W) Exc Char Unit) :
    Run (St W) Exc Char Unit :=
  match run with
  | ⟨state, out, .value ()⟩ => ⟨finish state, out, .value ()⟩
  | stopped => stopped

/-- The run raises nothing, and where it returns there are `count` layers to
leave. -/
structure Calm (count : Nat) (run : Run (St W) Exc Char Unit) : Prop where
  quiet : ∀ exception, run.outcome ≠ .error exception
  deep : run.outcome = .value () → Deep count run.state

/-- There is not enough depth. -/
def Halts (run : Run (St W) Exc Char Unit) : Prop :=
  run.outcome = .halt .timeout

variable {finish : St W → St W} {run : Run (St W) Exc Char Unit}
  {state middle : St W} {out : Str} {count : Nat}

theorem settle_eq (ran : run = ⟨middle, out, .value ()⟩) :
    settle finish run = ⟨finish middle, out, .value ()⟩ := by
  rw [ran]
  rfl

theorem Halts.settle (halts : Halts run) : Halts (settle finish run) := by
  obtain ⟨middle, out, outcome⟩ := run
  obtain rfl : outcome = .halt .timeout := halts
  rfl

theorem settle_settle (outer : St W → St W) :
    settle outer (settle finish run) =
      settle (fun state => outer (finish state)) run := by
  rcases run with ⟨middle, out, result | exception | reason⟩ <;> rfl

theorem Halts.quiet (halts : Halts run) (exception : Exc) :
    run.outcome ≠ .error exception := by
  intro same
  rw [Halts, same] at halts
  cases halts

theorem Halts.calm (halts : Halts run) : Calm count run where
  quiet := halts.quiet
  deep same := by
    rw [Halts, same] at halts
    cases halts

theorem Calm.settle {less : Nat} (calm : Calm count run)
    (deep : ∀ state, Deep count state → Deep less (finish state)) :
    Calm less (settle finish run) := by
  rcases run with ⟨middle, out, result | exception | reason⟩
  · exact ⟨nofun, fun _ => deep middle (calm.deep rfl)⟩
  · exact absurd rfl (calm.quiet exception)
  · exact ⟨nofun, nofun⟩

theorem Calm.less {more : Nat} (calm : Calm more run) (fewer : count ≤ more) :
    Calm count run where
  quiet := calm.quiet
  deep same := (calm.deep same).less fewer

theorem calm_of_eq (ran : run = ⟨middle, out, .value ()⟩)
    (deep : Deep count middle) : Calm count run := by
  rw [ran]
  exact ⟨nofun, fun _ => deep⟩

theorem settle_quiet (quiet : ∀ exception, run.outcome ≠ .error exception)
    (exception : Exc) : (settle finish run).outcome ≠ .error exception := by
  rcases run with ⟨middle, out, result | exception | reason⟩
  · exact nofun
  · exact absurd rfl (quiet exception)
  · exact nofun

theorem onError_quiet {body cleanup : M W Unit} (ran : body state = run)
    (quiet : ∀ exception, run.outcome ≠ .error exception) :
    body.onError cleanup state = run := by
  rcases run with ⟨middle, out, result | exception | reason⟩
  · exact Prog.onError_eq ran cleanup
  · exact absurd rfl (quiet exception)
  · exact Prog.tryCatch_halt ran _

/-- A program is followed by one that only changes the state. -/
theorem bind_silently (first : M W Unit) {next : Unit → M W Unit}
    (after : ∀ state, next () state = ⟨finish state, [], .value ()⟩) :
    (first >>= next) state = settle finish (first state) := by
  rcases ran : first state with ⟨middle, out, result | exception | reason⟩
  · rw [Prog.bind_eq ran, after, List.append_nil]
    rfl
  · exact Prog.bind_error ran next
  · exact Prog.bind_halt ran next

theorem withLayer_settle {body : M W Unit}
    (calm : Calm 1 (body (state.withLayer ∅))) :
    M.withLayer body state =
      settle St.dropLayer (body (state.withLayer ∅)) := by
  rcases ran : body (state.withLayer ∅) with
    ⟨middle, out, result | exception | reason⟩
  · rw [ran] at calm
    exact M.withLayer_left ran (M.leave_eq (calm.deep rfl).layered)
  · rw [ran] at calm
    exact absurd rfl (calm.quiet exception)
  · have entered : M.enter state = ⟨state.withLayer ∅, [], .value ()⟩ := rfl
    have halted : body.onError M.leave (state.withLayer ∅) =
        ⟨middle, out, .halt reason⟩ := Prog.tryCatch_halt ran _
    unfold M.withLayer
    rw [Prog.bind_silent entered, Prog.bind_halt halted]
    rfl

theorem invoke_settle {interp : Interp W} {self definition : Loc}
    (calm : Calm count
      (interp.run definition (some self) (called self definition state))) :
    invoke interp self definition state =
      settle returned
        (interp.run definition (some self) (called self definition state)) := by
  have recorded : M.record (.call self definition) state =
      ⟨state.record (.call self definition), [], .value ()⟩ := rfl
  have pushed : M.push self (state.record (.call self definition)) =
      ⟨called self definition state, [], .value ()⟩ := rfl
  have after (state : St W) : (do let _ ← M.pop; M.record .ret) state =
      ⟨returned state, [], .value ()⟩ := by
    rw [Prog.bind_silent (M.pop_eq state)]
    rfl
  unfold invoke
  rw [Prog.bind_silent recorded, Prog.bind_silent pushed,
    bind_silently _ after, onError_quiet rfl calm.quiet]

/-- A tag with one child and no text of its own. -/
theorem executeChilds_single (interp : Interp W) {self : Loc}
    (caller : Option Loc) {child : Tag} (childs : self.tag.childs = [child])
    (text : self.tag.text = []) :
    interp.executeChilds self caller = interp.run (self.child child) caller := by
  funext state
  unfold Interp.executeChilds
  rw [childs, text, Prog.forEach_singleton]
  rcases ran : interp.run (self.child child) caller state with
    ⟨middle, out, result | exception | reason⟩
  · rw [Prog.bind_eq ran]
    simp [Prog.emit]
  · exact Prog.bind_error ran _
  · exact Prog.bind_halt ran _

end Runs

section Calls

variable {outside : Outside W} {depth : Nat} {self definition : Loc}
  {caller : Option Loc} {state entered : St W} {name : XmlName}
  {link : Option Nat}

/-- The call of a custom tag. -/
theorem call_settle (kind : self.tag.kind = .usr name link)
    (target : TagUsr.target self = some definition)
    (bound : bindArguments
      (Interp.ofRun outside depth (execute outside depth)) self
      self.tag.params (state.withLayer ∅) = ⟨entered, [], .value ()⟩)
    (calm : Calm 1 (execute outside depth definition (some self)
      (called self definition entered))) :
    execute outside (depth + 1) self caller state =
      settle (fun state => (returned state).dropLayer)
        (execute outside depth definition (some self)
          (called self definition entered)) := by
  have invoked := @invoke_settle W entered 1
    (Interp.ofRun outside depth (execute outside depth)) self definition calm
  let interp := Interp.ofRun outside depth (execute outside depth)
  have body : (do
      bindArguments interp self self.tag.params
      invoke interp self definition) (state.withLayer ∅) =
      settle returned (execute outside depth definition (some self)
        (called self definition entered)) := by
    rw [Prog.bind_silent bound]
    exact invoked
  have inner := calm.settle fun _ deep => deep.returned
  rw [← body] at inner
  have found : TagUsr.execute interp self = M.withLayer (do
      bindArguments interp self self.tag.params
      invoke interp self definition) := by
    unfold TagUsr.execute
    simp only [target]
  have dispatched : execute outside (depth + 1) self caller =
      TagUsr.execute interp self := by
    unfold execute dispatch
    rw [kind]
  rw [dispatched, found, withLayer_settle inner, body, settle_settle]

/-- The definition of a custom tag that has one child. -/
theorem definition_eq {named : Option Str} {child : Tag}
    (kind : definition.tag.kind = .tag named)
    (childs : definition.tag.childs = [child])
    (text : definition.tag.text = []) (usr : self.tag.kind.isUsr = true) :
    execute outside (depth + 1) definition (some self) =
      execute outside depth (definition.child child) (some self) := by
  have dispatched : execute outside (depth + 1) definition (some self) =
      TagTag.execute (Interp.ofRun outside depth (execute outside depth))
        definition (some self) := by
    unfold execute dispatch
    rw [kind]
  have content : TagTag.execute
      (Interp.ofRun outside depth (execute outside depth)) definition
      (some self) =
      (Interp.ofRun outside depth (execute outside depth)).executeChilds
        definition (some self) := if_pos usr
  rw [dispatched, content, executeChilds_single _ _ childs text]
  rfl

end Calls

section Variables

variable {state : St W}

/-- A layer with one variable. -/
def oneVar (name value : Str) : Vars :=
  AList.insert (upName name) value ∅

theorem lookup_oneVar {contexts : List Context} (chain : contexts ≠ [])
    (other name value : Str) :
    Chain.lookup other (Chain.withLayer (oneVar name value) contexts) =
      if upName other = upName name then some value
      else Chain.lookup other contexts := by
  rw [Chain.lookup_withLayer _ _ chain, oneVar]
  by_cases same : upName other = upName name
  · rw [if_pos same, same, AList.lookup_insert]
    rfl
  · rw [if_neg same, AList.lookup_insert_ne same]
    rfl

theorem getValue_oneVar {contexts : List Context} (chain : contexts ≠ [])
    (name value : Str) :
    Chain.getValue name (Chain.withLayer (oneVar name value) contexts) =
      value := by
  rw [Chain.getValue, lookup_oneVar chain, if_pos rfl]
  rfl

theorem lookup_mapHead {change : Context → Context}
    (same : ∀ context, (change context).stack = context.stack) (name : Str)
    (state : St W) :
    Chain.lookup name (state.mapHead change).contexts =
      Chain.lookup name state.contexts := by
  rcases state with ⟨contexts, vectors, maps, nextAddr, world, trace⟩
  cases contexts with
  | nil => rfl
  | cons context parents =>
      simp only [St.mapHead, List.modifyHead_cons, Chain.lookup, same]

theorem mapHead_chain {change : Context → Context}
    (chain : state.contexts ≠ []) : (state.mapHead change).contexts ≠ [] := by
  rcases state with ⟨contexts, vectors, maps, nextAddr, world, trace⟩
  cases contexts with
  | nil => exact absurd rfl chain
  | cons context parents => exact List.cons_ne_nil _ _

theorem withLayer_chain (layer : Vars) (chain : state.contexts ≠ []) :
    (state.withLayer layer).contexts ≠ [] :=
  mapHead_chain chain

theorem exec_push (call : Loc) (chain : state.contexts ≠ []) :
    (state.mapHead (Context.push call)).exec = call :: state.exec := by
  rcases state with ⟨contexts, vectors, maps, nextAddr, world, trace⟩
  cases contexts with
  | nil => exact absurd rfl chain
  | cons context parents => rfl

theorem exec_withLayer (layer : Vars) (state : St W) :
    (state.withLayer layer).exec = state.exec := by
  rcases state with ⟨contexts, vectors, maps, nextAddr, world, trace⟩
  cases contexts <;> rfl

theorem evaluates_plain (outside : Outside W) (depth : Nat) (state : St W)
    {text : Str} (plain : text.all isPlainChar = true) :
    Function.Evaluates outside depth state text text :=
  fun _ => Evaluator.eval_plain outside _ _ _ state plain

/-- A reference in a layer that is still empty. -/
theorem evaluates_outer (outside : Outside W) (depth : Nat)
    {name value : Str} (chain : state.contexts ≠ [])
    (held : Chain.getValue name state.contexts = value)
    (plain : name.all Lexer.isVariableChar = true) :
    Function.Evaluates outside depth (state.withLayer ∅)
      ('\x7b' :: '$' :: name ++ ['\x7d']) value := by
  have evaluated := Function.evaluates_variable outside depth
    (state.withLayer ∅) plain
  have same : Chain.getValue name (state.withLayer ∅).contexts = value := by
    rw [St.withLayer, Chain.getValue_withLayer _ _ chain, held]
    rfl
  rwa [same] at evaluated

/-- The parameter of a call that has one. -/
theorem bindArguments_one {outside : Outside W} {depth : Nat} {self : Loc}
    {name text value : Str} (chain : state.contexts ≠ [])
    (evaluated : Function.Evaluates outside depth (state.withLayer ∅) text
      value) :
    bindArguments (Interp.ofRun outside depth (execute outside depth)) self
        [(name, text)] (state.withLayer ∅) =
      ⟨state.withLayer (oneVar name value), [], .value ()⟩ := by
  have ran : (Interp.ofRun outside depth (execute outside depth)).executeParam
      self text (state.withLayer ∅) =
      ⟨state.withLayer ∅, [], .value value⟩ := evaluated _
  have added := M.addValue_withLayer outside.dcl name value ∅ chain
    (show (state.withLayer ∅).contexts = _ from rfl)
  unfold bindArguments
  rw [Prog.forEach_singleton, Prog.bind_silent ran]
  exact added

theorem headLocal_mapHead {change : Context → Context}
    (same : ∀ context, (change context).type = context.type)
    (here : Layers.HeadLocal state) :
    Layers.HeadLocal (state.mapHead change) := by
  rcases state with ⟨contexts, vectors, maps, nextAddr, world, trace⟩
  cases contexts with
  | nil => exact here
  | cons context parents =>
      simpa [Layers.HeadLocal, St.mapHead, same] using here

theorem lookup_called (self definition : Loc) (name : Str) (state : St W) :
    Chain.lookup name (called self definition state).contexts =
      Chain.lookup name state.contexts :=
  @lookup_mapHead W (Context.push self) (fun _ => rfl) name
    (state.record (.call self definition))

theorem called_chain {self definition : Loc} (chain : state.contexts ≠ []) :
    (called self definition state).contexts ≠ [] :=
  mapHead_chain chain

theorem headLocal_called {self definition : Loc}
    (here : Layers.HeadLocal state) :
    Layers.HeadLocal (called self definition state) :=
  @headLocal_mapHead W (state.record (.call self definition))
    (Context.push self) (fun _ => rfl) here

/-- `add_value` with the type of the context at hand. -/
theorem addTyped_withLayer (dcl : Dcl) (name value : Str) (layer : Vars)
    (here : Layers.HeadLocal state) :
    M.addTyped dcl name value Context.localType (state.withLayer layer) =
      ⟨state.withLayer (layer.insert (upName name) value), [], .value ()⟩ := by
  rcases state with ⟨contexts, vectors, maps, nextAddr, world, trace⟩
  cases contexts with
  | nil => cases here
  | cons context parents =>
      have same : context.type = Context.localType := Option.some.inj here
      have named : Context.localType ≠ [] := nofun
      simp [M.addTyped, Prog.act, St.withLayer, Chain.withLayer,
        Chain.addValue, same, dcl.compare_self, named]

/-- `dbp:set` with one name. -/
theorem set_returns {interp : Interp W} {self : Loc} {caller : Option Loc}
    {middle : St W} {text name : Str} {changed : List Context}
    (content : interp.executeChilds self caller state =
      ⟨middle, text, .value ()⟩)
    (named : interp.getParameter self "name" middle =
      ⟨middle, [], .value name⟩)
    (single : interp.dcl.tokens name = [name])
    (assigned : Chain.setValue name text middle.contexts = some changed) :
    TagSet.execute interp self caller state =
      ⟨{ middle with contexts := changed }, [], .value ()⟩ := by
  unfold TagSet.execute
  rw [Prog.bind_silent (Prog.capture_eq content), Prog.bind_silent named,
    single, Prog.forEach_singleton]
  unfold M.setValue Prog.act
  simp only [assigned]

/-- The value of a text that is one brace group without braces in it. -/
theorem evaluate_group (outside : Outside W) (function : Str → Str → M W Str)
    {text value : Str} (plain : text.all isPlainChar = true)
    (ran : Evaluator.calculate outside function text state =
      ⟨state, [], .value value⟩) :
    Evaluator.evaluate outside function ('\x7b' :: text ++ ['\x7d']) state =
      ⟨state, [], .value value⟩ := by
  let inner := Evaluator.eval outside function (text.length + 2)
  obtain ⟨last, next, collected⟩ := Evaluator.evalLoop_group outside function
    inner text ['\x7d'] '\x7b' [] [] plain (by decide)
  have inside := Evaluator.eval_plain outside function (text.length + 1) text
    state plain
  have length : ('\x7b' :: text ++ ['\x7d']).length + 1 =
      (text.length + 2) + 1 := by
    simp
  unfold Evaluator.evaluate
  rw [length, Evaluator.eval, List.cons_append,
    Evaluator.evalLoop_open outside function _ _ _ _ (by decide), collected,
    Evaluator.evalLoop_close outside function _ _ _ _ _ next,
    List.nil_append, Prog.bind_silent inside, Prog.bind_silent ran]
  rfl

end Variables

section Execute

variable {outside : Outside W} {depth addr : Nat} {up : List Tag}
  {caller : Option Loc} {state : St W}

/-- The state in which the content of a call is executed. -/
def taken (self call : Loc) (state : St W) : St W :=
  ((state.record (.reached self state.exec)).mapHead Context.popCall).record
    (.render self call [])

/-- The state when the content of a call has been executed. -/
def givenBack (call : Loc) (state : St W) : St W :=
  (state.mapHead (Context.push call)).record .rendered

/-- `dbp:execute` without a name. -/
theorem execute_settle {call : Loc} {calls : List Loc}
    (top : state.exec = call :: calls)
    (quiet : ∀ exception, ((Interp.ofRun outside depth
      (execute outside depth)).executeChilds call
        (some ⟨executeTag addr, up⟩)
        (taken ⟨executeTag addr, up⟩ call state)).outcome ≠
          .error exception) :
    execute outside (depth + 1) ⟨executeTag addr, up⟩ caller state =
      settle (givenBack call) ((Interp.ofRun outside depth
        (execute outside depth)).executeChilds call
          (some ⟨executeTag addr, up⟩)
          (taken ⟨executeTag addr, up⟩ call state)) := by
  let self : Loc := ⟨executeTag addr, up⟩
  let interp := Interp.ofRun outside depth (execute outside depth)
  have looked : Prog.read St.exec state = (⟨state, [], .value state.exec⟩ :
      Run (St W) Exc Char (List Loc)) := rfl
  have reached : M.record (.reached self state.exec) state =
      ⟨state.record (.reached self state.exec), [], .value ()⟩ := rfl
  have popped := M.pop_eq (state.record (.reached self state.exec))
  have first : (state.record (.reached self state.exec)).exec.head? =
      some call := congrArg List.head? top
  have dispatched : execute outside (depth + 1) self caller =
      TagExecute.execute interp self := rfl
  have named (state : St W) : interp.getParameter self "name" state =
      ⟨state, [], .value []⟩ := rfl
  rw [first] at popped
  rw [show (⟨executeTag addr, up⟩ : Loc) = self from rfl] at quiet ⊢
  rw [dispatched, TagExecute.execute, Prog.bind_silent looked,
    Prog.bind_silent reached, Prog.bind_silent popped]
  let remaining := (state.record (.reached self state.exec)).mapHead
    Context.popCall
  have content : (do
      M.record (.render self call [])
      interp.executeChilds call (some self)
      M.push call
      M.record .rendered) remaining =
      settle (givenBack call)
        (interp.executeChilds call (some self) (taken self call state)) := by
    have recorded : M.record (.render self call []) remaining =
        ⟨taken self call state, [], .value ()⟩ := rfl
    rw [Prog.bind_silent recorded]
    exact bind_silently _ fun _ => rfl
  refine onError_quiet ?_ (settle_quiet quiet)
  exact (Prog.bind_silent (named _) _).trans content

theorem execute_returns {call : Loc} {calls : List Loc} {middle : St W}
    {out : Str} (top : state.exec = call :: calls)
    (ran : (Interp.ofRun outside depth (execute outside depth)).executeChilds
      call (some ⟨executeTag addr, up⟩)
      (taken ⟨executeTag addr, up⟩ call state) = ⟨middle, out, .value ()⟩) :
    execute outside (depth + 1) ⟨executeTag addr, up⟩ caller state =
      ⟨givenBack call middle, out, .value ()⟩ := by
  rw [execute_settle top (by rw [ran]; exact nofun), ran]
  rfl

end Execute

section If

variable {outside : Outside W} {depth n : Nat} {up : List Tag}
  {caller : Option Loc} {state : St W} {value : Str}

/-- The state in which the cases of the switch are asked. -/
def switched (value : Str) (state : St W) : St W :=
  state.withLayer (oneVar switchVar value)

/-- A case compares its pattern with what the switch has kept. -/
theorem ifCase_eq (chain : state.contexts ≠ []) :
    execute outside (depth + 1) ⟨ifCase n, up⟩ caller (switched value state) =
      (Prog.when (value == "1".toList) (do
        execute outside depth ⟨executeTag (n + 4), ifCase n :: up⟩ caller
        Prog.throw .tagCase)) (switched value state) := by
  let self : Loc := ⟨ifCase n, up⟩
  let interp := Interp.ofRun outside depth (execute outside depth)
  have dispatched : execute outside (depth + 1) self caller =
      TagCase.execute interp self caller := rfl
  have asked : interp.getParameter self "match" (switched value state) =
      ⟨switched value state, [], .value "1".toList⟩ :=
    evaluates_plain outside depth _ rfl _
  have kept : M.getValue switchVar (switched value state) =
      ⟨switched value state, [], .value value⟩ := by
    rw [M.getValue_eq, switched, St.withLayer, getValue_oneVar chain]
  have content := executeChilds_single interp caller
    (show self.tag.childs = [executeTag (n + 4)] from rfl) rfl
  rw [dispatched, TagCase.execute, Prog.bind_silent asked,
    Prog.bind_silent kept, content]
  rfl

/-- Where the definition's tag `dbp:execute` stands. -/
def ifContent (n : Nat) (up : List Tag) : Loc :=
  ⟨executeTag (n + 4), ifCase n :: ifSwitch n :: up⟩

/-- The handler of the switch. -/
def caseHandler (exception : Exc) : M W Unit :=
  if exception.cls == .tagCase then pure () else Prog.throw exception

/-- The switch runs its only case in a layer that keeps the value of the
test. -/
theorem ifSwitch_eq (chain : state.contexts ≠ [])
    (test : Chain.getValue "test".toList state.contexts = value) :
    ∃ body : M W Unit,
      body (state.withLayer ∅) =
        execute outside depth ⟨ifCase n, ifSwitch n :: up⟩ caller
          (switched value state) ∧
      execute outside (depth + 1) ⟨ifSwitch n, up⟩ caller state =
        M.withLayer (body.tryCatch caseHandler) state := by
  let self : Loc := ⟨ifSwitch n, up⟩
  let interp := Interp.ofRun outside depth (execute outside depth)
  refine ⟨do
    M.addValue outside.dcl switchVar (← interp.getParameter self "test")
    interp.executeChilds self caller, ?_, rfl⟩
  have asked : interp.getParameter self "test" (state.withLayer ∅) =
      ⟨state.withLayer ∅, [], .value value⟩ :=
    evaluates_outer outside depth chain test rfl _
  have added := M.addValue_withLayer outside.dcl switchVar value ∅ chain
    (show (state.withLayer ∅).contexts = _ from rfl)
  have content := executeChilds_single interp caller
    (show self.tag.childs = [ifCase n] from rfl) rfl
  rw [Prog.bind_silent asked, Prog.bind_silent added, content]
  rfl

theorem ifSwitch_settle (chain : state.contexts ≠ [])
    (test : Chain.getValue "test".toList state.contexts = "1".toList)
    (calm : Calm 1 (execute outside depth (ifContent n up) caller
      (switched "1".toList state))) :
    execute outside (depth + 2) ⟨ifSwitch n, up⟩ caller state =
      settle St.dropLayer (execute outside depth (ifContent n up) caller
        (switched "1".toList state)) := by
  obtain ⟨body, inner, whole⟩ := @ifSwitch_eq W outside (depth + 1) n up
    caller state _ chain test
  have cased := @ifCase_eq W outside depth n (ifSwitch n :: up) caller state
    "1".toList chain
  have caught : body.tryCatch caseHandler (state.withLayer ∅) =
      execute outside depth (ifContent n up) caller
        (switched "1".toList state) := by
    rw [cased] at inner
    rcases ran : execute outside depth (ifContent n up) caller
      (switched "1".toList state) with
      ⟨middle, out, result | exception | reason⟩
    · have thrown : body (state.withLayer ∅) =
          ⟨middle, out, .error .tagCase⟩ := by
        rw [inner]
        refine (Prog.bind_eq ran _).trans ?_
        simp [Prog.throw]
      refine (Prog.tryCatch_error thrown _).trans ?_
      simp [caseHandler, Exc.tagCase, pure, Prog.pure]
    · rw [ran] at calm
      exact absurd rfl (calm.quiet exception)
    · refine Prog.tryCatch_halt ?_ _
      rw [inner]
      exact Prog.bind_halt ran _
  rw [whole, withLayer_settle (caught ▸ calm), caught]

/-- A test with another value than `1` leaves everything as it is. -/
theorem ifSwitch_skips (chain : state.contexts ≠ [])
    (test : Chain.getValue "test".toList state.contexts = value)
    (other : value ≠ "1".toList) :
    execute outside (depth + 2) ⟨ifSwitch n, up⟩ caller state =
      ⟨state, [], .value ()⟩ := by
  obtain ⟨body, inner, whole⟩ := @ifSwitch_eq W outside (depth + 1) n up
    caller state _ chain test
  have cased := @ifCase_eq W outside depth n (ifSwitch n :: up) caller state
    value chain
  have unmatched : (value == "1".toList) = false := beq_false_of_ne other
  rw [cased, unmatched] at inner
  have left := M.withLayer_eq chain (Prog.tryCatch_eq inner caseHandler)
    (show (switched value state).contexts = Chain.withLayer _ _ from rfl)
  exact whole ▸ left

end If

section Levels

variable {outside : Outside W} {depth : Nat} {self definition : Loc}
  {caller : Option Loc} {state : St W} {text value : Str}

/-- A call that passes one test to a custom tag. -/
structure TestCall (call definition : Loc) (text : Str) : Prop where
  usr : ∃ name link, call.tag.kind = .usr name link
  target : TagUsr.target call = some definition
  params : call.tag.params = [("test".toList, text)]

theorem TestCall.isUsr (calls : TestCall self definition text) :
    self.tag.kind.isUsr = true := by
  obtain ⟨name, link, kind⟩ := calls.usr
  rw [kind]
  rfl

/-- The state in which a definition finds its test. -/
def tested (self definition : Loc) (value : Str) (state : St W) : St W :=
  called self definition (state.withLayer (oneVar "test".toList value))

theorem tested_chain (chain : state.contexts ≠ []) :
    (tested self definition value state).contexts ≠ [] :=
  mapHead_chain (withLayer_chain _ chain)

theorem lookup_tested (chain : state.contexts ≠ []) (name : Str) :
    Chain.lookup name (tested self definition value state).contexts =
      if upName name = upName "test".toList then some value
      else Chain.lookup name state.contexts := by
  have pushed := @lookup_mapHead W (Context.push self) (fun _ => rfl) name
    ((state.withLayer (oneVar "test".toList value)).record
      (.call self definition))
  exact pushed.trans (lookup_oneVar chain name _ value)

theorem getValue_tested (chain : state.contexts ≠ []) :
    Chain.getValue "test".toList
      (tested self definition value state).contexts = value := by
  rw [Chain.getValue, lookup_tested chain, if_pos rfl]
  rfl

theorem exec_tested (chain : state.contexts ≠ []) :
    (tested self definition value state).exec = self :: state.exec := by
  have inside := withLayer_chain (oneVar "test".toList value) chain
  have pushed := @exec_push W ((state.withLayer
    (oneVar "test".toList value)).record (.call self definition)) self inside
  exact pushed.trans (congrArg _ (exec_withLayer _ _))

/-- The end of a call. -/
def settled (state : St W) : St W :=
  (returned state).dropLayer

/-- The state after a call that has done nothing. -/
def skipped (self definition : Loc) (state : St W) : St W :=
  { state with trace := .ret :: .call self definition :: state.trace }

theorem settled_tested (chain : state.contexts ≠ []) :
    settled (tested self definition value state) =
      skipped self definition state := by
  rcases state with ⟨contexts, vectors, maps, nextAddr, world, trace⟩
  cases contexts with
  | nil => exact absurd rfl chain
  | cons context parents => rfl

theorem TestCall.settle (calls : TestCall self definition text)
    (chain : state.contexts ≠ [])
    (evaluated : Function.Evaluates outside depth (state.withLayer ∅) text
      value)
    (calm : Calm 1 (execute outside depth definition (some self)
      (tested self definition value state))) :
    execute outside (depth + 1) self caller state =
      settle settled (execute outside depth definition (some self)
        (tested self definition value state)) := by
  obtain ⟨name, link, kind⟩ := calls.usr
  refine call_settle kind calls.target ?_ calm
  rw [calls.params]
  exact bindArguments_one chain evaluated

/-! ## `lib:if` -/

variable {n : Nat} {up : List Tag}

/-- The state in which the content of an `lib:if` is executed. -/
def ifEntered (n : Nat) (up : List Tag) (self : Loc) (state : St W) : St W :=
  taken (ifContent n (ifTag n :: up)) self
    (switched "1".toList (tested self ⟨ifTag n, up⟩ "1".toList state))

/-- The state after an `lib:if` whose content has been executed. -/
def ifLeft (self : Loc) (state : St W) : St W :=
  settled (givenBack self state).dropLayer

theorem ifTag_eq (usr : self.tag.kind.isUsr = true) :
    execute outside (depth + 1) ⟨ifTag n, up⟩ (some self) =
      execute outside depth ⟨ifSwitch n, ifTag n :: up⟩ (some self) :=
  definition_eq rfl rfl rfl usr

theorem exec_switched (chain : state.contexts ≠ []) :
    (switched value (tested self definition value state)).exec =
      self :: state.exec :=
  (exec_withLayer _ _).trans (exec_tested chain)

/-- A call of `lib:if` whose test is `1` executes its content, in two more
layers and without itself on the stack of calls. -/
theorem if_settle (calls : TestCall self ⟨ifTag n, up⟩ text)
    (chain : state.contexts ≠ [])
    (evaluated : Function.Evaluates outside (depth + 4) (state.withLayer ∅)
      text "1".toList)
    (calm : Calm 2 ((Interp.ofRun outside depth
      (execute outside depth)).executeChilds self
        (some (ifContent n (ifTag n :: up))) (ifEntered n up self state))) :
    execute outside (depth + 5) self caller state =
      settle (ifLeft self) ((Interp.ofRun outside depth
        (execute outside depth)).executeChilds self
          (some (ifContent n (ifTag n :: up)))
          (ifEntered n up self state)) := by
  have executed : execute outside (depth + 1) (ifContent n (ifTag n :: up))
      (some self)
      (switched "1".toList (tested self ⟨ifTag n, up⟩ "1".toList state)) =
      settle (givenBack self) ((Interp.ofRun outside depth
        (execute outside depth)).executeChilds self
          (some (ifContent n (ifTag n :: up))) (ifEntered n up self state)) :=
    execute_settle (exec_switched chain) calm.quiet
  have content : Calm 2 (execute outside (depth + 1)
      (ifContent n (ifTag n :: up)) (some self)
      (switched "1".toList (tested self ⟨ifTag n, up⟩ "1".toList state))) := by
    refine executed ▸ calm.settle fun state deep => ?_
    exact deep.mapHead fun _ => rfl
  have cased := ifSwitch_settle (tested_chain chain) (getValue_tested chain)
    (content.less (Nat.le_succ 1))
  have defined : execute outside (depth + 4) ⟨ifTag n, up⟩ (some self) = _ :=
    ifTag_eq calls.isUsr
  have inner : Calm 1 (execute outside (depth + 4) ⟨ifTag n, up⟩ (some self)
      (tested self ⟨ifTag n, up⟩ "1".toList state)) := by
    rw [defined, cased]
    exact content.settle fun _ deep => deep.dropLayer
  rw [calls.settle chain evaluated inner, defined, cased, settle_settle,
    executed, settle_settle]
  rfl

/-- Another test has no effect but two events. -/
theorem if_skips (calls : TestCall self ⟨ifTag n, up⟩ text)
    (chain : state.contexts ≠ [])
    (evaluated : Function.Evaluates outside (depth + 3) (state.withLayer ∅)
      text value) (other : value ≠ "1".toList) :
    execute outside (depth + 4) self caller state =
      ⟨skipped self ⟨ifTag n, up⟩ state, [], .value ()⟩ := by
  have cased := @ifSwitch_skips W outside depth n (ifTag n :: up) (some self)
    (tested self ⟨ifTag n, up⟩ value state) value (tested_chain chain)
    (getValue_tested chain) other
  have defined : execute outside (depth + 3) ⟨ifTag n, up⟩ (some self) = _ :=
    ifTag_eq calls.isUsr
  rw [← defined] at cased
  have deep : Deep 1 (tested self ⟨ifTag n, up⟩ value state) :=
    (Deep.of_chain chain).withLayer.mapHead fun _ => rfl
  rw [calls.settle chain evaluated (calm_of_eq cased deep), settle_eq cased,
    settled_tested chain]

/-! ## Too little depth -/

section Halting

theorem TestCall.halts (calls : TestCall self definition text)
    (chain : state.contexts ≠ [])
    (evaluated : ∀ depth, Function.Evaluates outside depth (state.withLayer ∅)
      text value)
    (halts : ∀ less, depth = less + 1 →
      Halts (execute outside less definition (some self)
        (tested self definition value state))) :
    Halts (execute outside depth self caller state) := by
  cases depth with
  | zero => rfl
  | succ less =>
      have inner := halts less rfl
      rw [calls.settle chain (evaluated less) inner.calm]
      exact inner.settle

theorem definition_halts {named : Option Str} {child : Tag}
    (kind : definition.tag.kind = .tag named)
    (childs : definition.tag.childs = [child])
    (text : definition.tag.text = []) (usr : self.tag.kind.isUsr = true)
    (halts : ∀ less, depth = less + 1 →
      Halts (execute outside less (definition.child child) (some self) state)) :
    Halts (execute outside depth definition (some self) state) := by
  cases depth with
  | zero => rfl
  | succ less =>
      rw [definition_eq kind childs text usr]
      exact halts less rfl

theorem ifSwitch_halts (chain : state.contexts ≠ [])
    (test : Chain.getValue "test".toList state.contexts = "1".toList)
    (halts : ∀ less, depth = less + 2 →
      Halts (execute outside less (ifContent n up) caller
        (switched "1".toList state))) :
    Halts (execute outside depth ⟨ifSwitch n, up⟩ caller state) := by
  match depth with
  | 0 => rfl
  | 1 =>
      obtain ⟨body, inner, whole⟩ := @ifSwitch_eq W outside 0 n up caller state
        _ chain test
      have caught : body.tryCatch caseHandler (state.withLayer ∅) =
          ⟨switched "1".toList state, [], .halt .timeout⟩ :=
        Prog.tryCatch_halt inner caseHandler
      have stopped : Halts (body.tryCatch caseHandler (state.withLayer ∅)) :=
        congrArg Run.outcome caught
      rw [whole, withLayer_settle stopped.calm]
      exact stopped.settle
  | less + 2 =>
      have inner := halts less rfl
      rw [ifSwitch_settle chain test inner.calm]
      exact inner.settle

theorem execute_halts {addr : Nat} {call : Loc} {calls : List Loc}
    (top : state.exec = call :: calls)
    (halts : ∀ less, depth = less + 1 →
      Halts ((Interp.ofRun outside less (execute outside less)).executeChilds
        call (some ⟨executeTag addr, up⟩)
        (taken ⟨executeTag addr, up⟩ call state))) :
    Halts (execute outside depth ⟨executeTag addr, up⟩ caller state) := by
  cases depth with
  | zero => rfl
  | succ less =>
      have inner := halts less rfl
      rw [execute_settle top inner.quiet]
      exact inner.settle

/-- As long as the content of an `lib:if` does not get enough depth, the call
does not either. -/
theorem if_halts (calls : TestCall self ⟨ifTag n, up⟩ text)
    (chain : state.contexts ≠ [])
    (evaluated : ∀ depth, Function.Evaluates outside depth (state.withLayer ∅)
      text "1".toList)
    (halts : ∀ less, depth = less + 5 →
      Halts ((Interp.ofRun outside less (execute outside less)).executeChilds
        self (some (ifContent n (ifTag n :: up))) (ifEntered n up self state))) :
    Halts (execute outside depth self caller state) := by
  refine calls.halts chain evaluated fun first one => ?_
  refine definition_halts rfl rfl rfl calls.isUsr fun second two => ?_
  refine ifSwitch_halts (tested_chain chain) (getValue_tested chain) ?_
  intro third three
  refine execute_halts (exec_switched chain) fun less four => ?_
  exact halts less (by omega)

end Halting

/-! ## `lib:while` -/

/-- The library is included around a tag: its definitions are found among the
ancestors. -/
structure Library (n : Nat) (up : List Tag) : Prop where
  conditional : findAddr (n + 1) up = some ⟨ifTag n, up⟩
  loop : findAddr (n + 5) up = some ⟨whileTag n, up⟩

theorem findAddr_above {addr : Nat} {tag : Tag}
    (missing : ∀ child ∈ tag.childs, child.addr ≠ addr) :
    findAddr addr (tag :: up) = findAddr addr up := by
  have none : tag.childs.find? (fun child => child.addr == addr) = none := by
    rw [List.find?_eq_none]
    intro child member same
    exact missing child member (beq_iff_eq.mp same)
  rw [findAddr, none]

theorem target_linked {name : XmlName} {addr : Nat}
    (kind : self.tag.kind = .usr name (some addr))
    (found : findAddr addr self.up = some definition) :
    TagUsr.target self = some definition := by
  unfold TagUsr.target
  rw [kind]
  simp only [found]

section While

/-- The call of `lib:if` in `lib:while`. -/
def whileIfLoc (n : Nat) (up : List Tag) : Loc :=
  ⟨whileIf n, whileTag n :: up⟩

/-- The call of `lib:while` in `lib:while`. -/
def whileAgainLoc (n : Nat) (up : List Tag) : Loc :=
  (whileIfLoc n up).child (whileAgain n)

theorem Library.if_call (library : Library n up) :
    TestCall (whileIfLoc n up) ⟨ifTag n, up⟩ "\x7b$test\x7d".toList := by
  have found : findAddr (n + 1) (whileTag n :: up) = some ⟨ifTag n, up⟩ := by
    rw [findAddr_above, library.conditional]
    simp [whileTag, whileIf, Tag.childs, Tag.addr]
  exact ⟨⟨ifName, some (n + 1), rfl⟩, target_linked rfl found, rfl⟩

theorem Library.while_again (library : Library n up) :
    TestCall (whileAgainLoc n up) ⟨whileTag n, up⟩
      "\x7b$test\x7d".toList := by
  have found : findAddr (n + 5) (whileIf n :: whileTag n :: up) =
      some ⟨whileTag n, up⟩ := by
    rw [findAddr_above, findAddr_above, library.loop]
    · simp [whileTag, whileIf, Tag.childs, Tag.addr]
    · simp [whileIf, whileAgain, executeTag, Tag.childs, Tag.addr]
  exact ⟨⟨whileName, some (n + 5), rfl⟩, target_linked rfl found, rfl⟩

theorem whileTag_eq (usr : self.tag.kind.isUsr = true) :
    execute outside (depth + 1) ⟨whileTag n, up⟩ (some self) =
      execute outside depth (whileIfLoc n up) (some self) :=
  definition_eq rfl rfl rfl usr

/-- The state in which the content of an `lib:while` and the next round are
executed. -/
def whileEntered (n : Nat) (up : List Tag) (self : Loc) (state : St W) :
    St W :=
  ifEntered n up (whileIfLoc n up)
    (tested self ⟨whileTag n, up⟩ "1".toList state)

/-- The state after an `lib:while` that has done nothing. -/
def passed (n : Nat) (up : List Tag) (self : Loc) (state : St W) : St W :=
  { state with
    trace := .ret :: .ret :: .call (whileIfLoc n up) ⟨ifTag n, up⟩ ::
      .call self ⟨whileTag n, up⟩ :: state.trace }

theorem settled_skipped (chain : state.contexts ≠ []) :
    settled (skipped (whileIfLoc n up) ⟨ifTag n, up⟩
      (tested self ⟨whileTag n, up⟩ value state)) =
      passed n up self state := by
  rcases state with ⟨contexts, vectors, maps, nextAddr, world, trace⟩
  cases contexts with
  | nil => exact absurd rfl chain
  | cons context parents => rfl

/-- A call of `lib:while` whose test is not `1` has no effect but four
events. -/
theorem while_skips (library : Library n up)
    (calls : TestCall self ⟨whileTag n, up⟩ text) (chain : state.contexts ≠ [])
    (evaluated : Function.Evaluates outside (depth + 5) (state.withLayer ∅)
      text value) (other : value ≠ "1".toList) :
    execute outside (depth + 6) self caller state =
      ⟨passed n up self state, [], .value ()⟩ := by
  have entered : (tested self ⟨whileTag n, up⟩ value state).contexts ≠ [] :=
    tested_chain chain
  have asked := evaluates_outer outside (depth + 3) entered
    (getValue_tested chain) (show "test".toList.all Lexer.isVariableChar = true
      from rfl)
  have skips : execute outside (depth + 4) (whileIfLoc n up) (some self)
      (tested self ⟨whileTag n, up⟩ value state) = _ :=
    if_skips library.if_call entered asked other
  rw [← whileTag_eq calls.isUsr] at skips
  have deep : Deep 1 (skipped (whileIfLoc n up) ⟨ifTag n, up⟩
      (tested self ⟨whileTag n, up⟩ value state)) :=
    (Deep.of_chain chain).withLayer.mapHead fun _ => rfl
  rw [calls.settle chain evaluated (calm_of_eq skips deep), settle_eq skips,
    settled_skipped chain]

/-- The variables say that the loop goes on. -/
structure Looping (state : St W) : Prop where
  chain : state.contexts ≠ []
  test : Chain.getValue "test".toList state.contexts = "1".toList

theorem Looping.mapHead {change : Context → Context}
    (same : ∀ context, (change context).stack = context.stack)
    (looping : Looping state) : Looping (state.mapHead change) where
  chain := mapHead_chain looping.chain
  test := by
    rw [Chain.getValue, lookup_mapHead same]
    exact looping.test

theorem Looping.of_test
    (test : Chain.getValue "test".toList state.contexts = "1".toList) :
    Looping state := by
  refine ⟨?_, test⟩
  intro none
  rw [none] at test
  cases test

theorem Looping.of_contexts {other : St W} (looping : Looping state)
    (same : other.contexts = state.contexts) : Looping other where
  chain := same ▸ looping.chain
  test := same ▸ looping.test

theorem Looping.taken {call : Loc} (looping : Looping state) :
    Looping (taken self call state) :=
  (@Looping.mapHead W state Context.popCall (fun _ => rfl)
    looping).of_contexts rfl

theorem Looping.givenBack {call : Loc} (looping : Looping state) :
    Looping (givenBack call state) :=
  (@Looping.mapHead W state (Context.push call) (fun _ => rfl)
    looping).of_contexts rfl

theorem looping_ifEntered (chain : state.contexts ≠ []) :
    Looping (ifEntered n up self state) := by
  have inside : Looping
      (switched "1".toList (tested self ⟨ifTag n, up⟩ "1".toList state)) := by
    refine ⟨withLayer_chain _ (tested_chain chain), ?_⟩
    have other : upName "test".toList ≠ upName switchVar := by decide
    rw [switched, St.withLayer, Chain.getValue,
      lookup_oneVar (tested_chain chain), if_neg other]
    exact getValue_tested chain
  exact inside.taken

theorem looping_whileEntered (chain : state.contexts ≠ []) :
    Looping (whileEntered n up self state) :=
  looping_ifEntered (tested_chain chain)

theorem exec_popCall (state : St W) :
    (state.mapHead Context.popCall).exec = state.exec.tail := by
  rcases state with ⟨contexts, vectors, maps, nextAddr, world, trace⟩
  cases contexts <;> rfl

theorem lookup_taken (call : Loc) (name : Str) :
    Chain.lookup name (taken self call state).contexts =
      Chain.lookup name state.contexts :=
  @lookup_mapHead W Context.popCall (fun _ => rfl) name
    (state.record (.reached self state.exec))

theorem lookup_givenBack (name : Str) :
    Chain.lookup name (givenBack self state).contexts =
      Chain.lookup name state.contexts :=
  @lookup_mapHead W (Context.push self) (fun _ => rfl) name state

/-- The content of an `lib:if` sees the variables of the caller. -/
theorem lookup_ifEntered (chain : state.contexts ≠ []) {name : Str}
    (other : upName name ≠ upName "test".toList)
    (unkept : upName name ≠ upName switchVar) :
    Chain.lookup name (ifEntered n up self state).contexts =
      Chain.lookup name state.contexts := by
  have inside := @lookup_tested W self ⟨ifTag n, up⟩ state "1".toList chain name
  rw [if_neg other] at inside
  rw [ifEntered, lookup_taken, switched, St.withLayer,
    lookup_oneVar (tested_chain chain), if_neg unkept, inside]

theorem lookup_whileEntered (chain : state.contexts ≠ []) {name : Str}
    (other : upName name ≠ upName "test".toList)
    (unkept : upName name ≠ upName switchVar) :
    Chain.lookup name (whileEntered n up self state).contexts =
      Chain.lookup name state.contexts := by
  rw [whileEntered, lookup_ifEntered (tested_chain chain) other unkept,
    lookup_tested chain, if_neg other]

theorem exec_ifEntered (chain : state.contexts ≠ []) :
    (ifEntered n up self state).exec = state.exec := by
  have popped := exec_popCall ((switched "1".toList
    (tested self ⟨ifTag n, up⟩ "1".toList state)).record (.reached
      (ifContent n (ifTag n :: up)) (switched "1".toList
        (tested self ⟨ifTag n, up⟩ "1".toList state)).exec))
  exact popped.trans (congrArg List.tail (exec_switched chain))

theorem exec_whileEntered (chain : state.contexts ≠ []) :
    (whileEntered n up self state).exec = self :: state.exec :=
  (exec_ifEntered (tested_chain chain)).trans (exec_tested chain)

/-- Two children, and the first returns or does not get enough depth. -/
theorem childs_halt {interp : Interp W} {first second : Tag}
    (childs : self.tag.childs = [first, second])
    (halts : Halts (interp.run (self.child first) caller state) ∨
      ∃ middle out, interp.run (self.child first) caller state =
        ⟨middle, out, .value ()⟩ ∧
        Halts (interp.run (self.child second) caller middle)) :
    Halts (interp.executeChilds self caller state) := by
  unfold Interp.executeChilds
  rw [childs]
  apply Prog.outcome_bind_halt
  rcases halts with early | ⟨middle, out, ran, late⟩
  · exact Prog.outcome_bind_halt early _
  · refine (congrArg Run.outcome (Prog.bind_eq ran _)).trans ?_
    rw [Prog.forEach_singleton]
    exact late

theorem childs_return {interp : Interp W} {first second : Tag}
    {middle final : St W} {before after : Str}
    (childs : self.tag.childs = [first, second]) (text : self.tag.text = [])
    (ran : interp.run (self.child first) caller state =
      ⟨middle, before, .value ()⟩)
    (then_ : interp.run (self.child second) caller middle =
      ⟨final, after, .value ()⟩) :
    interp.executeChilds self caller state =
      ⟨final, before ++ after, .value ()⟩ := by
  have both : Prog.forEach (fun tag => interp.run (self.child tag) caller)
      [first, second] state = ⟨final, before ++ after, .value ()⟩ := by
    unfold Prog.forEach
    rw [Prog.bind_eq ran, Prog.forEach_singleton, then_]
  unfold Interp.executeChilds
  rw [childs, text, Prog.bind_eq both]
  simp [Prog.emit]

theorem childs_around {interp : Interp W} {first second third : Tag}
    {one two final : St W} {before between after : Str}
    (childs : self.tag.childs = [first, second, third])
    (text : self.tag.text = [])
    (ran : interp.run (self.child first) caller state =
      ⟨one, before, .value ()⟩)
    (then_ : interp.run (self.child second) caller one =
      ⟨two, between, .value ()⟩)
    (last : interp.run (self.child third) caller two =
      ⟨final, after, .value ()⟩) :
    interp.executeChilds self caller state =
      ⟨final, before ++ (between ++ after), .value ()⟩ := by
  have all : Prog.forEach (fun tag => interp.run (self.child tag) caller)
      [first, second, third] state =
      ⟨final, before ++ (between ++ after), .value ()⟩ := by
    unfold Prog.forEach
    rw [Prog.bind_eq ran]
    unfold Prog.forEach
    rw [Prog.bind_eq then_, Prog.forEach_singleton, last]
  unfold Interp.executeChilds
  rw [childs, text, Prog.bind_eq all]
  simp [Prog.emit]

/-- The content of a round returns and leaves the test alone, if it gets
enough depth. -/
def RoundReturns (outside : Outside W) (n : Nat) (up : List Tag) (self : Loc)
    (state : St W) : Prop :=
  ∀ depth caller,
    Halts (execute outside depth ((whileIfLoc n up).child (executeTag (n + 7)))
      caller (whileEntered n up self state)) ∨
    ∃ middle out,
      execute outside depth ((whileIfLoc n up).child (executeTag (n + 7)))
        caller (whileEntered n up self state) = ⟨middle, out, .value ()⟩ ∧
      Looping middle

/-- One round of the loop: the next one gets less depth. -/
theorem while_round (library : Library n up) {bound : Nat}
    (again : ∀ depth < bound, ∀ (caller : Option Loc) (state : St W),
      Looping state →
      Halts (execute outside depth (whileAgainLoc n up) caller state))
    (calls : TestCall self ⟨whileTag n, up⟩ text) (chain : state.contexts ≠ [])
    (evaluated : ∀ depth, Function.Evaluates outside depth (state.withLayer ∅)
      text "1".toList)
    (returns : RoundReturns outside n up self state) :
    ∀ depth < bound + 1, Halts (execute outside depth self caller state) := by
  intro depth less
  have entered : (tested self ⟨whileTag n, up⟩ "1".toList state).contexts ≠ [] :=
    tested_chain chain
  have asked (depth : Nat) := evaluates_outer outside depth entered
    (getValue_tested chain) (show "test".toList.all Lexer.isVariableChar = true
      from rfl)
  refine calls.halts chain evaluated fun first one => ?_
  refine definition_halts rfl rfl rfl calls.isUsr fun second two => ?_
  refine if_halts library.if_call entered asked fun rest three => ?_
  refine childs_halt rfl ((returns rest _).imp id ?_)
  rintro ⟨middle, out, ran, looping⟩
  exact ⟨middle, out, ran, again rest (by omega) _ middle looping⟩

theorem exec_taken {call : Loc} {calls : List Loc}
    (top : state.exec = call :: calls) :
    (taken self call state).exec = calls := by
  have popped := exec_popCall (state.record (.reached self state.exec))
  exact popped.trans (congrArg List.tail top)

/-- The loop in `lib:while` has no content. -/
theorem again_returns (chain : state.contexts ≠ []) :
    RoundReturns outside n up (whileAgainLoc n up) state := by
  intro depth caller
  cases depth with
  | zero => exact .inl rfl
  | succ less =>
      right
      have top := @exec_whileEntered W (whileAgainLoc n up) state n up chain
      have nothing (state : St W) : (Interp.ofRun outside less
          (execute outside less)).executeChilds (whileAgainLoc n up)
          (some ((whileIfLoc n up).child (executeTag (n + 7)))) state =
          ⟨state, [], .value ()⟩ := rfl
      have inside : Looping (taken ((whileIfLoc n up).child
          (executeTag (n + 7))) (whileAgainLoc n up)
          (whileEntered n up (whileAgainLoc n up) state)) :=
        (looping_whileEntered chain).taken
      exact ⟨_, _, execute_returns top (nothing _), inside.givenBack⟩

/-- A loop that goes on when it comes to its next round goes on for ever. -/
theorem while_never_ends (library : Library n up) (bound : Nat) :
    ∀ depth < bound, ∀ (caller : Option Loc) (state : St W), Looping state →
      Halts (execute outside depth (whileAgainLoc n up) caller state) := by
  induction bound with
  | zero => exact fun depth less => absurd less (Nat.not_lt_zero depth)
  | succ bound induction =>
      intro depth less caller state looping
      have asked (depth : Nat) := evaluates_outer outside depth looping.chain
        looping.test (show "test".toList.all Lexer.isVariableChar = true
          from rfl)
      exact while_round library induction library.while_again looping.chain
        asked (again_returns looping.chain) depth less

end While

end Levels

end Operators

end DbPager
