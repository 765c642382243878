import DbPager.Context
import DbPager.Outside

/-!
# The state of a running script

Besides the chain of contexts, a run owns the vectors and maps of its
`dbp:list` and `dbp:map` tags and the outside world.  It also keeps a trace
of what happened.  The trace is only ever written, never read: it is there
for statements about runs.
-/

namespace DbPager

open Effect

/-- The places where a variable layer is entered or left outside the `try`
block that is meant to balance it. -/
inductive Leak where
  | splitParameter
  | ldapConnect
  | ldapRebind
  | odbcClose
  | pgsqlLogger
  deriving DecidableEq, Repr

inductive Event where
  /-- A call has selected a definition and pushed itself. -/
  | call (caller definition : Loc)
  /-- The definition has ended, normally or by an exception. -/
  | ret
  /-- A `dbp:execute` is entered, with the call stack at that moment. -/
  | reached (self : Loc) (exec : List Loc)
  /-- A `dbp:execute` starts to render the slot of a call that has the given
  name, or its body if the name is empty. -/
  | render (self caller : Loc) (name : Str)
  /-- The body has been rendered and the call is pushed back. -/
  | rendered
  /-- An exception leaves a `dbp:execute`; the call is not pushed back. -/
  | unwound
  /-- An exception passes one of the places above. -/
  | leak (place : Leak)

/-- A change of a standard container, as far as it matters to iterators. -/
inductive Change (κ : Type) where
  /-- An insertion; `moved` when the container had to move its elements. -/
  | grown (moved : Bool)
  | erased (position : κ)
  | cleared

/-- A container with everything that has happened to it, latest first. -/
structure Container (α κ : Type) where
  content : α
  changes : List (Change κ)

namespace Container

variable {α κ : Type}

def change (container : Container α κ) (content : α) (change : Change κ) :
    Container α κ :=
  { content, changes := change :: container.changes }

/-- What has happened since the container was in the given state. -/
def changesSince (container before : Container α κ) : List (Change κ) :=
  container.changes.take (container.changes.length - before.changes.length)

end Container

/-- `std::vector<std::string>`; iterators are positions. -/
abbrev Vector := Container (List Str) Nat

/-- `string_map`; iterators are keys. -/
abbrev StringMap := Container Vars Str

structure St (W : Type) where
  contexts : List Context
  vectors : AList fun _ : Nat => Vector
  maps : AList fun _ : Nat => StringMap
  nextAddr : Nat
  world : W
  trace : List Event

namespace St

variable {W : Type}

/-- The call stack of the context at hand. -/
def exec (state : St W) : List Loc :=
  match state.contexts with
  | [] => []
  | context :: _ => context.exec

def mapHead (change : Context → Context) (state : St W) : St W :=
  { state with contexts := state.contexts.modifyHead change }

/-- The state without the innermost layer of the context at hand. -/
def dropLayer (state : St W) : St W :=
  state.mapHead Context.dropLayer

/-- The state with one more layer in the context at hand. -/
def withLayer (layer : Vars) (state : St W) : St W :=
  { state with contexts := Chain.withLayer layer state.contexts }

def record (event : Event) (state : St W) : St W :=
  { state with trace := event :: state.trace }

/-- There is a layer that can be left. -/
def Layered (state : St W) : Prop :=
  ∃ context parents, state.contexts = context :: parents ∧ context.stack ≠ []

end St

/-- Programs of the interpreter. -/
abbrev M (W α : Type) := Prog (St W) Exc Char α

namespace M

variable {W α : Type}

def getValue (name : Str) : M W Str :=
  Prog.read fun state => Chain.getValue name state.contexts

def setValue (dcl : Dcl) (name value : Str) : M W Unit :=
  Prog.act fun state =>
    match Chain.setValue name value state.contexts with
    | some contexts => ({ state with contexts }, .value ())
    | none =>
        (state, .error
          (dcl.exception "variable \x7b0\x7d is not defined" [name]))

/-- `add_value` with an explicit type. -/
def addTyped (dcl : Dcl) (name value type : Str) : M W Unit :=
  Prog.act fun state =>
    match Chain.addValue dcl name value type state.contexts with
    | .value contexts => ({ state with contexts }, .value ())
    | .error exception => (state, .error exception)
    | .halt reason => (state, .halt reason)

/-- `add_value` without a type. -/
def addValue (dcl : Dcl) (name value : Str) : M W Unit :=
  addTyped dcl name value []

def enter : M W Unit :=
  Prog.modify (St.mapHead Context.enter)

/-- `context::leave`; leaving an empty stack is not defined. -/
def leave : M W Unit :=
  Prog.act fun state =>
    match state.contexts with
    | [] => (state, .halt .fault)
    | context :: _ =>
        match context.stack with
        | [] => (state, .halt .fault)
        | _ :: _ => (state.dropLayer, .value ())

/-- Enter a layer, run the body, and leave the layer however the body ends. -/
def withLayer (body : M W α) : M W α := do
  enter
  let result ← body.onError leave
  leave
  pure result

def push (loc : Loc) : M W Unit :=
  Prog.modify (St.mapHead (Context.push loc))

/-- `context::pop`; there is no call when the stack is empty. -/
def pop : M W (Option Loc) :=
  Prog.act fun state =>
    match state.exec with
    | [] => (state, .value none)
    | loc :: _ => (state.mapHead Context.popCall, .value (some loc))

def record (event : Event) : M W Unit :=
  Prog.modify (St.record event)

def io (operation : Io W α) : M W α :=
  Prog.act fun state =>
    ({ state with world := (operation state.world).1 },
      (operation state.world).2)

/-- An operation on the world that returns without fail. -/
def effect (operation : W → W × α) : M W α :=
  io fun world => ((operation world).1, .value (operation world).2)

/-- A change of the world that returns nothing. -/
def change (operation : W → W) : M W Unit :=
  effect fun world => (operation world, ())

/-- The pointer a handle variable holds. -/
def pointer (dcl : Dcl) (text : Str) : M W Nat :=
  Prog.orThrow (dcl.conversionException text) (dcl.fromStringPtr text)

def int (dcl : Dcl) (text : Str) : M W Int :=
  Prog.orThrow (dcl.conversionException text) (dcl.fromStringInt text)

/-- A local variable that holds an empty container; its lifetime ends with
the body. -/
def withObject (create destroy : Nat → St W → St W) (body : Nat → M W α) :
    M W α := do
  let addr ← Prog.read St.nextAddr
  Prog.modify fun state =>
    create addr { state with nextAddr := state.nextAddr + 1 }
  let result ← (body addr).onError (Prog.modify (destroy addr))
  Prog.modify (destroy addr)
  pure result

def withVector : (Nat → M W α) → M W α :=
  withObject
    (fun addr state =>
      { state with vectors := state.vectors.insert addr ⟨[], []⟩ })
    (fun addr state => { state with vectors := state.vectors.erase addr })

def withMap : (Nat → M W α) → M W α :=
  withObject
    (fun addr state => { state with maps := state.maps.insert addr ⟨∅, []⟩ })
    (fun addr state => { state with maps := state.maps.erase addr })

/-- Dereferencing a pointer that is not the address of a live vector is not
defined. -/
def getVector (addr : Nat) : M W Vector :=
  Prog.act fun state =>
    match state.vectors.lookup addr with
    | some vector => (state, .value vector)
    | none => (state, .halt .fault)

def setVector (addr : Nat) (vector : Vector) : M W Unit :=
  Prog.modify fun state =>
    { state with vectors := state.vectors.insert addr vector }

def getMap (addr : Nat) : M W StringMap :=
  Prog.act fun state =>
    match state.maps.lookup addr with
    | some map => (state, .value map)
    | none => (state, .halt .fault)

def setMap (addr : Nat) (map : StringMap) : M W Unit :=
  Prog.modify fun state =>
    { state with maps := state.maps.insert addr map }

theorem leave_eq {state : St W} (layered : state.Layered) :
    leave state = ⟨state.dropLayer, [], .value ()⟩ := by
  obtain ⟨context, parents, chain, layers⟩ := layered
  cases stack : context.stack with
  | nil => exact absurd stack layers
  | cons layer rest => simp [leave, Prog.act, chain, stack]

theorem pop_eq (state : St W) :
    pop state = ⟨state.mapHead Context.popCall, [], .value state.exec.head?⟩ := by
  rcases state with ⟨contexts, vectors, maps, nextAddr, world, trace⟩
  cases contexts with
  | nil => rfl
  | cons context parents =>
      rcases context with ⟨type, stack, exec, services⟩
      cases exec <;> rfl

/-- Leaving a layer raises no exception. -/
theorem leave_raises_nothing (state : St W) (exception : Exc) :
    (leave state).outcome ≠ .error exception := by
  unfold leave Prog.act
  simp only
  intro raised
  split at raised
  · cases raised
  · split at raised <;> cases raised

theorem leave_world (state : St W) :
    (leave state).state.world = state.world := by
  unfold leave Prog.act
  simp only
  split
  · rfl
  · split
    · rfl
    · rfl

/-- What leaving a layer does not change, a layer around a program does not
change either. -/
theorem withLayer_view {γ : Type} {view : St W → γ}
    (left : ∀ state, view (leave state).state = view state) (body : M W α)
    (state : St W) :
    view (withLayer body state).state =
      view (body (state.withLayer ∅)).state := by
  have entered : enter state = ⟨state.withLayer ∅, [], .value ()⟩ := rfl
  have after : ∀ (result : α) (state : St W),
      view ((leave >>= fun _ => pure result : M W α) state).state =
        view state := by
    intro result state
    exact (Prog.view_bind (fun _ _ => rfl) leave state).trans (left state)
  unfold withLayer
  rw [Prog.bind_silent entered]
  apply (Prog.view_bind after _ _).trans
  exact Prog.view_onError left _ _

theorem leave_trace (state : St W) :
    (leave state).state.trace = state.trace := by
  unfold leave Prog.act
  simp only
  split
  · rfl
  · split
    · rfl
    · rfl

theorem addValue_world (dcl : Dcl) (name value : Str) (state : St W) :
    (addValue dcl name value state).state.world = state.world := by
  unfold addValue addTyped Prog.act
  simp only
  split
  · rfl
  · rfl
  · rfl

theorem getValue_eq (name : Str) (state : St W) :
    getValue name state =
      ⟨state, [], .value (Chain.getValue name state.contexts)⟩ :=
  rfl

theorem io_eq {operation : Io W α} {state : St W} {world : W}
    {outcome : Outcome Exc α}
    (ran : operation state.world = (world, outcome)) :
    io operation state = ⟨{ state with world }, [], outcome⟩ := by
  change (⟨{ state with world := (operation state.world).1 }, [],
    (operation state.world).2⟩ : Run _ Exc Char α) = _
  rw [ran]

theorem change_eq (operation : W → W) (state : St W) :
    change operation state =
      ⟨{ state with world := operation state.world }, [], .value ()⟩ :=
  rfl

theorem addValue_withLayer (dcl : Dcl) (name value : Str) (before : Vars)
    {contexts : List Context} (chain : contexts ≠ []) {state : St W}
    (same : state.contexts = Chain.withLayer before contexts) :
    addValue dcl name value state =
      ⟨{ state with contexts :=
          Chain.withLayer (before.insert (upName name) value) contexts },
        [], .value ()⟩ := by
  cases contexts with
  | nil => exact absurd rfl chain
  | cons context parents =>
      have added := Chain.addValue_untyped dcl name value
        { context with stack := before :: context.stack } parents
        (List.cons_ne_nil _ _)
      have whole : state.contexts =
          { context with stack := before :: context.stack } :: parents := same
      simp [addValue, addTyped, Prog.act, whole, added, Chain.withLayer,
        Context.addValue]

/-- A layer around a body that returns. -/
theorem withLayer_left {body : M W α} {state middle final : St W} {out : Str}
    {result : α} (ran : body (state.withLayer ∅) = ⟨middle, out, .value result⟩)
    (left : leave middle = ⟨final, [], .value ()⟩) :
    withLayer body state = ⟨final, out, .value result⟩ := by
  have entered : enter state = ⟨state.withLayer ∅, [], .value ()⟩ := rfl
  unfold withLayer
  rw [Prog.bind_silent entered, Prog.bind_eq (Prog.onError_eq ran leave),
    Prog.bind_silent left]
  simp [pure, Prog.pure]

/-- A layer around a body that comes to an end. -/
theorem withLayer_finished {α : Type} {body : M W α} {state last : St W}
    {out : Str} {outcome : Outcome Exc α}
    (ran : body (state.withLayer ∅) = ⟨last, out, outcome⟩)
    (finished : outcome.Finished) (layered : last.Layered) :
    withLayer body state = ⟨last.dropLayer, out, outcome⟩ := by
  have entered : enter state = ⟨state.withLayer ∅, [], .value ()⟩ := rfl
  have left := leave_eq layered
  cases outcome with
  | value result => exact withLayer_left ran left
  | error exception =>
      have handed := Prog.onError_error ran leave
      rw [left] at handed
      unfold withLayer
      rw [Prog.bind_silent entered, Prog.bind_error handed, List.append_nil]
  | halt reason => exact finished.elim

/-- A body that only changes the new layer leaves no trace of it. -/
theorem withLayer_eq {body : M W α} {state middle : St W} {layer : Vars}
    {out : Str} {result : α} (chain : state.contexts ≠ [])
    (ran : body (state.withLayer ∅) = ⟨middle, out, .value result⟩)
    (same : middle.contexts = Chain.withLayer layer state.contexts) :
    withLayer body state =
      ⟨{ middle with contexts := state.contexts }, out, .value result⟩ := by
  have left : leave middle =
      ⟨{ middle with contexts := state.contexts }, [], .value ()⟩ := by
    cases contexts : state.contexts with
    | nil => exact absurd contexts chain
    | cons context parents =>
        rw [contexts] at same
        simp [leave, Prog.act, same, Chain.withLayer, St.dropLayer, St.mapHead,
          Context.dropLayer]
  exact withLayer_left ran left

end M

/-- What the `execute` method of a tag needs: the outside world, a bound for
its loops, virtual calls of `execute` on other tags, and the evaluation of an
expression in the scope of a list of tags. -/
structure Interp (W : Type) where
  outside : Outside W
  budget : Nat
  run : Loc → Option Loc → M W Unit
  evaluate : List Tag → Str → M W Str

namespace Interp

variable {W : Type} (interp : Interp W)

def dcl : Dcl := interp.outside.dcl

/-- The `tag_expression` that holds the text of a parameter. -/
def paramTag (text : Str) : Tag :=
  .mk 0 .expression [] [] text

/-- Execute one parameter of a tag and return its output. -/
def executeParam (self : Loc) (text : Str) : M W Str :=
  interp.evaluate (paramTag text :: self.tag :: self.up) text

/-- `tag_impl::get_parameter`. -/
def getParameter (self : Loc) (name : String) : M W Str :=
  match self.findParam name.toList with
  | some text => interp.executeParam self text
  | none => pure []

/-- `tag_impl::execute`: the children in order, then the tag's own text. -/
def executeChilds (self : Loc) (caller : Option Loc) : M W Unit := do
  Prog.forEach (fun tag => interp.run (self.child tag) caller) self.tag.childs
  Prog.emit self.tag.text

end Interp

end DbPager
