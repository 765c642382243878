import DbPager.Interpreter

/-!
# What ordinary tags can do to the contexts

A contract is tolerant if it allows what every ordinary tag may do besides
running its children: change values, declare a variable in a parent context,
touch anything but the contexts, and pass one of the known leaks.  Tolerant
contracts carry over to the inside of a new variable layer, which is what
makes one proof per tag enough for all of them.
-/

namespace DbPager

open Effect

variable {W α β : Type}

namespace St

/-- Exchange the variable layers of the context at hand. -/
def withStack (stack : List Vars) (state : St W) : St W :=
  state.mapHead fun context => { context with stack }

theorem dropLayer_enter (state : St W) :
    (state.mapHead Context.enter).dropLayer = state := by
  rcases state with ⟨contexts, vectors, maps, nextAddr, world, trace⟩
  cases contexts <;> rfl

theorem dropLayer_congr {first second : St W}
    (contexts : second.contexts = first.contexts) :
    second.dropLayer.contexts = first.dropLayer.contexts := by
  simp [dropLayer, mapHead, contexts]

@[simp] theorem dropLayer_trace (state : St W) :
    state.dropLayer.trace = state.trace := rfl

theorem withStack_dropLayer (state : St W) :
    ∃ stack, state = state.dropLayer.withStack stack := by
  rcases state with ⟨contexts, vectors, maps, nextAddr, world, trace⟩
  cases contexts with
  | nil => exact ⟨[], rfl⟩
  | cons context parents => exact ⟨context.stack, rfl⟩

theorem dropLayer_withStack (state : St W) (stack : List Vars) :
    (state.withStack stack).dropLayer =
      state.dropLayer.withStack stack.tail := by
  rcases state with ⟨contexts, vectors, maps, nextAddr, world, trace⟩
  cases contexts <;> rfl

end St

/-- What a contract must allow so that every ordinary tag keeps it. -/
structure Tolerant (dcl : Dcl) (contract : Contract (St W)) : Prop where
  quiet : ∀ {first second : St W}, second.contexts = first.contexts →
    second.trace = first.trace → contract.done first second
  assign : ∀ {state : St W} {name value : Str} {contexts : List Context},
    Chain.setValue name value state.contexts = some contexts →
    contract.done state { state with contexts }
  declare : ∀ {state : St W} {name value type : Str} {context : Context}
      {parents changed : List Context},
    state.contexts = context :: parents → type ≠ [] →
    dcl.compare type context.type = false →
    Chain.addValue dcl name value type parents = .value changed →
    contract.done state { state with contexts := context :: changed }
  drop : ∀ {first second : St W}, contract.done first second →
    contract.done first.dropLayer second.dropLayer
  drop_halted : ∀ {first second : St W}, contract.halted first second →
    contract.halted first.dropLayer second.dropLayer
  halt_inside : ∀ {first second : St W},
    contract.halted first second.dropLayer → contract.halted first second
  leak : ∀ {first second : St W} (stack : List Vars) (place : Leak),
    contract.done first second →
    contract.done first ((second.withStack stack).record (.leak place))

/-- A contract as it is seen from inside a new layer: it says nothing about
the innermost layer. -/
def inLayer (contract : Contract (St W)) : Contract (St W) where
  done first second := contract.done first.dropLayer second.dropLayer
  halted first second := contract.halted first.dropLayer second.dropLayer
  done_refl state := contract.done_refl state.dropLayer
  done_trans := contract.done_trans
  halted_refl state := contract.halted_refl state.dropLayer
  done_halted := contract.done_halted

/-- A program that stops inside a layer is judged as if it had left it. -/
def HaltsInside (contract : Contract (St W)) : Prop :=
  ∀ first second : St W, contract.halted first second.dropLayer →
    contract.halted first second

/-- The program ends outside the layer it starts in, or passes a leak. -/
def Closes (contract : Contract (St W)) (program : M W α) : Prop :=
  ∀ state, (program state).Meets contract state.dropLayer

theorem assignVar_tail {name value : Str} {layer : Vars}
    {layers changed : List Vars}
    (result : assignVar name value (layer :: layers) = some changed) :
    changed.tail = layers ∨
      assignVar name value layers = some changed.tail := by
  unfold assignVar at result
  split at result
  · cases result
    exact .inl rfl
  · obtain ⟨rest, assigned, rfl⟩ := Option.map_eq_some_iff.mp result
    exact .inr assigned

/-- An assignment seen from outside the innermost layer is no change, or an
assignment there. -/
theorem setValue_dropLayer {name value : Str} {contexts changed : List Context}
    (result : Chain.setValue name value contexts = some changed) :
    changed.modifyHead Context.dropLayer =
        contexts.modifyHead Context.dropLayer ∨
      Chain.setValue name value (contexts.modifyHead Context.dropLayer) =
        some (changed.modifyHead Context.dropLayer) := by
  cases contexts with
  | nil => simp [Chain.setValue] at result
  | cons context parents =>
      rcases context with ⟨type, stack, exec, services⟩
      cases stack with
      | nil =>
          simp only [Chain.setValue, assignVar] at result
          obtain ⟨rest, assigned, rfl⟩ := Option.map_eq_some_iff.mp result
          right
          simp [Chain.setValue, Context.dropLayer, assignVar, assigned]
      | cons layer layers =>
          simp only [Chain.setValue] at result
          split at result
          · rename_i found assigned
            cases result
            rcases assignVar_tail assigned with same | below
            · left
              simp [Context.dropLayer, same]
            · right
              simp [Chain.setValue, Context.dropLayer, below]
          · rename_i missing
            obtain ⟨rest, assigned, rfl⟩ := Option.map_eq_some_iff.mp result
            right
            have below : assignVar (upName name) value layers = none := by
              unfold assignVar at missing
              split at missing
              · cases missing
              · exact Option.map_eq_none_iff.mp missing
            simp [Chain.setValue, Context.dropLayer, below, assigned]

namespace Tolerant

variable {dcl : Dcl} {contract : Contract (St W)}

theorem haltsInside (tolerant : Tolerant dcl contract) :
    HaltsInside contract :=
  fun _ _ => tolerant.halt_inside

protected theorem inLayer (tolerant : Tolerant dcl contract) :
    Tolerant dcl (inLayer contract) where
  quiet contexts trace :=
    tolerant.quiet (St.dropLayer_congr contexts) trace
  assign := by
    intro state name value contexts result
    rcases setValue_dropLayer result with same | assigned
    · exact tolerant.quiet same rfl
    · exact @Tolerant.assign _ _ _ tolerant state.dropLayer _ _ _ assigned
  declare := by
    intro state name value type context parents changed chain named other added
    have below : state.dropLayer.contexts = context.dropLayer :: parents := by
      simp [St.dropLayer, St.mapHead, chain]
    exact tolerant.declare below named other added
  drop := tolerant.drop
  drop_halted := tolerant.drop_halted
  halt_inside := tolerant.halt_inside
  leak := by
    intro first second stack place finished
    have leaked := tolerant.leak stack.tail place finished
    rw [← St.dropLayer_withStack] at leaked
    exact leaked

/-- What keeps a contract outside a layer keeps it inside as well. -/
theorem raise (tolerant : Tolerant dcl contract) {program : M W α}
    (keeps : Keeps contract program) : Keeps (inLayer contract) program := by
  intro state
  have meets := keeps state
  generalize program state = run at meets ⊢
  rcases run with ⟨final, out, outcome⟩
  cases outcome with
  | value result => exact tolerant.drop meets
  | error exception => exact tolerant.drop meets
  | halt reason => exact tolerant.drop_halted meets

theorem act (tolerant : Tolerant dcl contract)
    {step : St W → St W × Outcome Exc α}
    (contexts : ∀ state, (step state).1.contexts = state.contexts)
    (trace : ∀ state, (step state).1.trace = state.trace) :
    Keeps contract (Prog.act step : M W α) :=
  Keeps.act fun state => tolerant.quiet (contexts state) (trace state)

theorem getValue (name : Str) : Keeps contract (M.getValue name : M W Str) :=
  Keeps.read _

theorem setValue (tolerant : Tolerant dcl contract) (messages : Dcl)
    (name value : Str) :
    Keeps contract (M.setValue messages name value : M W Unit) := by
  refine Keeps.act fun state => ?_
  cases result : Chain.setValue name value state.contexts with
  | some contexts => exact tolerant.assign result
  | none => exact contract.done_refl state

theorem io (tolerant : Tolerant dcl contract) (operation : Io W α) :
    Keeps contract (M.io operation) :=
  tolerant.act (fun _ => rfl) fun _ => rfl

theorem effect (tolerant : Tolerant dcl contract)
    (operation : W → W × α) : Keeps contract (M.effect operation) :=
  tolerant.io _

theorem change (tolerant : Tolerant dcl contract) (operation : W → W) :
    Keeps contract (M.change operation) :=
  tolerant.effect _

theorem pointer (messages : Dcl) (text : Str) :
    Keeps contract (M.pointer messages text : M W Nat) :=
  Keeps.orThrow _ _

theorem int (messages : Dcl) (text : Str) :
    Keeps contract (M.int messages text : M W Int) :=
  Keeps.orThrow _ _

theorem orTimeout (result : Option α) :
    Keeps contract (M.orTimeout result : M W α) := by
  cases result with
  | none => exact Keeps.halt .timeout
  | some result => exact Keeps.pure result

theorem getVector (tolerant : Tolerant dcl contract) (addr : Nat) :
    Keeps contract (M.getVector addr : M W Vector) := by
  refine Keeps.act fun state => tolerant.quiet ?_ ?_ <;>
    cases state.vectors.lookup addr <;> rfl

theorem getMap (tolerant : Tolerant dcl contract) (addr : Nat) :
    Keeps contract (M.getMap addr : M W StringMap) := by
  refine Keeps.act fun state => tolerant.quiet ?_ ?_ <;>
    cases state.maps.lookup addr <;> rfl

theorem setVector (tolerant : Tolerant dcl contract) (addr : Nat)
    (vector : Vector) : Keeps contract (M.setVector addr vector : M W Unit) :=
  Keeps.modify fun _ => tolerant.quiet rfl rfl

theorem setMap (tolerant : Tolerant dcl contract) (addr : Nat)
    (map : StringMap) : Keeps contract (M.setMap addr map : M W Unit) :=
  Keeps.modify fun _ => tolerant.quiet rfl rfl

theorem withVector (tolerant : Tolerant dcl contract) {body : Nat → M W α}
    (keeps : ∀ addr, Keeps contract (body addr)) :
    Keeps contract (M.withVector body) := by
  refine Keeps.bind (Keeps.read _) fun addr => ?_
  refine Keeps.bind (Keeps.modify fun _ => tolerant.quiet rfl rfl) fun _ => ?_
  refine Keeps.bind (Keeps.onError (keeps addr) ?_) fun result => ?_
  · exact Keeps.modify fun _ => tolerant.quiet rfl rfl
  · refine Keeps.bind (Keeps.modify fun _ => ?_) fun _ => Keeps.pure result
    exact tolerant.quiet rfl rfl

theorem withMap (tolerant : Tolerant dcl contract) {body : Nat → M W α}
    (keeps : ∀ addr, Keeps contract (body addr)) :
    Keeps contract (M.withMap body) := by
  refine Keeps.bind (Keeps.read _) fun addr => ?_
  refine Keeps.bind (Keeps.modify fun _ => tolerant.quiet rfl rfl) fun _ => ?_
  refine Keeps.bind (Keeps.onError (keeps addr) ?_) fun result => ?_
  · exact Keeps.modify fun _ => tolerant.quiet rfl rfl
  · refine Keeps.bind (Keeps.modify fun _ => ?_) fun _ => Keeps.pure result
    exact tolerant.quiet rfl rfl

/-- Inside a layer, variables may be added: the binding goes to the layer or
to a parent context. -/
theorem addTyped (tolerant : Tolerant dcl contract) (name value type : Str) :
    Keeps (inLayer contract) (M.addTyped dcl name value type : M W Unit) := by
  refine Keeps.act fun state => ?_
  cases result : Chain.addValue dcl name value type state.contexts with
  | error exception => exact (inLayer contract).done_refl state
  | halt reason => exact (inLayer contract).done_refl state
  | value contexts =>
      rcases chain : state.contexts with _ | ⟨context, parents⟩
      · simp [chain, Chain.addValue] at result
      · rw [chain] at result
        obtain ⟨-, layer, layers, top, rfl⟩ |
          ⟨named, other, changed, added, rfl⟩ := Chain.addValue_cases result
        · refine tolerant.quiet ?_ rfl
          simp [St.dropLayer, St.mapHead, chain, Context.dropLayer, top]
        · exact tolerant.inLayer.declare chain named other added

theorem addValue (tolerant : Tolerant dcl contract) (name value : Str) :
    Keeps (inLayer contract) (M.addValue dcl name value : M W Unit) :=
  tolerant.addTyped name value []

end Tolerant

namespace Closes

variable {dcl : Dcl} {contract : Contract (St W)}

theorem leave : Closes contract (M.leave : M W Unit) := by
  rintro ⟨contexts, vectors, maps, nextAddr, world, trace⟩
  cases contexts with
  | nil => exact contract.halted_refl _
  | cons context parents =>
      rcases context with ⟨type, stack, exec, services⟩
      cases stack with
      | nil => exact contract.halted_refl _
      | cons layer layers => exact contract.done_refl _

theorem leak (tolerant : Tolerant dcl contract) (place : Leak) :
    Closes contract (M.record (.leak place) : M W Unit) := by
  intro state
  obtain ⟨stack, same⟩ := state.withStack_dropLayer
  have leaked := tolerant.leak stack place
    (contract.done_refl state.dropLayer)
  rw [← same] at leaked
  exact leaked

/-- A layer that is closed stays closed. -/
theorem bind {first : M W α} {next : α → M W β}
    (closes : Closes contract first)
    (keeps : ∀ result, Keeps contract (next result)) :
    Closes contract (first >>= next) := by
  intro state
  refine (Prog.wp_bind first next state _).mpr ?_
  refine Prog.Wp.mono (closes state) fun outcome middle meets => ?_
  cases outcome with
  | value result => exact Run.Meets.after meets (keeps result middle)
  | error exception => exact meets
  | halt reason => exact meets

/-- A step inside the layer that does not raise. -/
theorem after (inside : HaltsInside contract) {first : M W α}
    {next : α → M W β} (keeps : Keeps (inLayer contract) first)
    (calm : ∀ state exception, (first state).outcome ≠ .error exception)
    (nextCloses : ∀ result, Closes contract (next result)) :
    Closes contract (first >>= next) := by
  intro state
  refine (Prog.wp_bind first next state _).mpr ?_
  have both : first.Wp state fun outcome middle =>
      (inLayer contract).Post state outcome middle ∧
        ∀ exception, outcome ≠ .error exception :=
    ⟨keeps state, calm state⟩
  refine both.mono fun outcome middle => ?_
  rintro ⟨meets, quiet⟩
  cases outcome with
  | value result => exact Run.Meets.after meets (nextCloses result middle)
  | error exception => exact absurd rfl (quiet exception)
  | halt reason => exact inside _ _ meets

/-- A `try` block inside the layer: both the handler and what follows have
to close the layer. -/
theorem guarded (inside : HaltsInside contract) {body : M W α}
    {cleanup : M W Unit} {next : α → M W β}
    (keeps : Keeps (inLayer contract) body)
    (cleanupCloses : Closes contract cleanup)
    (nextCloses : ∀ result, Closes contract (next result)) :
    Closes contract (body.onError cleanup >>= next) := by
  intro state
  refine (Prog.wp_bind _ next state _).mpr ?_
  refine (Prog.wp_tryCatch body _ state _).mpr ?_
  refine Prog.Wp.mono (keeps state) fun outcome middle meets => ?_
  cases outcome with
  | value result => exact Run.Meets.after meets (nextCloses result middle)
  | halt reason => exact inside _ _ meets
  | error exception =>
      refine (Prog.wp_bind cleanup _ middle _).mpr ?_
      refine Prog.Wp.mono (cleanupCloses middle) fun outcome final closed => ?_
      cases outcome with
      | value result => exact contract.done_trans meets closed
      | error exception => exact contract.done_trans meets closed
      | halt reason => exact contract.done_halted meets closed

theorem leave_calm (contract : Contract (St W)) (state : St W) :
    (M.leave : M W Unit).Wp state fun outcome final =>
      contract.Post state.dropLayer outcome final ∧
        ∀ exception, outcome ≠ .error exception := by
  refine ⟨leave state, fun exception => ?_⟩
  unfold M.leave Prog.act
  simp only
  split
  · simp
  · split <;> simp

/-- The `try` block that leaves the layer as its last step. -/
theorem tryLeave (inside : HaltsInside contract) {body : M W Unit}
    {handler : Exc → M W Unit} (keeps : Keeps (inLayer contract) body)
    (handlerCloses : ∀ exception, Closes contract (handler exception)) :
    Closes contract
      (Prog.tryCatch (body >>= fun _ => M.leave) handler) := by
  intro state
  refine (Prog.wp_tryCatch _ handler state _).mpr ?_
  refine (Prog.wp_bind body _ state _).mpr ?_
  refine Prog.Wp.mono (keeps state) fun outcome middle meets => ?_
  cases outcome with
  | halt reason => exact inside _ _ meets
  | error exception =>
      exact Run.Meets.after meets (handlerCloses exception middle)
  | value result =>
      refine Prog.Wp.mono (leave_calm contract middle) ?_
      rintro outcome final ⟨closed, calm⟩
      cases outcome with
      | value result => exact contract.done_trans meets closed
      | error exception => exact absurd rfl (calm exception)
      | halt reason => exact contract.done_halted meets closed

/-- Enter a layer and run a program that closes it. -/
theorem enter {next : M W α} (closes : Closes contract next) :
    Keeps contract (M.enter >>= fun _ => next) := by
  intro state
  have meets := closes (state.mapHead Context.enter)
  rw [St.dropLayer_enter] at meets
  exact meets

/-- A layer around a body that only changes the layer. -/
theorem withLayer (inside : HaltsInside contract) {body : M W α}
    (keeps : Keeps (inLayer contract) body) :
    Keeps contract (M.withLayer body) := by
  apply enter
  apply guarded inside keeps leave
  intro result
  exact leave.bind fun _ => Keeps.pure result

end Closes

namespace Tolerant

variable {dcl : Dcl} {contract : Contract (St W)}

theorem withLayer (tolerant : Tolerant dcl contract) {body : M W α}
    (keeps : Keeps (inLayer contract) body) :
    Keeps contract (M.withLayer body) :=
  Closes.withLayer tolerant.haltsInside keeps

/-- Leaving a layer that was not entered, once the leak is recorded. -/
theorem leaveTwice (tolerant : Tolerant dcl contract) (place : Leak) :
    Keeps contract
      (do M.record (.leak place); M.leave : M W Unit) := by
  have leaked : ∀ state : St W, ∀ stack,
      contract.done state ((state.withStack stack).record (.leak place)) :=
    fun state stack => tolerant.leak stack place (contract.done_refl state)
  rintro ⟨contexts, vectors, maps, nextAddr, world, trace⟩
  cases contexts with
  | nil => exact contract.halted_of_done (leaked _ [])
  | cons context parents =>
      rcases context with ⟨type, stack, exec, services⟩
      cases stack with
      | nil => exact contract.halted_of_done (leaked _ [])
      | cons layer layers => exact leaked _ layers

/-- A precondition on the contexts that does not look at the innermost
layer. -/
protected theorem given (tolerant : Tolerant dcl contract)
    {pre : St W → Prop}
    (stable : ∀ {first second}, pre first → contract.done first second →
      pre second)
    (outside : ∀ state : St W, pre state.dropLayer → pre state) :
    Tolerant dcl (contract.given pre stable) where
  quiet contexts trace _ := tolerant.quiet contexts trace
  assign result _ := tolerant.assign result
  declare chain named other added _ :=
    tolerant.declare chain named other added
  drop finished holds := tolerant.drop (finished (outside _ holds))
  drop_halted halted holds := tolerant.drop_halted (halted (outside _ holds))
  halt_inside halted holds := tolerant.halt_inside (halted holds)
  leak stack place finished holds :=
    tolerant.leak stack place (finished holds)

end Tolerant

end DbPager
