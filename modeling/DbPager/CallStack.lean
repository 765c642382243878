import DbPager.Ordinary
import DbPager.Plain

/-!
# The stack of calls

`tag_usr` and `tag_call` push themselves while their definition runs, and
`tag_execute` pops the topmost call while it renders the body of that call.
Push and pop are paired on every way out but one: an exception that leaves a
`dbp:execute` does not push the call back.  In a run without that, every
stack of calls is the same afterwards.
-/

namespace DbPager

open Effect

variable {W : Type}

namespace CallStack

/-- The stacks of calls of all contexts. -/
def execs (state : St W) : List (List Loc) :=
  state.contexts.map Context.exec

/-- Finished programs leave the stacks of calls alone, unless an exception
has left a `dbp:execute`.  The trace only grows. -/
def contract : Contract (St W) where
  done first second :=
    ∃ events, second.trace = events ++ first.trace ∧
      (.unwound ∈ events ∨ execs second = execs first)
  halted first second := first.trace <:+ second.trace
  done_refl state := ⟨[], rfl, .inr rfl⟩
  done_trans := by
    rintro first second third ⟨events, trace, before⟩ ⟨events', trace', after⟩
    refine ⟨events' ++ events, by rw [trace', trace, List.append_assoc], ?_⟩
    rcases before with unwound | before
    · exact .inl (by simp [unwound])
    · exact after.imp (fun unwound => by simp [unwound]) (·.trans before)
  halted_refl _ := List.suffix_rfl
  done_halted := by
    rintro first second third ⟨events, trace, -⟩ grows
    exact List.IsSuffix.trans ⟨events, trace.symm⟩ grows

theorem contract_done_of_execs {first second : St W}
    (grows : ∃ events, second.trace = events ++ first.trace)
    (same : execs second = execs first) : contract.done first second :=
  grows.imp fun _ trace => ⟨trace, .inr same⟩

theorem setValue_execs {name value : Str} {contexts changed : List Context}
    (result : Chain.setValue name value contexts = some changed) :
    changed.map Context.exec = contexts.map Context.exec := by
  induction contexts generalizing changed with
  | nil => simp [Chain.setValue] at result
  | cons context parents induction =>
      unfold Chain.setValue at result
      split at result
      · cases result
        rfl
      · obtain ⟨below, assigned, rfl⟩ := Option.map_eq_some_iff.mp result
        simp [induction assigned]

theorem addValue_execs {dcl : Dcl} {name value type : Str}
    {contexts changed : List Context}
    (result : Chain.addValue dcl name value type contexts = .value changed) :
    changed.map Context.exec = contexts.map Context.exec := by
  induction contexts generalizing changed with
  | nil => simp [Chain.addValue] at result
  | cons context parents induction =>
      obtain ⟨-, layer, layers, top, rfl⟩ | ⟨-, -, below, added, rfl⟩ :=
        Chain.addValue_cases result
      · rfl
      · simp [induction added]

@[simp] theorem execs_dropLayer (state : St W) :
    execs state.dropLayer = execs state := by
  rcases state with ⟨contexts, vectors, maps, nextAddr, world, trace⟩
  cases contexts <;> rfl

@[simp] theorem execs_withStack (stack : List Vars) (state : St W) :
    execs (state.withStack stack) = execs state := by
  rcases state with ⟨contexts, vectors, maps, nextAddr, world, trace⟩
  cases contexts <;> rfl

theorem contract_tolerant (dcl : Dcl) :
    Tolerant dcl (contract : Contract (St W)) where
  quiet contexts trace :=
    contract_done_of_execs ⟨[], trace⟩ (by rw [execs, execs, contexts])
  assign result := contract_done_of_execs ⟨[], rfl⟩ (setValue_execs result)
  declare := by
    intro state name value type context parents changed chain named other added
    refine contract_done_of_execs ⟨[], rfl⟩ ?_
    simp [execs, chain, addValue_execs added]
  drop := by
    rintro first second ⟨events, trace, same⟩
    exact ⟨events, trace, by simpa using same⟩
  drop_halted := id
  halt_inside := id
  leak := by
    rintro first second stack place ⟨events, trace, same⟩
    refine ⟨.leak place :: events, congrArg (Event.leak place :: ·) trace, ?_⟩
    refine same.imp (fun unwound => by simp [unwound]) fun same => ?_
    exact (execs_withStack stack second).trans same

/-- A thread of `dbp:async` starts with no calls and leaves the enclosing
contexts alone. -/
theorem contract_spawn {first second : St W}
    (finished : contract.done
      { first with contexts := Context.newLocal :: first.contexts } second) :
    contract.done first { second with contexts := second.contexts.tail } := by
  obtain ⟨events, trace, same⟩ := finished
  refine ⟨events, trace, same.imp id fun same => ?_⟩
  have tails := congrArg List.tail same
  simpa [execs, List.map_tail] using tails

theorem execs_push (loc : Loc) {first second : St W}
    (same : execs second = execs first) :
    execs (second.mapHead (Context.push loc)) =
      execs (first.mapHead (Context.push loc)) := by
  rcases first with ⟨contexts, vectors, maps, nextAddr, world, trace⟩
  rcases second with ⟨contexts', vectors', maps', nextAddr', world', trace'⟩
  cases contexts <;> cases contexts' <;>
    simp_all [execs, St.mapHead, Context.push]

theorem execs_pop {first second : St W} (same : execs second = execs first) :
    execs (second.mapHead Context.popCall) =
      execs (first.mapHead Context.popCall) := by
  rcases first with ⟨contexts, vectors, maps, nextAddr, world, trace⟩
  rcases second with ⟨contexts', vectors', maps', nextAddr', world', trace'⟩
  cases contexts <;> cases contexts' <;>
    simp_all [execs, St.mapHead, Context.popCall]

theorem pop_push (loc : Loc) (state : St W) :
    (state.mapHead (Context.push loc)).mapHead Context.popCall = state := by
  rcases state with ⟨contexts, vectors, maps, nextAddr, world, trace⟩
  cases contexts <;> rfl

theorem push_pop {loc : Loc} {calls : List Loc} {state : St W}
    (top : state.exec = loc :: calls) :
    (state.mapHead Context.popCall).mapHead (Context.push loc) = state := by
  rcases state with ⟨contexts, vectors, maps, nextAddr, world, trace⟩
  cases contexts with
  | nil => simp [St.exec] at top
  | cons context parents =>
      rcases context with ⟨type, stack, exec, services⟩
      cases top
      rfl

/-- The call on top was popped, and is pushed back. -/
theorem execs_pushBack {call : Loc} {calls : List Loc} {state final : St W}
    (top : state.exec = call :: calls)
    (same : execs final = execs (state.mapHead Context.popCall)) :
    execs (final.mapHead (Context.push call)) = execs state := by
  have pushed := execs_push call same
  rw [push_pop top] at pushed
  exact pushed

/-- There is no call to pop. -/
theorem execs_pop_nil {state : St W} (top : state.exec = []) :
    execs (state.mapHead Context.popCall) = execs state := by
  rcases state with ⟨contexts, vectors, maps, nextAddr, world, trace⟩
  cases contexts with
  | nil => rfl
  | cons context parents =>
      rcases context with ⟨type, stack, exec, services⟩
      cases top
      rfl

theorem wp_pop (state : St W) (post : Outcome Exc (Option Loc) → St W → Prop) :
    M.pop.Wp state post ↔
      post (.value state.exec.head?) (state.mapHead Context.popCall) := by
  rcases state with ⟨contexts, vectors, maps, nextAddr, world, trace⟩
  cases contexts with
  | nil => exact Iff.rfl
  | cons context parents =>
      rcases context with ⟨type, stack, exec, services⟩
      cases exec <;> exact Iff.rfl

section Run

variable {interp : Interp W} {self definition : Loc}

/-- The end of a definition: the call is popped again. -/
theorem returned {state final : St W}
    (finished : contract.done
      ((state.record (.call self definition)).mapHead (Context.push self))
      final) :
    contract.done state
      ((final.mapHead Context.popCall).record .ret) := by
  obtain ⟨events, trace, same⟩ := finished
  refine ⟨.ret :: events ++ [.call self definition], ?_, ?_⟩
  · change Event.ret :: final.trace = _
    rw [trace]
    simp [St.mapHead, St.record]
  · refine same.imp (fun unwound => by simp [unwound]) fun same => ?_
    have popped := execs_pop same
    rw [pop_push] at popped
    exact popped

theorem invoke_keeps
    (runs : Keeps contract (interp.run definition (some self))) :
    Keeps contract (invoke interp self definition) := by
  intro state
  refine (Prog.wp_modify_bind _ _ state _).mpr ?_
  refine (Prog.wp_modify_bind _ _ _ _).mpr ?_
  refine (Prog.wp_bind _ _ _ _).mpr ?_
  refine (Prog.wp_tryCatch _ _ _ _).mpr ?_
  refine Prog.Wp.mono (runs _) fun outcome final meets => ?_
  cases outcome with
  | value result =>
      refine (Prog.wp_bind _ _ _ _).mpr ((wp_pop _ _).mpr ?_)
      exact returned meets
  | error exception =>
      refine (Prog.wp_bind _ _ _ _).mpr ((Prog.wp_bind _ _ _ _).mpr ?_)
      exact (wp_pop _ _).mpr (returned meets)
  | halt reason => exact (List.suffix_cons _ _).trans meets

/-- How the work of a `dbp:execute` on the call on top of the stack may end:
with the call pushed back, or with an exception and without the call. -/
def Rendering (state : St W) : Outcome Exc Unit → St W → Prop
  | .value _, final => contract.done state final
  | .error _, final => contract.done (state.mapHead Context.popCall) final
  | .halt _, final => state.trace <:+ final.trace

theorem Rendering.onError {state middle : St W} {body : M W Unit}
    (holds : body.Wp middle (Rendering state)) :
    (body.onError (M.record .unwound)).Wp middle (contract.Post state) := by
  refine (Prog.wp_tryCatch _ _ _ _).mpr ?_
  refine holds.mono fun outcome final rendering => ?_
  cases outcome with
  | value result => exact rendering
  | halt reason => exact rendering
  | error exception =>
      obtain ⟨events, trace, -⟩ := rendering
      exact ⟨.unwound :: events, congrArg (Event.unwound :: ·) trace,
        .inl (by simp)⟩

section TopCall

variable {call : Loc} {calls : List Loc} {state middle : St W}

theorem pushedBack (top : state.exec = call :: calls)
    (finished : contract.done (state.mapHead Context.popCall) middle) :
    contract.done state (middle.mapHead (Context.push call)) := by
  obtain ⟨events, trace, same⟩ := finished
  exact ⟨events, trace, same.imp id (execs_pushBack top)⟩

theorem render_wp (top : state.exec = call :: calls)
    (before : contract.done (state.mapHead Context.popCall) middle)
    (event : Event) {body : M W Unit} (keeps : Keeps contract body) :
    Prog.Wp (do M.record event; body; M.push call; M.record .rendered)
      middle (Rendering state) := by
  have recorded : contract.done middle (middle.record event) :=
    contract_done_of_execs ⟨[event], rfl⟩ rfl
  have start := contract.done_trans before recorded
  refine (Prog.wp_modify_bind _ _ _ _).mpr ?_
  refine (Prog.wp_bind _ _ _ _).mpr ?_
  refine Prog.Wp.mono (keeps _) fun outcome final meets => ?_
  cases outcome with
  | value result =>
      have pushed := pushedBack top (contract.done_trans start meets)
      exact contract.done_trans pushed
        (contract_done_of_execs ⟨[.rendered], rfl⟩ rfl)
  | error exception => exact contract.done_trans start meets
  | halt reason =>
      have halted := contract.done_halted start meets
      exact halted

end TopCall

/-- A `dbp:execute` is in the trace as soon as it is reached, however its run
goes on. -/
theorem executeTag_meets {caller : Option Loc}
    (serves : Serves contract interp self caller)
    (runs : ∀ loc caller, Keeps contract (interp.run loc caller))
    (childs : ∀ loc caller,
      Keeps contract (interp.executeChilds loc caller)) (state : St W) :
    (TagExecute.execute interp self state).Meets contract
      (state.record (.reached self state.exec)) := by
  refine (Prog.wp_read_bind _ _ state _).mpr ?_
  refine (Prog.wp_modify_bind _ _ _ _).mpr ?_
  generalize state.record (.reached self state.exec) = state
  refine (Prog.wp_bind _ _ _ _).mpr ((wp_pop _ _).mpr ?_)
  cases top : state.exec with
  | nil => exact contract_done_of_execs ⟨[], rfl⟩ (execs_pop_nil top)
  | cons call calls =>
      refine Rendering.onError ?_
      refine (Prog.wp_bind _ _ _ _).mpr ?_
      refine Prog.Wp.mono (serves.getParameter "name" _) ?_
      intro outcome middle meets
      cases outcome with
      | error exception => exact meets
      | halt reason => exact meets
      | value name =>
          dsimp only
          split
          · exact render_wp top meets _ (childs _ _)
          · split
            · exact render_wp top meets _ (runs _ _)
            · exact pushedBack top meets

theorem executeTag_keeps {caller : Option Loc}
    (serves : Serves contract interp self caller)
    (runs : ∀ loc caller, Keeps contract (interp.run loc caller))
    (childs : ∀ loc caller,
      Keeps contract (interp.executeChilds loc caller)) :
    Keeps contract (TagExecute.execute interp self) := by
  intro state
  have recorded : contract.done state
      (state.record (.reached self state.exec)) :=
    contract_done_of_execs ⟨[.reached self state.exec], rfl⟩ rfl
  exact Run.Meets.after recorded (executeTag_meets serves runs childs state)

end Run

theorem execute_keeps (outside : Outside W) (depth : Nat) :
    ∀ self caller, Keeps contract (execute outside depth self caller) :=
  execute_keeps_of (contract_tolerant outside.dcl) invoke_keeps
    executeTag_keeps contract_spawn id depth

/-- The trace of a `dbp:execute` says that it is reached, and with which
calls. -/
theorem execute_reached (outside : Outside W) (depth : Nat) {self : Loc}
    (kind : self.tag.kind = .execute) (caller : Option Loc) (state : St W) :
    .reached self state.exec :: state.trace <:+
      (execute outside (depth + 1) self caller state).state.trace := by
  have runs := execute_keeps outside depth
  have serves : ∀ loc caller, Serves contract
      (Interp.ofRun outside depth (execute outside depth)) loc caller :=
    serves_of_run runs
  have dispatched : execute outside (depth + 1) self caller =
      TagExecute.execute (Interp.ofRun outside depth (execute outside depth))
        self := by
    unfold execute dispatch
    rw [kind]
  rw [dispatched]
  exact (executeTag_meets (serves self caller) runs
    (fun loc caller => (serves loc caller).childs) state).halted

end CallStack

/-- In a run in which no exception leaves a `dbp:execute`, however the run
ends, every context has the stack of calls it had before. -/
theorem calls_balanced (outside : Outside W) (depth : Nat) (self : Loc)
    (caller : Option Loc) (state : St W)
    (finished : (execute outside depth self caller state).outcome.Finished)
    (clean : ∀ events,
      (execute outside depth self caller state).state.trace =
        events ++ state.trace → .unwound ∉ events) :
    (execute outside depth self caller state).state.contexts.map
      Context.exec = state.contexts.map Context.exec := by
  have meets := (CallStack.execute_keeps outside depth self caller state).done
    finished
  obtain ⟨events, trace, same⟩ := meets
  exact same.resolve_left (clean events trace)

/-- `<dbp:try><dbp:execute/><dbp:catch/></dbp:try>`. -/
def tryExecute : Tag :=
  .mk 1 .try [] [.mk 2 .execute [] [] [], .mk 3 .catch [] [] []] []

/-- A call whose body is the given tag. -/
def callWith (body : Tag) : Loc :=
  ⟨.mk 4 .call [("name".toList, "t".toList)] [body] [], []⟩

/-- The state inside the definition that a call has selected. -/
def insideCall (call : Loc) : St Unit :=
  St.fresh [{ Context.newLocal with exec := [call] }]

/-- The body of the call is text: it is rendered and the call is back on the
stack. -/
theorem calls_balanced_text :
    (execute Outside.plain 4 ⟨tryExecute, []⟩ none
        (insideCall (callWith (.mk 5 .cdata [] [] "a".toList)))
      ).state.contexts.map Context.exec =
      [[callWith (.mk 5 .cdata [] [] "a".toList)]] := by
  have trace : (execute Outside.plain 4 ⟨tryExecute, []⟩ none
      (insideCall (callWith (.mk 5 .cdata [] [] "a".toList)))).state.trace =
      [.rendered,
        .render ⟨.mk 2 .execute [] [] [], [tryExecute]⟩
          (callWith (.mk 5 .cdata [] [] "a".toList)) [],
        .reached ⟨.mk 2 .execute [] [] [], [tryExecute]⟩
          [callWith (.mk 5 .cdata [] [] "a".toList)]] := rfl
  refine calls_balanced Outside.plain 4 ⟨tryExecute, []⟩ none
    (insideCall (callWith (.mk 5 .cdata [] [] "a".toList))) (by decide) ?_
  intro events recorded
  rw [trace, show (insideCall _).trace = [] from rfl, List.append_nil]
    at recorded
  simp [← recorded]

/-- The body of the call raises an exception, which is caught around the
`dbp:execute`: the tree ends normally, and the call has gone from the
stack. -/
theorem execute_loses_call :
    (execute Outside.plain 4 ⟨tryExecute, []⟩ none
        (insideCall (callWith (.mk 5 .throw [("message".toList, "m".toList)]
          [] [])))).outcome = .value () ∧
    (execute Outside.plain 4 ⟨tryExecute, []⟩ none
        (insideCall (callWith (.mk 5 .throw [("message".toList, "m".toList)]
          [] [])))).state.contexts.map (fun context => context.exec.length) ≠
      (insideCall (callWith (.mk 5 .throw [("message".toList, "m".toList)]
        [] []))).contexts.map fun context => context.exec.length :=
  ⟨rfl, by decide +kernel⟩

end DbPager
