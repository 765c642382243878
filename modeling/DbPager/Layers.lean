import DbPager.Ordinary
import DbPager.Plain
import Mathlib.Logic.Relation

/-!
# Variable layers

Executing a tag changes the chain of contexts only by assignments to
variables that exist and by declarations that reach a parent context, unless
an exception passes one of the five places where a layer is entered or left
outside the `try` block meant to balance it.  In a run without such a leak
the local context keeps its layers and their names.
-/

namespace DbPager

open Effect

variable {W : Type}

namespace Layers

/-- A context without its stack of calls. -/
def bare (context : Context) : Context :=
  { context with exec := [] }

@[simp] theorem bare_type (context : Context) :
    (bare context).type = context.type := rfl

@[simp] theorem bare_stack (context : Context) :
    (bare context).stack = context.stack := rfl

/-- What a script may do to the variables of a chain of contexts: assign to a
variable that is there, or declare one in a parent context by an explicit
type that is not the type of the context at hand. -/
inductive Step (dcl : Dcl) : List Context → List Context → Prop where
  | assign {name value : Str} {contexts changed : List Context} :
      Chain.setValue name value contexts = some changed →
      Step dcl contexts changed
  | declare {name value type : Str} {context : Context}
      {parents changed : List Context} :
      type ≠ [] → dcl.compare type context.type = false →
      Chain.addValue dcl name value type parents = .value changed →
      Step dcl (context :: parents) (context :: changed)

abbrev Steps (dcl : Dcl) : List Context → List Context → Prop :=
  Relation.ReflTransGen (Step dcl)

theorem setValue_bare (name value : Str) (contexts : List Context) :
    Chain.setValue name value (contexts.map bare) =
      (Chain.setValue name value contexts).map (List.map bare) := by
  induction contexts with
  | nil => rfl
  | cons context parents induction =>
      simp only [List.map_cons, Chain.setValue, bare_stack]
      cases assignVar (upName name) value context.stack with
      | some stack => rfl
      | none =>
          simp only [induction, Option.map_map]
          rfl

theorem addValue_bare {dcl : Dcl} {name value type : Str}
    {contexts changed : List Context}
    (result : Chain.addValue dcl name value type contexts = .value changed) :
    Chain.addValue dcl name value type (contexts.map bare) =
      .value (changed.map bare) := by
  induction contexts generalizing changed with
  | nil => simp [Chain.addValue] at result
  | cons context parents induction =>
      obtain ⟨same, layer, layers, top, rfl⟩ |
        ⟨named, other, below, added, rfl⟩ := Chain.addValue_cases result
      · have here : dcl.compare
            (if type.isEmpty then (bare context).type else type)
            (bare context).type = true := by
          by_cases plain : type = []
          · simp [plain, dcl.compare_self]
          · simpa [plain] using same plain
        rw [List.map_cons, Chain.addValue, if_pos here]
        simp only [bare_stack, top]
        rfl
      · have there : ¬ dcl.compare
            (if type.isEmpty then (bare context).type else type)
            (bare context).type = true := by
          simp [named, other]
        have plain : type.isEmpty = false := by
          simpa using named
        rw [List.map_cons, Chain.addValue, if_neg there]
        simp only [plain, Bool.false_eq_true, if_false, induction added]
        rfl

theorem Step.dropLayer {dcl : Dcl} {contexts changed : List Context}
    (step : Step dcl contexts changed) :
    Steps dcl (contexts.modifyHead Context.dropLayer)
      (changed.modifyHead Context.dropLayer) := by
  cases step with
  | assign result =>
      rcases setValue_dropLayer result with same | assigned
      · rw [same]
      · exact .single (.assign assigned)
  | declare named other added => exact .single (.declare named other added)

theorem Steps.dropLayer {dcl : Dcl} {contexts changed : List Context}
    (steps : Steps dcl contexts changed) :
    Steps dcl (contexts.modifyHead Context.dropLayer)
      (changed.modifyHead Context.dropLayer) := by
  induction steps with
  | refl => exact .refl
  | tail earlier step induction => exact induction.trans step.dropLayer

theorem map_bare_dropLayer (contexts : List Context) :
    (contexts.modifyHead Context.dropLayer).map bare =
      (contexts.map bare).modifyHead Context.dropLayer := by
  cases contexts <;> rfl

/-- Finished programs leave the types of the contexts alone and change the
variables step by step, unless there was a leak. -/
def contract (dcl : Dcl) : Contract (St W) where
  done first second :=
    second.contexts.map Context.type = first.contexts.map Context.type ∧
    ∃ events, second.trace = events ++ first.trace ∧
      ((∃ place, .leak place ∈ events) ∨
        Steps dcl (first.contexts.map bare) (second.contexts.map bare))
  halted _ _ := True
  done_refl state := ⟨rfl, [], rfl, .inr .refl⟩
  done_trans := by
    rintro first second third ⟨types, events, trace, before⟩
      ⟨types', events', trace', after⟩
    refine ⟨types'.trans types, events' ++ events, ?_, ?_⟩
    · rw [trace', trace, List.append_assoc]
    · rcases before with ⟨place, leaked⟩ | before
      · exact .inl ⟨place, by simp [leaked]⟩
      · rcases after with ⟨place, leaked⟩ | after
        · exact .inl ⟨place, by simp [leaked]⟩
        · exact .inr (before.trans after)
  halted_refl _ := trivial
  done_halted := fun _ _ => trivial

theorem types_of_bare {first second : List Context}
    (same : second.map bare = first.map bare) :
    second.map Context.type = first.map Context.type := by
  have types : ∀ contexts : List Context,
      contexts.map Context.type = (contexts.map bare).map Context.type := by
    intro contexts
    simp [bare]
  rw [types second, same, ← types first]

/-- Steps that only change the stack of calls and record something. -/
theorem contract_blind {dcl : Dcl} {first second : St W}
    (same : second.contexts.map bare = first.contexts.map bare)
    (grows : ∃ events, second.trace = events ++ first.trace) :
    (contract dcl).done first second := by
  obtain ⟨events, trace⟩ := grows
  refine ⟨types_of_bare same, events, trace, .inr ?_⟩
  rw [same]

theorem types_modifyHead (change : Context → Context)
    (same : ∀ context, (change context).type = context.type)
    (contexts : List Context) :
    (contexts.modifyHead change).map Context.type =
      contexts.map Context.type := by
  cases contexts with
  | nil => rfl
  | cons context parents => simp [same]

theorem setValue_types {name value : Str} {contexts changed : List Context}
    (result : Chain.setValue name value contexts = some changed) :
    changed.map Context.type = contexts.map Context.type := by
  induction contexts generalizing changed with
  | nil => simp [Chain.setValue] at result
  | cons context parents induction =>
      unfold Chain.setValue at result
      split at result
      · cases result
        rfl
      · obtain ⟨below, assigned, rfl⟩ := Option.map_eq_some_iff.mp result
        simp [induction assigned]

theorem addValue_types {dcl : Dcl} {name value type : Str}
    {contexts changed : List Context}
    (result : Chain.addValue dcl name value type contexts = .value changed) :
    changed.map Context.type = contexts.map Context.type := by
  induction contexts generalizing changed with
  | nil => simp [Chain.addValue] at result
  | cons context parents induction =>
      obtain ⟨-, layer, layers, top, rfl⟩ | ⟨-, -, below, added, rfl⟩ :=
        Chain.addValue_cases result
      · rfl
      · simp [induction added]

theorem contract_tolerant (dcl : Dcl) :
    Tolerant dcl (contract dcl : Contract (St W)) where
  quiet contexts trace :=
    contract_blind (by rw [contexts]) ⟨[], by simp [trace]⟩
  assign := by
    intro state name value contexts result
    have assigned : Chain.setValue name value (state.contexts.map bare) =
        some (contexts.map bare) := by
      rw [setValue_bare, result]
      rfl
    exact ⟨setValue_types result, [], rfl, .inr (.single (.assign assigned))⟩
  declare := by
    intro state name value type context parents changed chain named other added
    refine ⟨?_, [], rfl, .inr ?_⟩
    · simp [chain, addValue_types added]
    · rw [chain]
      exact .single (.declare named other (addValue_bare added))
  drop := by
    rintro first second ⟨types, events, trace, steps⟩
    refine ⟨?_, events, trace, steps.imp id fun steps => ?_⟩
    · have same := types_modifyHead Context.dropLayer fun _ => rfl
      exact (same _).trans (types.trans (same _).symm)
    · have below := steps.dropLayer
      rwa [← map_bare_dropLayer, ← map_bare_dropLayer] at below
  drop_halted := fun _ => trivial
  halt_inside := fun _ => trivial
  leak := by
    rintro first second stack place ⟨types, events, trace, -⟩
    refine ⟨?_, .leak place :: events, ?_, .inl ⟨place, by simp⟩⟩
    · have same := types_modifyHead
        (fun context => { context with stack }) fun _ => rfl
      exact (same second.contexts).trans types
    · exact congrArg (Event.leak place :: ·) trace

/-- The context at hand is a local one. -/
def HeadLocal (state : St W) : Prop :=
  state.contexts.head?.map Context.type = some Context.localType

theorem headLocal_iff (state : St W) :
    HeadLocal state ↔
      (state.contexts.map Context.type).head? = some Context.localType := by
  simp [HeadLocal]

theorem headLocal_stable {dcl : Dcl} {first second : St W}
    (isLocal : HeadLocal first) (finished : (contract dcl).done first second) :
    HeadLocal second := by
  rw [headLocal_iff] at isLocal ⊢
  rw [finished.1, isLocal]

/-- The contract for programs that start in a local context. -/
def localContract (dcl : Dcl) : Contract (St W) :=
  (contract dcl).given HeadLocal headLocal_stable

theorem localContract_tolerant (dcl : Dcl) :
    Tolerant dcl (localContract dcl : Contract (St W)) := by
  refine (contract_tolerant dcl).given headLocal_stable fun state => ?_
  rw [headLocal_iff, headLocal_iff]
  have same := types_modifyHead Context.dropLayer (fun _ => rfl)
    state.contexts
  exact fun isLocal => same ▸ isLocal

/-- What a step in the context of a thread does to the contexts around it. -/
theorem Step.tail {dcl : Dcl} {thread context changedThread : Context}
    {parents changed : List Context}
    (step : Step dcl (thread :: context :: parents) (changedThread :: changed))
    (same : thread.type = context.type) :
    Steps dcl (context :: parents) changed := by
  generalize before : thread :: context :: parents = contexts at step
  generalize after : changedThread :: changed = final at step
  cases step with
  | assign result =>
      subst before after
      unfold Chain.setValue at result
      split at result
      · cases result
        exact .refl
      · obtain ⟨below, assigned, equal⟩ := Option.map_eq_some_iff.mp result
        cases equal
        exact .single (.assign assigned)
  | declare named other added =>
      cases before
      cases after
      rw [same] at other
      obtain ⟨here, -⟩ | ⟨-, -, below, deeper, rfl⟩ :=
        Chain.addValue_cases added
      · rw [here named] at other
        cases other
      · exact .single (.declare named other deeper)

theorem Step.types {dcl : Dcl} {contexts changed : List Context}
    (step : Step dcl contexts changed) :
    changed.map Context.type = contexts.map Context.type := by
  cases step with
  | assign result => exact setValue_types result
  | declare named other added => simp [addValue_types added]

theorem Steps.tail {dcl : Dcl} {first second : List Context}
    (steps : Steps dcl first second) :
    ∀ {thread context : Context} {parents : List Context},
      first = thread :: context :: parents → thread.type = context.type →
      ∃ changedThread changed, second = changedThread :: changed ∧
        second.map Context.type = first.map Context.type ∧
        Steps dcl (context :: parents) changed := by
  induction steps with
  | refl =>
      rintro thread context parents rfl same
      exact ⟨thread, _, rfl, rfl, .refl⟩
  | tail earlier step induction =>
      rintro thread context parents rfl same
      obtain ⟨changedThread, changed, rfl, types, below⟩ := induction rfl same
      have later := step.types.trans types
      rename_i final
      cases final with
      | nil => simp at later
      | cons lastThread last =>
          refine ⟨lastThread, last, rfl, later, below.trans ?_⟩
          simp only [List.map_cons, List.cons.injEq] at types
          cases changed with
          | nil => simp at types
          | cons changedContext changedParents =>
              simp only [List.map_cons, List.cons.injEq] at types
              refine Step.tail step ?_
              rw [types.1, types.2.1, same]

/-- A thread of `dbp:async`, seen from the context that starts it. -/
theorem localContract_spawn {dcl : Dcl} {first second : St W}
    (finished : (localContract dcl).done
      { first with contexts := Context.newLocal :: first.contexts } second) :
    (localContract dcl).done first
      { second with contexts := second.contexts.tail } := by
  intro isLocal
  obtain ⟨types, events, trace, steps⟩ := finished rfl
  refine ⟨?_, events, trace, steps.imp id fun steps => ?_⟩
  · have tails := congrArg List.tail types
    simpa [List.map_tail] using tails
  · cases chain : first.contexts with
    | nil => simp [HeadLocal, chain] at isLocal
    | cons context parents =>
        have same : context.type = Context.localType := by
          simpa [HeadLocal, chain] using isLocal
        simp only [chain, List.map_cons] at steps
        obtain ⟨changedThread, changed, equal, -, below⟩ :=
          Steps.tail steps rfl (show (bare Context.newLocal).type =
            (bare context).type from same.symm)
        have tails : second.contexts.tail.map bare = changed := by
          rw [List.map_tail, equal]
          rfl
        exact tails ▸ below

section Run

variable {interp : Interp W} {self definition : Loc}

theorem record_keeps (dcl : Dcl) (event : Event) :
    Keeps (localContract dcl) (M.record event : M W Unit) :=
  Keeps.modify fun _ _ => contract_blind rfl ⟨[event], rfl⟩

theorem push_keeps (dcl : Dcl) (loc : Loc) :
    Keeps (localContract dcl) (M.push loc : M W Unit) := by
  refine Keeps.modify fun state _ => contract_blind ?_ ⟨[], rfl⟩
  rcases state with ⟨contexts, vectors, maps, nextAddr, world, trace⟩
  cases contexts <;> rfl

theorem pop_keeps (dcl : Dcl) :
    Keeps (localContract dcl) (M.pop : M W (Option Loc)) := by
  refine Keeps.act fun state _ => ?_
  split
  · exact (contract dcl).done_refl state
  · refine contract_blind ?_ ⟨[], rfl⟩
    rcases state with ⟨contexts, vectors, maps, nextAddr, world, trace⟩
    cases contexts <;> rfl

theorem invoke_keeps {dcl : Dcl}
    (runs : Keeps (localContract dcl) (interp.run definition (some self))) :
    Keeps (localContract dcl) (invoke interp self definition) := by
  refine Keeps.bind (record_keeps dcl _) fun _ => ?_
  refine Keeps.bind (push_keeps dcl self) fun _ => ?_
  refine Keeps.bind (Keeps.onError runs ?_) fun _ => ?_
  · exact Keeps.bind (pop_keeps dcl) fun _ => record_keeps dcl _
  · exact Keeps.bind (pop_keeps dcl) fun _ => record_keeps dcl _

theorem executeTag_keeps {dcl : Dcl} {caller : Option Loc}
    (serves : Serves (localContract dcl) interp self caller)
    (runs : ∀ loc caller, Keeps (localContract dcl) (interp.run loc caller))
    (childs : ∀ loc caller,
      Keeps (localContract dcl) (interp.executeChilds loc caller)) :
    Keeps (localContract dcl) (TagExecute.execute interp self) := by
  refine Keeps.bind (Keeps.read _) fun exec => ?_
  refine Keeps.bind (record_keeps dcl _) fun _ => ?_
  refine Keeps.bind (pop_keeps dcl) fun top => ?_
  cases top with
  | none => exact Keeps.pure _
  | some call =>
      refine Keeps.onError ?_ (record_keeps dcl _)
      refine Keeps.bind (serves.getParameter "name") fun name => ?_
      refine Keeps.ite ?_ ?_
      · refine Keeps.bind (record_keeps dcl _) fun _ => ?_
        refine Keeps.bind (childs _ _) fun _ => ?_
        exact Keeps.bind (push_keeps dcl _) fun _ => record_keeps dcl _
      · split
        · refine Keeps.bind (record_keeps dcl _) fun _ => ?_
          refine Keeps.bind (runs _ _) fun _ => ?_
          exact Keeps.bind (push_keeps dcl _) fun _ => record_keeps dcl _
        · exact push_keeps dcl _

end Run

/-- Every tag of every tree keeps the contract, to any depth. -/
theorem execute_keeps (outside : Outside W) (depth : Nat) :
    ∀ self caller, Keeps (localContract outside.dcl)
      (execute outside depth self caller) :=
  execute_keeps_of (localContract_tolerant outside.dcl) invoke_keeps
    executeTag_keeps localContract_spawn (fun _ _ => trivial) depth

/-- One context after another: the same type, the same layers, names only
added, and only to the innermost layer. -/
structure Grown (before after : Context) : Prop where
  type : after.type = before.type
  layers : List.Forall₂ (fun layer layer' => layer.keys ⊆ layer'.keys)
    before.stack after.stack
  below : after.stack.tail.map AList.keys = before.stack.tail.map AList.keys

/-- One context after another: the same type and the same names in every
layer. -/
structure SameNames (before after : Context) : Prop where
  type : after.type = before.type
  names : after.stack.map AList.keys = before.stack.map AList.keys

theorem SameNames.grown {before after : Context}
    (same : SameNames before after) : Grown before after where
  type := same.type
  layers := by
    have names := same.names
    generalize before.stack = layers at names
    generalize after.stack = layers' at names
    induction layers generalizing layers' with
    | nil => simp_all
    | cons layer layers induction =>
        cases layers' with
        | nil => simp at names
        | cons layer' layers' =>
            simp only [List.map_cons, List.cons.injEq] at names
            refine .cons ?_ (induction layers' names.2)
            rw [names.1]
            exact List.Subset.refl _
  below := by
    rw [List.map_tail, List.map_tail, same.names]

theorem forall₂_trans {α : Type} {relation : α → α → Prop}
    (trans : ∀ a b c, relation a b → relation b c → relation a c)
    {first second third : List α} (before : List.Forall₂ relation first second)
    (after : List.Forall₂ relation second third) :
    List.Forall₂ relation first third := by
  induction before generalizing third with
  | nil => exact after
  | cons here below induction =>
      obtain ⟨last, rest, there, more, rfl⟩ :=
        List.forall₂_cons_left_iff.mp after
      exact .cons (trans _ _ _ here there) (induction more)

theorem Grown.trans {first second third : Context}
    (before : Grown first second) (after : Grown second third) :
    Grown first third where
  type := after.type.trans before.type
  layers := by
    refine forall₂_trans ?_ before.layers after.layers
    exact fun _ _ _ left right => List.Subset.trans left right
  below := after.below.trans before.below

theorem assignVar_names {name value : Str} {layers changed : List Vars}
    (result : assignVar name value layers = some changed) :
    changed.map AList.keys = layers.map AList.keys := by
  induction layers generalizing changed with
  | nil => simp [assignVar] at result
  | cons layer layers induction =>
      unfold assignVar at result
      split at result
      · cases result
        simp [AList.keys_replace]
      · obtain ⟨rest, assigned, rfl⟩ := Option.map_eq_some_iff.mp result
        simp [induction assigned]

theorem setValue_names {name value : Str} {contexts changed : List Context}
    (result : Chain.setValue name value contexts = some changed) :
    List.Forall₂ SameNames contexts changed := by
  have refl : ∀ context, SameNames context context := fun _ => ⟨rfl, rfl⟩
  induction contexts generalizing changed with
  | nil => simp [Chain.setValue] at result
  | cons context parents induction =>
      unfold Chain.setValue at result
      split at result
      · rename_i stack assigned
        cases result
        refine .cons ⟨rfl, assignVar_names assigned⟩ ?_
        exact List.forall₂_same.mpr fun context _ => refl context
      · obtain ⟨below, assigned, rfl⟩ := Option.map_eq_some_iff.mp result
        exact .cons (refl context) (induction assigned)

theorem addValue_grown {dcl : Dcl} {name value type : Str}
    {contexts changed : List Context}
    (result : Chain.addValue dcl name value type contexts = .value changed) :
    List.Forall₂ Grown contexts changed := by
  have refl : ∀ context, Grown context context :=
    fun context => SameNames.grown ⟨rfl, rfl⟩
  induction contexts generalizing changed with
  | nil => simp [Chain.addValue] at result
  | cons context parents induction =>
      obtain ⟨-, layer, layers, top, rfl⟩ | ⟨-, -, below, added, rfl⟩ :=
        Chain.addValue_cases result
      · refine .cons ⟨rfl, ?_, by simp [top]⟩ ?_
        · rw [top]
          refine .cons ?_ (List.forall₂_same.mpr fun _ _ => List.Subset.refl _)
          intro other member
          rw [← AList.mem_keys] at member ⊢
          exact (AList.mem_insert layer).mpr (.inr member)
        · exact List.forall₂_same.mpr fun context _ => refl context
      · exact .cons (refl context) (induction added)

/-- The context at hand keeps its names, its parents keep theirs and may get
more. -/
theorem Steps.names {dcl : Dcl} {first second : List Context}
    (steps : Steps dcl first second) :
    ∀ {context : Context} {parents : List Context},
      first = context :: parents →
      ∃ changed changedParents, second = changed :: changedParents ∧
        SameNames context changed ∧
        List.Forall₂ Grown parents changedParents := by
  induction steps with
  | refl =>
      rintro context parents rfl
      refine ⟨context, parents, rfl, ⟨rfl, rfl⟩, ?_⟩
      exact List.forall₂_same.mpr fun _ _ => SameNames.grown ⟨rfl, rfl⟩
  | tail earlier step induction =>
      rintro context parents rfl
      obtain ⟨changed, changedParents, rfl, same, grown⟩ := induction rfl
      have extend : ∀ {later}, List.Forall₂ Grown changedParents later →
          List.Forall₂ Grown parents later := by
        intro later more
        refine forall₂_trans ?_ grown more
        exact fun _ _ _ before after => before.trans after
      generalize middle : changed :: changedParents = contexts at step
      cases step with
      | assign result =>
          subst middle
          obtain ⟨last, lastParents, here, below, rfl⟩ :=
            List.forall₂_cons_left_iff.mp (setValue_names result)
          refine ⟨last, lastParents, rfl, ?_, extend ?_⟩
          · exact ⟨here.type.trans same.type, here.names.trans same.names⟩
          · exact below.imp fun _ _ => SameNames.grown
      | declare named other added =>
          cases middle
          exact ⟨changed, _, rfl, same, extend (addValue_grown added)⟩

/-- The name is bound in one of the layers. -/
theorem findVar_isSome (name : Str) (layers : List Vars) :
    (findVar name layers).isSome ↔
      ∃ keys ∈ layers.map AList.keys, name ∈ keys := by
  induction layers with
  | nil => simp [findVar]
  | cons layer layers induction =>
      unfold findVar
      cases found : layer.lookup name with
      | some value =>
          have member : name ∈ layer.keys := by
            rw [← AList.mem_keys, ← AList.lookup_isSome, found]
            rfl
          simp [member]
      | none =>
          have missing : name ∉ layer.keys := by
            rw [← AList.mem_keys]
            exact AList.lookup_eq_none.mp found
          simp [missing, induction]

end Layers

/-- In a run without a leak, however it ends, the local context has its
layers back: as many as before, with the same names in each of them, so that
nothing a tag introduced is visible afterwards.  The parents keep their
names and may have got new ones in their innermost layers, and all changes
are assignments and declarations by an explicit type. -/
theorem layers_balanced (outside : Outside W) (depth : Nat) (self : Loc)
    (caller : Option Loc) (state : St W) (context : Context)
    (parents : List Context) (chain : state.contexts = context :: parents)
    (isLocal : context.type = Context.localType)
    (finished : (execute outside depth self caller state).outcome.Finished)
    (clean : ∀ events place,
      (execute outside depth self caller state).state.trace =
        events ++ state.trace → .leak place ∉ events) :
    ∃ changed changedParents,
      (execute outside depth self caller state).state.contexts =
        changed :: changedParents ∧
      changed.type = context.type ∧
      changed.stack.length = context.stack.length ∧
      changed.stack.map AList.keys = context.stack.map AList.keys ∧
      (∀ name, (findVar name changed.stack).isSome =
        (findVar name context.stack).isSome) ∧
      List.Forall₂ Layers.Grown parents changedParents ∧
      Layers.Steps outside.dcl ((context :: parents).map Layers.bare)
        ((changed :: changedParents).map Layers.bare) := by
  have meets := (Layers.execute_keeps outside depth self caller state).done
    finished
  have head : Layers.HeadLocal state := by
    simp [Layers.HeadLocal, chain, isLocal]
  obtain ⟨types, events, trace, steps⟩ := meets head
  have quiet : ¬ ∃ place, .leak place ∈ events := by
    rintro ⟨place, leaked⟩
    exact clean events place trace leaked
  have steps := steps.resolve_left quiet
  rw [chain, List.map_cons] at steps
  obtain ⟨changed, changedParents, equal, same, grown⟩ := steps.names rfl
  obtain ⟨last, lastParents, final, rfl, rfl⟩ :=
    List.map_eq_cons_iff.mp equal
  have names : last.stack.map AList.keys = context.stack.map AList.keys :=
    same.names
  refine ⟨last, lastParents, final, same.type, ?_, names, ?_, ?_, ?_⟩
  · simpa using congrArg List.length names
  · intro name
    rw [Bool.eq_iff_iff, Layers.findVar_isSome, Layers.findVar_isSome, names]
  · refine List.forall₂_map_left_iff.mp (List.forall₂_map_right_iff.mp grown)
      |>.imp fun before after more => ?_
    exact ⟨more.type, more.layers, more.below⟩
  · rw [final] at steps
    exact steps

/-- `<dbp:split name="x" value="..."/>`. -/
def splitScript (value : String) : Loc :=
  ⟨.mk 1 .split [("name".toList, "x".toList), ("value".toList, value.toList)]
    [] [], []⟩

/-- A `dbp:split` with two fragments, run in a fresh local context. -/
theorem layers_balanced_split :
    ∃ changed, (execute Outside.plain 3 (splitScript "a,b") none
        (St.fresh [Context.newLocal])).state.contexts = [changed] ∧
      changed.stack.length = 1 := by
  have quiet : (execute Outside.plain 3 (splitScript "a,b") none
      (St.fresh [Context.newLocal])).state.trace = [] := rfl
  obtain ⟨changed, changedParents, final, -, depth, -, -, grown, -⟩ :=
    layers_balanced Outside.plain 3 (splitScript "a,b") none
      (St.fresh [Context.newLocal]) Context.newLocal [] rfl rfl
      (by decide +kernel)
      (by
        intro events place trace
        rw [quiet] at trace
        have empty := (List.nil_eq_append_iff.mp trace).1
        simp [empty])
  cases grown
  exact ⟨changed, final, depth⟩

/-- The parameter `value` of a `dbp:split` raises an exception: the layer the
tag has entered is still there afterwards. -/
theorem split_leaves_layer :
    (execute Outside.plain 3 (splitScript "\x7b") none
        (St.fresh [Context.newLocal])).outcome =
      .error (.dbp "unbalanced expression braces found".toList) ∧
    ((execute Outside.plain 3 (splitScript "\x7b") none
        (St.fresh [Context.newLocal])).state.contexts.map
          fun context => context.stack.length) ≠
      [Context.newLocal].map fun context => context.stack.length :=
  ⟨rfl, by decide +kernel⟩

end DbPager
