import DbPager.CallStack
import DbPager.Fragments
import DbPager.Layers
import DbPager.Semantics

/-!
# States of the interpreter and scenes of the language

A chain of contexts shows a store of variables when every lookup finds what
the store has.  While a tag is executed the layers of the chain are entered
and left again, and what is between them only changes by assignments to names
that are bound.  So a layer around a body that is left with its bindings is a
binding that is undone, and a call that is pushed and popped is a frame.
-/

namespace DbPager

open Effect Language

variable {W : Type}

/-! ## What happens to a chain of contexts -/

/-- The context at hand is a local one and has a layer. -/
def Headed (contexts : List Context) : Prop :=
  ∃ context parents, contexts = context :: parents ∧
    context.type = Context.localType ∧ context.stack ≠ []

/-- The chain with other active calls in the context at hand. -/
def Chain.withCalls (calls : List Loc) (contexts : List Context) :
    List Context :=
  contexts.modifyHead fun context => { context with exec := calls }

/-- A change of a chain that leaves its layers alone. -/
inductive Moves : List Context → List Context → Prop
  | set {name value contexts changed} :
      Chain.setValue name value contexts = some changed → Moves contexts changed
  | calls (calls contexts) : Moves contexts (Chain.withCalls calls contexts)

abbrev Moved : List Context → List Context → Prop :=
  Relation.ReflTransGen Moves

theorem Headed.ne_nil {contexts : List Context} (headed : Headed contexts) :
    contexts ≠ [] := by
  obtain ⟨context, parents, rfl, _⟩ := headed
  exact List.cons_ne_nil _ _

theorem assignVar_ne_nil {name value : Str} {layers changed : List Vars}
    (assigned : assignVar name value layers = some changed) :
    changed ≠ [] := by
  cases layers with
  | nil => cases assigned
  | cons layer layers =>
      rw [assignVar] at assigned
      split at assigned
      · cases assigned
        exact List.cons_ne_nil _ _
      · obtain ⟨rest, _, rfl⟩ := Option.map_eq_some_iff.mp assigned
        exact List.cons_ne_nil _ _

theorem Headed.moves {contexts changed : List Context}
    (headed : Headed contexts) (moves : Moves contexts changed) :
    Headed changed := by
  obtain ⟨context, parents, rfl, isLocal, layers⟩ := headed
  cases moves with
  | calls calls => exact ⟨_, parents, rfl, isLocal, layers⟩
  | set assigned =>
      rw [Chain.setValue] at assigned
      split at assigned
      next stack set =>
          cases assigned
          exact ⟨_, parents, rfl, isLocal, assignVar_ne_nil set⟩
      next =>
          obtain ⟨above, _, rfl⟩ := Option.map_eq_some_iff.mp assigned
          exact ⟨context, above, rfl, isLocal, layers⟩

theorem Headed.moved {contexts changed : List Context}
    (headed : Headed contexts) (moved : Moved contexts changed) :
    Headed changed := by
  induction moved with
  | refl => exact headed
  | tail _ moves induction => exact induction.moves moves

theorem Headed.withLayer {contexts : List Context} (headed : Headed contexts)
    (layer : Vars) : Headed (Chain.withLayer layer contexts) := by
  obtain ⟨context, parents, rfl, isLocal, _⟩ := headed
  exact ⟨_, parents, rfl, isLocal, List.cons_ne_nil _ _⟩

/-- An assignment to a name the innermost layer does not have. -/
theorem setValue_outside {name value : Str} {layer : Vars}
    (unbound : layer.lookup (upName name) = none) {contexts : List Context}
    (chain : contexts ≠ []) :
    Chain.setValue name value (Chain.withLayer layer contexts) =
      (Chain.setValue name value contexts).map (Chain.withLayer layer) := by
  cases contexts with
  | nil => exact absurd rfl chain
  | cons context parents =>
      simp only [Chain.withLayer, List.modifyHead_cons, Chain.setValue,
        assignVar, unbound]
      cases assignVar (upName name) value context.stack with
      | some stack => rfl
      | none =>
          simp only [Option.map_none, Option.map_map]
          rfl

/-- The chain below a layer has changed, but not where the layer hides it. -/
structure Beneath (layer last : Vars) (contexts changed : List Context) :
    Prop where
  moved : Moved contexts changed
  names : ∀ name, (last.lookup (upName name)).isSome =
    (layer.lookup (upName name)).isSome
  hidden : ∀ name, (layer.lookup (upName name)).isSome = true →
    Chain.lookup name changed = Chain.lookup name contexts

theorem Beneath.refl (layer : Vars) (contexts : List Context) :
    Beneath layer layer contexts contexts :=
  ⟨.refl, fun _ => rfl, fun _ _ => rfl⟩

theorem Beneath.trans {first second third : Vars}
    {contexts middle changed : List Context}
    (one : Beneath first second contexts middle)
    (two : Beneath second third middle changed) :
    Beneath first third contexts changed where
  moved := one.moved.trans two.moved
  names := fun name => (two.names name).trans (one.names name)
  hidden := by
    intro name bound
    have still := (one.names name).trans bound
    exact (two.hidden name still).trans (one.hidden name bound)

theorem Moves.beneath {layer : Vars} {contexts changed : List Context}
    (chain : contexts ≠ []) (moves : Moves (Chain.withLayer layer contexts)
      changed) :
    ∃ last below, changed = Chain.withLayer last below ∧
      Beneath layer last contexts below := by
  cases moves with
  | calls calls =>
      refine ⟨layer, Chain.withCalls calls contexts, ?_, ?_⟩
      · cases contexts with
        | nil => exact absurd rfl chain
        | cons context parents => rfl
      · refine ⟨.single (.calls calls contexts), fun _ => rfl, ?_⟩
        intro name _
        cases contexts with
        | nil => exact absurd rfl chain
        | cons context parents => rfl
  | @set name value _ _ assigned =>
      cases bound : layer.lookup (upName name) with
      | some old =>
          rw [TagSplit.setValue_withLayer bound chain] at assigned
          cases assigned
          refine ⟨_, contexts, rfl, .refl, ?_, fun _ _ => rfl⟩
          intro other
          rw [lookup_replace]
          split
          next same =>
              rw [same.1]
              exact same.2.symm
          next => rfl
      | none =>
          rw [setValue_outside bound chain] at assigned
          obtain ⟨below, set, rfl⟩ := Option.map_eq_some_iff.mp assigned
          refine ⟨layer, below, rfl, .single (.set set), fun _ => rfl, ?_⟩
          intro other held
          have different : upName other ≠ upName name := by
            intro same
            rw [same, bound] at held
            cases held
          rw [Chain.lookup_setValue set other, if_neg (by simpa using different)]

theorem Moves.ne_nil {contexts changed : List Context}
    (moves : Moves contexts changed) (chain : contexts ≠ []) :
    changed ≠ [] := by
  cases contexts with
  | nil => exact absurd rfl chain
  | cons context parents =>
      cases moves with
      | calls calls => exact List.cons_ne_nil _ _
      | set assigned =>
          rw [Chain.setValue] at assigned
          split at assigned
          · cases assigned
            exact List.cons_ne_nil _ _
          · obtain ⟨above, _, rfl⟩ := Option.map_eq_some_iff.mp assigned
            exact List.cons_ne_nil _ _

theorem Moved.ne_nil {contexts changed : List Context}
    (moved : Moved contexts changed) (chain : contexts ≠ []) :
    changed ≠ [] := by
  induction moved with
  | refl => exact chain
  | tail _ moves induction => exact moves.ne_nil induction

/-- Whatever happens to a chain, its innermost layer stays where it is. -/
theorem Moved.beneath {layer : Vars} {contexts final : List Context}
    (chain : contexts ≠ [])
    (moved : Moved (Chain.withLayer layer contexts) final) :
    ∃ last changed, final = Chain.withLayer last changed ∧
      Beneath layer last contexts changed := by
  induction moved with
  | refl => exact ⟨layer, contexts, rfl, .refl layer contexts⟩
  | tail _ moves induction =>
      obtain ⟨middle, below, rfl, before⟩ := induction
      obtain ⟨last, changed, rfl, after⟩ :=
        moves.beneath (before.moved.ne_nil chain)
      exact ⟨last, changed, rfl, before.trans after⟩

/-! ## States that show a scene -/

namespace Semantics

structure Presents (scene : Scene) (state : St W) : Prop where
  shown : Shows state.contexts scene.store
  calls : state.exec = scene.frames
  headed : Headed state.contexts

/-- Everything but the contexts and the trace. -/
structure Untouched (before after : St W) : Prop where
  vectors : after.vectors = before.vectors
  maps : after.maps = before.maps
  nextAddr : after.nextAddr = before.nextAddr
  world : after.world = before.world

theorem Untouched.refl (state : St W) : Untouched state state :=
  ⟨rfl, rfl, rfl, rfl⟩

theorem Untouched.trans {first second third : St W}
    (one : Untouched first second) (two : Untouched second third) :
    Untouched first third :=
  ⟨two.vectors.trans one.vectors, two.maps.trans one.maps,
    two.nextAddr.trans one.nextAddr, two.world.trans one.world⟩

/-- The layers are where they were, and the rest is untouched. -/
structure After (before after : St W) : Prop where
  moved : Moved before.contexts after.contexts
  untouched : Untouched before after

theorem After.refl (state : St W) : After state state :=
  ⟨.refl, .refl state⟩

theorem After.trans (first second third : St W) (one : After first second)
    (two : After second third) : After first third :=
  ⟨one.moved.trans two.moved, one.untouched.trans two.untouched⟩

/-- What a program inside a layer leaves behind: the layer may have more
bindings, and the scene has what lies beneath, except for the names the layer
had from the start. -/
structure Inside (layer : Vars) (outer : List Context) (before : St W)
    (scene : Scene) (final : St W) : Prop where
  beneath : ∃ last changed, final.contexts = Chain.withLayer last changed ∧
    Moved outer changed ∧
    (∀ name, (layer.lookup (upName name)).isSome = true →
      (last.lookup (upName name)).isSome = true) ∧
    (∀ name, (last.lookup (upName name)).isSome = true →
      Chain.lookup name changed = Chain.lookup name outer) ∧
    ∀ name, layer.lookup (upName name) = none →
      scene.store.lookup (upName name) = Chain.lookup name changed
  calls : final.exec = scene.frames
  untouched : Untouched before final

/-- A layer lies over a chain of contexts, and the scene shows both. -/
structure Over (layer : Vars) (outer : List Context) (scene : Scene)
    (state : St W) : Prop where
  contexts : state.contexts = Chain.withLayer layer outer
  headed : Headed outer
  presents : Presents scene state

section Steps

variable {call : Procedure → Scene → Answer Str Char Exc Loc} {budget : Nat}

variable (call budget) in
/-- The program does what the statement does. -/
abbrev Does (program : M W Unit) (stmt : Statement) : Prop :=
  Performs call budget Presents After program stmt

variable (call budget) in
/-- The program does so inside a layer, whose bindings the statement takes
for its own. -/
def DoesInside (program : M W Unit) (stmt : Statement) : Prop :=
  ∀ layer outer,
    Realizes call budget (Over layer outer) (Inside layer outer) program stmt

theorem Over.inside {layer : Vars} {outer : List Context} {scene : Scene}
    {state : St W} (here : Over layer outer scene state) :
    Inside layer outer state scene state where
  beneath := by
    refine ⟨layer, outer, here.contexts, .refl, fun _ bound => bound,
      fun _ _ => rfl, ?_⟩
    intro name unbound
    rw [here.presents.shown name, here.contexts,
      Chain.lookup_withLayer name layer here.headed.ne_nil, unbound,
      Option.none_or]
  calls := here.presents.calls
  untouched := .refl state

/-- What a program does, it does inside a layer. -/
theorem Does.inside {program : M W Unit} {stmt : Statement}
    (does : Does call budget program stmt) :
    DoesInside call budget program stmt := by
  intro layer outer state scene here
  apply (does state scene here.presents).mono
  intro after final kept
  have moved := kept.2.moved
  rw [here.contexts] at moved
  obtain ⟨last, changed, same, beneath⟩ := moved.beneath here.headed.ne_nil
  refine ⟨⟨last, changed, same, beneath.moved, ?_, ?_, ?_⟩, kept.1.calls,
    kept.2.untouched⟩
  · intro name bound
    exact (beneath.names name).trans bound
  · intro name bound
    exact beneath.hidden name ((beneath.names name).symm.trans bound)
  · intro name unbound
    have hidden := beneath.names name
    rw [unbound, Option.isSome_none, Option.isSome_eq_false_iff,
      Option.isNone_iff_eq_none] at hidden
    have chain := (here.headed.moved beneath.moved).ne_nil
    rw [kept.1.shown name, same, Chain.lookup_withLayer name last chain, hidden,
      Option.none_or]

theorem DoesInside.compute {program : M W Str} {expr : Expr Str Char Exc}
    {rest : Str → M W Unit} {next : Str → Statement}
    (reads : Reads Presents program expr)
    (others : ∀ value, DoesInside call budget (rest value) (next value)) :
    DoesInside call budget (program >>= rest) (.compute expr next) := by
  intro layer outer
  apply Realizes.compute
  · exact fun state scene here => reads state scene here.presents
  · exact fun _ _ here => here.inside
  · exact fun value => others value layer outer

theorem lookup_restore (key other : Str) (before vars : Variables) :
    (Store.restore key before vars).lookup other =
      if other = key then before.lookup other else vars.lookup other := by
  unfold Store.restore
  by_cases same : other = key
  · subst same
    cases bound : before.lookup other with
    | some value => rw [if_pos rfl, Finmap.lookup_insert]
    | none => rw [if_pos rfl, Finmap.lookup_erase]
  · rw [if_neg same]
    split
    · exact Finmap.lookup_insert_of_ne _ same
    · exact Finmap.lookup_erase_ne same

/-- What is left behind once the binding is undone. -/
theorem Inside.restore {layer : Vars} {outer : List Context} {scene : Scene}
    {state : St W} {name value : Str} {contexts : List Context}
    {run : Run (St W) Exc Char Unit} {answer : Answer Str Char Exc Loc}
    (here : Over layer outer scene state)
    (agrees : Agrees (Inside (layer.insert (upName name) value) outer
      { state with contexts }) run answer) :
    Agrees (Inside layer outer state) run
      (answer.map (Ending.restore (upName name) scene)) := by
  cases agrees with
  | timeout => exact .timeout
  | stuck => exact .stuck
  | @ended after final out raised left =>
      apply Agrees.ended
      obtain ⟨last, changed, same, moved, grown, hidden, shown⟩ := left.beneath
      have bound : (last.lookup (upName name)).isSome = true := by
        apply grown
        rw [AList.lookup_insert]
        rfl
      refine ⟨⟨last, changed, same, moved, ?_, hidden, ?_⟩, left.calls,
        ⟨left.untouched.vectors, left.untouched.maps, left.untouched.nextAddr,
          left.untouched.world⟩⟩
      · intro other held
        apply grown
        by_cases named : upName other = upName name
        · rw [named, AList.lookup_insert]
          rfl
        · rw [AList.lookup_insert_ne named]
          exact held
      · intro other unbound
        have chain := here.headed.ne_nil
        rw [lookup_restore]
        by_cases named : upName other = upName name
        · rw [if_pos named, here.presents.shown other, here.contexts,
            Chain.lookup_withLayer other layer chain, unbound, Option.none_or]
          exact (hidden other (by rw [named]; exact bound)).symm
        · rw [if_neg named]
          apply shown
          rw [AList.lookup_insert_ne named]
          exact unbound

/-- One more binding in the layer. -/
theorem DoesInside.declare (dcl : Dcl) (name value : Str) {rest : M W Unit}
    {stmt : Statement} (does : DoesInside call budget rest stmt) :
    DoesInside call budget (M.addValue dcl name value >>= fun _ => rest)
      (.declare (upName name) value stmt) := by
  intro layer outer state scene here
  have chain := here.headed.ne_nil
  have added := M.addValue_withLayer dcl name value layer chain here.contexts
  rw [Prog.bind_silent added, eval]
  have lies : Over (layer.insert (upName name) value) outer
      (scene.declare (upName name) value)
      { state with contexts :=
          Chain.withLayer (layer.insert (upName name) value) outer } := by
    refine ⟨rfl, here.headed, ?_, ?_, here.headed.withLayer _⟩
    · intro other
      have before := here.presents.shown other
      rw [here.contexts, Chain.lookup_withLayer other layer chain] at before
      rw [Chain.lookup_withLayer other _ chain]
      by_cases same : upName other = upName name
      · rw [same, AList.lookup_insert]
        exact Finmap.lookup_insert _
      · rw [AList.lookup_insert_ne same]
        exact (Finmap.lookup_insert_of_ne _ same).trans before
    · have calls := here.presents.calls
      obtain ⟨context, parents, rfl, _⟩ := here.headed
      simpa [St.exec, here.contexts, Chain.withLayer, Config.declare]
        using calls
  exact Inside.restore here (does _ _ _ _ lies)

/-- A layer that has just been entered. -/
theorem Presents.entered {scene : Scene} {state : St W}
    (shown : Presents scene state) :
    Over ∅ state.contexts scene (state.withLayer ∅) := by
  have chain := shown.headed.ne_nil
  refine ⟨rfl, shown.headed, ?_, ?_, shown.headed.withLayer ∅⟩
  · intro name
    have before := shown.shown name
    change _ = Chain.lookup name (Chain.withLayer ∅ state.contexts)
    rw [Chain.lookup_withLayer name ∅ chain, AList.lookup_empty,
      Option.none_or]
    exact before
  · have calls := shown.calls
    obtain ⟨context, parents, same, _⟩ := shown.headed
    simpa [St.exec, St.withLayer, same, Chain.withLayer] using calls

/-- A layer around a body. -/
theorem Does.withLayer {program : M W Unit} {stmt : Statement}
    (does : DoesInside call budget program stmt) :
    Does call budget (M.withLayer program) stmt := by
  intro state scene shown
  have agrees := does _ _ _ _ shown.entered
  cases ran : program (state.withLayer ∅) with
  | mk middle out ended =>
      rw [ran] at agrees
      generalize eval call budget stmt scene = answer at agrees
      cases agrees with
      | stuck => exact .stuck
      | timeout =>
          have entered : M.enter state = ⟨state.withLayer ∅, [], .value ()⟩ :=
            rfl
          have guarded : program.onError M.leave (state.withLayer ∅) =
              ⟨middle, _, .halt .timeout⟩ := Prog.tryCatch_halt ran _
          unfold M.withLayer
          rw [Prog.bind_silent entered, Prog.bind_halt guarded]
          exact .timeout
      | @ended after _ _ raised left =>
          obtain ⟨last, changed, same, moved, grown, hidden, shows⟩ :=
            left.beneath
          have headed := shown.headed.moved moved
          have dropped : middle.dropLayer.contexts = changed := by
            obtain ⟨context, parents, rfl, _⟩ := headed
            simp [St.dropLayer, St.mapHead, same, Chain.withLayer,
              Context.dropLayer]
          have layered : middle.Layered := by
            obtain ⟨context, parents, top, _, layers⟩ := headed.withLayer last
            exact ⟨context, parents, same.trans top, layers⟩
          have finished := outcome_finished raised
          rw [M.withLayer_finished ran finished layered]
          apply Agrees.ended
          refine ⟨⟨?_, ?_, ?_⟩, ?_, ?_⟩
          · intro name
            rw [dropped]
            exact shows name (AList.lookup_empty _)
          · rw [← left.calls]
            obtain ⟨context, parents, rfl, _⟩ := headed
            simp [St.exec, same, dropped, Chain.withLayer]
          · rw [dropped]
            exact headed
          · rw [dropped]
            exact moved
          · exact ⟨left.untouched.vectors, left.untouched.maps,
              left.untouched.nextAddr, left.untouched.world⟩

/-- A handler inside the layer that changes nothing. -/
theorem DoesInside.ignore {program : M W Unit} {stmt : Statement}
    {catches : Exc → Bool} (does : DoesInside call budget program stmt) :
    DoesInside call budget
      (program.tryCatch fun exception =>
        if catches exception then pure () else Prog.throw exception)
      (.rescue stmt catches fun _ => .write []) := by
  intro layer outer
  apply Realizes.rescue (does layer outer)
  · intro exception known state scene middle left
    rw [if_pos known]
    exact .value [] left
  · intro exception known
    rw [if_neg (by simp [known])]

theorem Does.record {event : Event} {program : M W Unit} {stmt : Statement}
    (does : Does call budget program stmt) :
    Does call budget (M.record event >>= fun _ => program) stmt := by
  intro state scene shown
  have recorded : M.record event state =
      ⟨state.record event, [], .value ()⟩ := rfl
  rw [Prog.bind_silent recorded]
  have kept : Presents scene (state.record event) :=
    ⟨shown.shown, shown.calls, shown.headed⟩
  have after : After state (state.record event) :=
    ⟨.refl, ⟨rfl, rfl, rfl, rfl⟩⟩
  exact (does _ scene kept).since After.trans after

/-- The active calls are those of the context at hand. -/
theorem exec_congr {before after : St W}
    (same : after.contexts.map Context.exec =
      before.contexts.map Context.exec) : after.exec = before.exec := by
  unfold St.exec
  cases first : before.contexts with
  | nil =>
      rw [first, List.map_nil, List.map_eq_nil_iff] at same
      rw [same]
  | cons context parents =>
      rw [first, List.map_cons] at same
      obtain ⟨other, rest, same, head, _⟩ := List.map_eq_cons_iff.mp same
      rw [same]
      exact head

theorem Does.assign (dcl : Dcl) (name value : Str) :
    Does call budget (M.setValue dcl name value : M W Unit)
      (assign dcl name value) := by
  intro state scene shown
  rw [Semantics.assign, eval, shown.shown name]
  cases bound : Chain.lookup name state.contexts with
  | none =>
      have unbound : ¬ Bound state.contexts name := by
        simp [Bound, bound]
      have ran : M.setValue dcl name value state =
          ⟨state, [], .error (undefinedVariable dcl name)⟩ := by
        simp only [M.setValue, Prog.act,
          Chain.setValue_of_not_bound unbound value]
        rfl
      rw [ran]
      exact .error [] _ ⟨shown, .refl state⟩
  | some old =>
      have isBound : Bound state.contexts name := by
        simp [Bound, bound]
      obtain ⟨changed, set⟩ := Chain.setValue_of_bound isBound value
      have ran : M.setValue dcl name value state =
          ⟨{ state with contexts := changed }, [], .value ()⟩ := by
        simp only [M.setValue, Prog.act, set]
      have moves : Moves state.contexts changed := .set set
      rw [ran]
      refine .value [] ⟨⟨?_, ?_, shown.headed.moves moves⟩, .single moves,
        ⟨rfl, rfl, rfl, rfl⟩⟩
      · intro other
        rw [Chain.lookup_setValue set other]
        simp only [List.mem_singleton, exists_eq_left]
        by_cases same : upName other = upName name
        · rw [if_pos same, same]
          exact Finmap.lookup_insert _
        · rw [if_neg same]
          exact (Finmap.lookup_insert_of_ne _ same).trans (shown.shown other)
      · exact (exec_congr (CallStack.setValue_execs set)).trans shown.calls

/-! ## Calls -/

theorem Presents.withCalls {scene : Scene} {state final : St W}
    (shown : Presents scene state) {calls : List Loc}
    (same : final.contexts = Chain.withCalls calls state.contexts) :
    Presents { scene with frames := calls } final := by
  obtain ⟨context, parents, top, isLocal, layers⟩ := shown.headed
  have whole : final.contexts = { context with exec := calls } :: parents := by
    rw [same, top]
    rfl
  refine ⟨?_, ?_, ⟨_, parents, whole, isLocal, layers⟩⟩
  · intro name
    refine (shown.shown name).trans ?_
    rw [whole, top]
    rfl
  · simp [St.exec, whole]

theorem push_eq (loc : Loc) {scene : Scene} {state : St W}
    (shown : Presents scene state) :
    ∃ final, M.push loc state = ⟨final, [], .value ()⟩ ∧
      Presents { scene with frames := loc :: scene.frames } final ∧
      After state final := by
  obtain ⟨context, parents, top, isLocal, layers⟩ := shown.headed
  have calls := shown.calls
  have same : (state.mapHead (Context.push loc)).contexts =
      Chain.withCalls (loc :: scene.frames) state.contexts := by
    rw [← calls]
    simp [St.mapHead, St.exec, top, Chain.withCalls, Context.push]
  refine ⟨_, rfl, shown.withCalls same, ?_, ⟨rfl, rfl, rfl, rfl⟩⟩
  rw [same]
  exact .single (.calls _ _)

theorem pop_eq {scene : Scene} {state : St W} (shown : Presents scene state) :
    ∃ final, M.pop state = ⟨final, [], .value scene.frames.head?⟩ ∧
      Presents { scene with frames := scene.frames.tail } final ∧
      After state final := by
  have calls := shown.calls
  cases active : state.exec with
  | nil =>
      rw [active] at calls
      have ran : M.pop state = ⟨state, [], .value none⟩ := by
        simp only [M.pop, Prog.act, active]
      rw [← calls]
      refine ⟨state, ran, ?_, .refl state⟩
      exact ⟨shown.shown, active, shown.headed⟩
  | cons loc rest =>
      rw [active] at calls
      obtain ⟨context, parents, top, isLocal, layers⟩ := shown.headed
      have ran : M.pop state =
          ⟨state.mapHead Context.popCall, [], .value (some loc)⟩ := by
        simp only [M.pop, Prog.act, active]
      have same : (state.mapHead Context.popCall).contexts =
          Chain.withCalls rest state.contexts := by
        rw [St.exec, top] at active
        simp [St.mapHead, top, Chain.withCalls, Context.popCall, active]
      rw [← calls]
      refine ⟨_, ran, shown.withCalls same, ?_, ⟨rfl, rfl, rfl, rfl⟩⟩
      rw [same]
      exact .single (.calls _ _)

/-- The end of a call. -/
theorem return_eq {scene : Scene} {state : St W}
    (shown : Presents scene state) :
    ∃ final, (M.pop >>= fun _ => M.record .ret) state =
        ⟨final, [], .value ()⟩ ∧
      Presents { scene with frames := scene.frames.tail } final ∧
      After state final := by
  obtain ⟨popped, ran, left, after⟩ := pop_eq shown
  refine ⟨popped.record .ret, ?_, ⟨left.shown, left.calls, left.headed⟩,
    after.moved, after.untouched.trans ⟨rfl, rfl, rfl, rfl⟩⟩
  rw [Prog.bind_silent ran]
  rfl

/-- A call of a definition, with the call on the stack meanwhile. -/
theorem Does.invoke {interp : Interp W} {self definition : Loc}
    {stmt : Statement}
    (does : Does call budget (interp.run definition (some self)) stmt) :
    Does call budget (DbPager.invoke interp self definition)
      (.enter self stmt) := by
  unfold DbPager.invoke
  apply Does.record
  intro state scene shown
  obtain ⟨pushed, ran, inside, before⟩ := push_eq self shown
  have agrees := does pushed _ inside
  rw [Prog.bind_silent ran, eval]
  cases body : interp.run definition (some self) pushed with
  | mk middle out ended =>
      rw [body] at agrees
      generalize eval call budget stmt _ = answer at agrees
      cases agrees with
      | stuck => exact .stuck
      | timeout =>
          have guarded : (interp.run definition (some self)).onError
              (M.pop >>= fun _ => M.record .ret) pushed =
                ⟨middle, _, .halt .timeout⟩ := Prog.tryCatch_halt body _
          rw [Prog.bind_halt guarded]
          exact .timeout
      | @ended last _ _ raised kept =>
          obtain ⟨final, returned, shows, after⟩ := return_eq kept.1
          have since : After state final :=
            .trans _ _ _ (.trans _ _ _ before kept.2) after
          cases raised with
          | none =>
              rw [Prog.bind_eq (Prog.onError_eq body _), returned,
                List.append_nil]
              exact .value out ⟨shows, since⟩
          | some exception =>
              have failed := Prog.onError_error body
                (M.pop >>= fun _ => M.record .ret)
              rw [returned, List.append_nil] at failed
              rw [Prog.bind_error failed]
              exact .error out exception ⟨shows, since⟩

/-! ## Slots -/

variable (call budget) in
/-- The program does what the statement does, and pushes the call back unless
an exception is raised. -/
def DoesBack (loc : Loc) (program : M W Unit) (stmt : Statement) : Prop :=
  ∀ state scene, Presents scene state →
    Agrees (Kept Presents After state) (program state)
      ((eval call budget stmt scene).putBack loc)

/-- The program pushes the call back, and may leave a trace. -/
def Pushes (loc : Loc) (program : M W Unit) : Prop :=
  ∀ state (scene : Scene), Presents scene state →
    ∃ final, program state = ⟨final, [], .value ()⟩ ∧
      Presents { scene with frames := loc :: scene.frames } final ∧
      After state final

theorem pushes_push (loc : Loc) : Pushes loc (M.push loc : M W Unit) :=
  fun _ _ shown => push_eq loc shown

theorem pushes_record (loc : Loc) (event : Event) :
    Pushes loc (M.push loc >>= fun _ => M.record event : M W Unit) := by
  intro state scene shown
  obtain ⟨pushed, ran, left, after⟩ := push_eq loc shown
  refine ⟨pushed.record event, ?_, ⟨left.shown, left.calls, left.headed⟩,
    after.moved, after.untouched.trans ⟨rfl, rfl, rfl, rfl⟩⟩
  rw [Prog.bind_silent ran]
  rfl

theorem Pushes.back {loc : Loc} {program : M W Unit}
    (pushes : Pushes loc program) :
    DoesBack call budget loc program (.write []) := by
  intro state scene shown
  obtain ⟨final, ran, left, after⟩ := pushes state scene shown
  rw [ran]
  exact .value [] ⟨left, after⟩

/-- What is rendered comes before the call is pushed back. -/
theorem Does.back {loc : Loc} {program push : M W Unit} {stmt : Statement}
    (does : Does call budget program stmt) (pushes : Pushes loc push) :
    DoesBack call budget loc (program >>= fun _ => push) stmt := by
  intro state scene shown
  have agrees := does state scene shown
  cases ran : program state with
  | mk middle out ended =>
      rw [ran] at agrees
      generalize eval call budget stmt scene = answer at agrees
      cases agrees with
      | stuck => exact .stuck
      | timeout =>
          rw [Prog.bind_halt ran]
          exact .timeout
      | @ended last _ _ raised kept =>
          cases raised with
          | some exception =>
              rw [Prog.bind_error ran]
              exact .error out exception kept
          | none =>
              obtain ⟨final, pushed, left, after⟩ := pushes middle last kept.1
              rw [Prog.bind_eq ran, pushed, List.append_nil]
              exact .value out ⟨left, .trans _ _ _ kept.2 after⟩

theorem DoesBack.record {loc : Loc} {event : Event} {program : M W Unit}
    {stmt : Statement} (does : DoesBack call budget loc program stmt) :
    DoesBack call budget loc (M.record event >>= fun _ => program) stmt := by
  intro state scene shown
  have recorded : M.record event state =
      ⟨state.record event, [], .value ()⟩ := rfl
  rw [Prog.bind_silent recorded]
  have kept : Presents scene (state.record event) :=
    ⟨shown.shown, shown.calls, shown.headed⟩
  have after : After state (state.record event) :=
    ⟨.refl, ⟨rfl, rfl, rfl, rfl⟩⟩
  exact (does _ scene kept).since After.trans after

theorem DoesBack.compute {loc : Loc} {program : M W Str}
    {expr : Expr Str Char Exc} {rest : Str → M W Unit}
    {next : Str → Statement} (reads : Reads Presents program expr)
    (others : ∀ value,
      DoesBack call budget loc (rest value) (next value)) :
    DoesBack call budget loc (program >>= rest) (.compute expr next) := by
  intro state scene shown
  rw [eval, withValue]
  cases known : expr scene.store with
  | none => exact .stuck
  | some result =>
      have read := reads state scene shown result known
      cases result with
      | error exception =>
          rw [Prog.bind_error read]
          exact .error [] exception ⟨shown, .refl state⟩
      | ok value =>
          rw [Prog.bind_silent read]
          exact others value state scene shown

/-- The slot of the innermost call runs with the call taken off. -/
theorem Does.slot {body : Loc → M W Unit} {stmt : Loc → Statement}
    (does : ∀ loc, DoesBack call budget loc (body loc) (stmt loc)) :
    Does call budget
      (M.pop >>= fun
        | none => pure ()
        | some loc => (body loc).onError (M.record .unwound))
      (.slot stmt) := by
  intro state scene shown
  obtain ⟨popped, ran, left, before⟩ := pop_eq shown
  rw [Prog.bind_silent ran, eval]
  cases frames : scene.frames with
  | nil =>
      rw [frames] at left
      refine .value [] ⟨⟨left.shown, left.calls.trans frames.symm, left.headed⟩,
        before⟩
  | cons loc rest =>
      rw [frames, List.tail_cons] at left
      have agrees := (does loc popped _ left).since After.trans before
      simp only [List.head?_cons]
      cases rendered : body loc popped with
      | mk middle out ended =>
          rw [rendered] at agrees
          generalize Answer.putBack loc _ = answer at agrees ⊢
          cases agrees with
          | stuck => exact .stuck
          | timeout =>
              have guarded : (body loc).onError (M.record .unwound) popped =
                  ⟨middle, _, .halt .timeout⟩ := Prog.tryCatch_halt rendered _
              rw [guarded]
              exact .timeout
          | @ended last _ _ raised kept =>
              cases raised with
              | none =>
                  rw [Prog.onError_eq rendered]
                  exact .value out kept
              | some exception =>
                  have failed := Prog.onError_error rendered (M.record .unwound)
                  have recorded : M.record .unwound middle =
                      ⟨middle.record .unwound, [], .value ()⟩ := rfl
                  rw [recorded, List.append_nil] at failed
                  rw [failed]
                  exact .error out exception
                    ⟨⟨kept.1.shown, kept.1.calls, kept.1.headed⟩,
                      kept.2.moved,
                      kept.2.untouched.trans ⟨rfl, rfl, rfl, rfl⟩⟩

end Steps

end Semantics

end DbPager
