import DbPager.CallStack
import DbPager.Library.Output

/-!
# The lexical meaning of dbp:execute

A call of a custom tag is a closure: its body, and the slots in it, belong to
the environment in which the call itself was executed.  The environments are
computed from the events of a run alone; they list the active calls of the
definitions around a piece of code, each with the definition it has selected.
The interpreter has no environments, only one stack of calls that is popped
while a body is rendered.  Here the stack is shown to agree with the
environments, and the environments with the text of the program, whenever a
`dbp:execute` is reached.
-/

namespace DbPager

open Effect

variable {W : Type}

namespace Lexical

section Programs

/-- The nearest definition or call around a piece of code is a definition. -/
def inDefinition : List Tag → Bool
  | [] => false
  | tag :: up =>
      if tag.kind.isTag then true
      else if tag.kind.isUsr then false
      else inDefinition up

/-- What the programs considered here require of a single tag: it is no
`dbp:async` and no tag that only an expression creates, a definition is not
written directly inside another one, and a linked call is linked to a
definition. -/
def tagAllowed (up : List Tag) (tag : Tag) : Bool :=
  match tag.kind with
  | .async | .function _ | .userFunction _ => false
  | .tag _ => !inDefinition up
  | .usr _ (some addr) =>
      (findAddr addr up).all fun found => found.tag.kind.isTag
  | _ => true

mutual

/-- Every tag of the tree is allowed where it stands. -/
def allowed (up : List Tag) : Tag → Bool
  | .mk addr kind params childs text =>
      tagAllowed up (.mk addr kind params childs text) &&
        allowedAll (.mk addr kind params childs text :: up) childs

def allowedAll (up : List Tag) : List Tag → Bool
  | [] => true
  | tag :: tags => allowed up tag && allowedAll up tags

end

theorem allowed_iff (up : List Tag) (tag : Tag) :
    allowed up tag = true ↔
      tagAllowed up tag = true ∧
        ∀ child ∈ tag.childs, allowed (tag :: up) child = true := by
  have all : ∀ up tags, allowedAll up tags = true ↔
      ∀ child ∈ tags, allowed up child = true := by
    intro up tags
    induction tags with
    | nil => simp [allowedAll]
    | cons tag tags induction => simp [allowedAll, induction]
  rcases tag with ⟨addr, kind, params, childs, text⟩
  simp [allowed, all, Tag.childs]

/-- A tag of the program with its ancestors, or a tag that an expression
creates below one; such a tag has no children. -/
inductive Path (root : Tag) : List Tag → Prop where
  | root : Path root [root]
  | child {parent tag : Tag} {up : List Tag} :
      Path root (parent :: up) → tag ∈ parent.childs →
      Path root (tag :: parent :: up)
  | temp {parent tag : Tag} {up : List Tag} :
      Path root (parent :: up) → tag.childs = [] → tag.kind.isTag = false →
      Path root (tag :: parent :: up)

theorem Path.tail {root tag : Tag} {up : List Tag}
    (path : Path root (tag :: up)) : up = [] ∨ Path root up := by
  cases path with
  | root => exact .inl rfl
  | child placed member => exact .inr placed
  | temp placed empty plain => exact .inr placed

section Placed

variable {root : Tag} (program : Lexical.allowed [] root = true)
include program

theorem Path.allowed {tag : Tag} {up : List Tag} (path : Path root (tag :: up))
    (parent : tag.childs ≠ []) : Lexical.allowed up tag = true := by
  generalize tags : tag :: up = all at path
  induction path generalizing tag up with
  | root =>
      cases tags
      exact program
  | child above member induction =>
      cases tags
      have childs := induction (List.ne_nil_of_mem member) rfl
      exact ((allowed_iff _ _).mp childs).2 _ member
  | temp above empty plain induction =>
      cases tags
      exact absurd empty parent

/-- A child of one of the ancestors is a tag of the program. -/
theorem Path.childOfAncestor {up : List Tag} {found : Loc}
    (path : up = [] ∨ Path root up) (ancestor : ChildOfAncestor found up) :
    Path root (found.tag :: found.up) ∧
      Lexical.allowed found.up found.tag = true := by
  induction ancestor with
  | here member above =>
      have placed := path.resolve_left (List.cons_ne_nil _ _)
      have parent := placed.allowed program (List.ne_nil_of_mem member)
      have childs := ((allowed_iff _ _).mp parent).2
      rw [above]
      exact ⟨Path.child placed member, childs _ member⟩
  | above ancestor induction =>
      exact induction (path.resolve_left (List.cons_ne_nil _ _)).tail

end Placed

theorem isTag_of_isUsr {kind : Kind} (isUsr : kind.isUsr = true) :
    kind.isTag = false := by
  cases kind <;> simp_all [Kind.isUsr, Kind.isTag]

/-- A name that starts with `@` belongs to a definition, or to a tag that an
expression has created. -/
theorem isTag_of_name {kind : Kind} {name : Str}
    (named : kind.getName = '@' :: name)
    (function : ∀ builtin, kind ≠ .function builtin)
    (userFunction : ∀ name, kind ≠ .userFunction name) :
    kind.isTag = true := by
  cases kind with
  | tag name => rfl
  | function builtin => exact absurd rfl (function builtin)
  | userFunction name => exact absurd rfl (userFunction name)
  | unknown name =>
      refine absurd ?_ name.plain
      have head := congrArg List.head? named
      exact head
  | usr name userTag =>
      refine absurd ?_ name.plain
      have head := congrArg List.head? named
      exact head
  | expression => cases named
  | cdata => cases named
  | _ =>
      have head : _ = some '@' := congrArg List.head? named
      exact absurd head (by decide)

theorem isTag_of_allowed {up : List Tag} {tag : Tag} {name : Str}
    (ok : tagAllowed up tag = true) (named : tag.getName = '@' :: name) :
    tag.kind.isTag = true := by
  refine isTag_of_name named ?_ ?_
  · intro builtin kind
    simp [tagAllowed, kind] at ok
  · intro name kind
    simp [tagAllowed, kind] at ok

/-- A slot of a call is a definition in its body. -/
theorem Path.slot {root : Tag} (program : Lexical.allowed [] root = true)
    {call slot : Loc} {name : Str} (path : Path root (call.tag :: call.up))
    (found : call.getChild ('@' :: name) = some slot) :
    Path root (slot.tag :: slot.up) ∧
      Lexical.allowed slot.up slot.tag = true ∧
      slot.tag.kind.isTag = true := by
  obtain ⟨member, above, named⟩ := Loc.getChild_spec found
  have ok := path.allowed program (List.ne_nil_of_mem member)
  have slotOk := ((allowed_iff _ _).mp ok).2 _ member
  rw [above]
  exact ⟨Path.child path member, slotOk,
    isTag_of_allowed ((allowed_iff _ _).mp slotOk).1 named⟩

end Programs

section Environments

/-- The active calls of the definitions around a piece of code, innermost
first, each with its definition. -/
abbrev Env := List (Loc × Loc)

/-- The innermost of the environments. -/
def Env.innermost (environments : List Env) : Env :=
  environments.head?.getD []

/-- The environments of all code that is being executed after the given
events, innermost first.  A definition runs in the environment of its call,
extended by the call; a body or a slot runs in the environment of the call
it belongs to. -/
def envs : List Event → List Env
  | [] => [[]]
  | .call caller definition :: past =>
      ((caller, definition) :: Env.innermost (envs past)) :: envs past
  | .render _ _ _ :: past => (Env.innermost (envs past)).tail :: envs past
  | .ret :: past => (envs past).tail
  | .rendered :: past => (envs past).tail
  | .reached _ _ :: past => envs past
  | .unwound :: past => envs past
  | .leak _ :: past => envs past

/-- The environment of the code at hand. -/
def current (past : List Event) : Env :=
  Env.innermost (envs past)

/-- The environment belongs to code with the given ancestors: at the level of
the module it is empty, inside a definition it starts with the call that has
selected the definition, and the body of a call, or a slot in it, has the
environment of the call. -/
inductive Scope (root : Tag) : List Tag → Env → Prop where
  | module : Scope root [] []
  | inside {tag : Tag} {up : List Tag} {env : Env} :
      tag.kind.isTag = false → Scope root up env → Scope root (tag :: up) env
  | called {caller definition : Loc} {env : Env} :
      caller.tag.kind.isUsr = true → definition.tag.kind.isTag = true →
      Path root (caller.tag :: caller.up) →
      ChildOfAncestor definition caller.up → Scope root caller.up env →
      Scope root (definition.tag :: definition.up)
        ((caller, definition) :: env)
  | slot {tag call : Tag} {up : List Tag} {env : Env} :
      tag.kind.isTag = true → call.kind.isUsr = true →
      Scope root (call :: up) env → Scope root (tag :: call :: up) env

/-- The active call of the nearest definition belongs to the program, and
what lies below it is the environment of that call. -/
theorem Scope.caller {root : Tag} {up : List Tag} {call definition : Loc}
    {env : Env} (scope : Scope root up ((call, definition) :: env)) :
    call.tag.kind.isUsr = true ∧ Path root (call.tag :: call.up) ∧
      Scope root call.up env := by
  generalize whole : (call, definition) :: env = full at scope
  induction scope with
  | module => cases whole
  | inside plain scope induction => exact induction whole
  | called isUsr isTag path ancestor scope induction =>
      cases whole
      exact ⟨isUsr, path, scope⟩
  | slot isTag isUsr scope induction => exact induction whole

/-- The body of a call has the environment of the call. -/
theorem Scope.body {root call : Tag} {up : List Tag} {env : Env}
    (scope : Scope root (call :: up) env) (isUsr : call.kind.isUsr = true) :
    Scope root up env := by
  have plain := isTag_of_isUsr isUsr
  generalize whole : call :: up = all at scope
  cases scope with
  | module => cases whole
  | inside kind scope =>
      cases whole
      exact scope
  | called other isTag path ancestor scope =>
      injection whole with same
      rw [same, isTag] at plain
      cases plain
  | slot isTag other scope =>
      injection whole with same
      rw [same, isTag] at plain
      cases plain

/-- At the level of the module there is no active call. -/
theorem Scope.empty {root : Tag} {up : List Tag} {env : Env}
    (scope : Scope root up env)
    (plain : ∀ tag ∈ up, tag.kind.isTag = false) : env = [] := by
  induction scope with
  | module => rfl
  | inside kind scope induction =>
      exact induction fun tag member => plain tag (by simp [member])
  | called isUsr isTag path ancestor scope induction =>
      have kind := plain _ List.mem_cons_self
      rw [isTag] at kind
      cases kind
  | slot isTag isUsr scope induction =>
      have kind := plain _ List.mem_cons_self
      rw [isTag] at kind
      cases kind

/-- Inside a definition the first call of the environment is a call of that
very definition, unless the definition is a slot in the body of a call: then
the environment is that of the call. -/
theorem Scope.enclosing {root : Tag} {tags up : List Tag} {tag : Tag}
    {env : Env} (scope : Scope root (tags ++ tag :: up) env)
    (plain : ∀ tag ∈ tags, tag.kind.isTag = false)
    (isTag : tag.kind.isTag = true) :
    (∃ call calls, env = (call, ⟨tag, up⟩) :: calls) ∨
      ∃ call above, up = call :: above ∧ call.kind.isUsr = true ∧
        Scope root above env := by
  induction tags with
  | nil =>
      generalize whole : ([] : List Tag) ++ tag :: up = all at scope
      cases scope with
      | module => cases whole
      | inside kind scope =>
          cases whole
          rw [isTag] at kind
          cases kind
      | called isUsr isTag path ancestor scope =>
          cases whole
          exact .inl ⟨_, _, rfl⟩
      | slot isTag isUsr scope =>
          cases whole
          exact .inr ⟨_, _, rfl, isUsr, scope.body isUsr⟩
  | cons first tags induction =>
      have kind := plain first List.mem_cons_self
      generalize whole : (first :: tags) ++ tag :: up = all at scope
      cases scope with
      | module => cases whole
      | inside other scope =>
          cases whole
          exact induction scope fun tag member => plain tag (by simp [member])
      | called isUsr isTag path ancestor scope =>
          injection whole with same
          rw [same, isTag] at kind
          cases kind
      | slot isTag isUsr scope =>
          injection whole with same
          rw [same, isTag] at kind
          cases kind

/-- The stack of calls agrees with an environment.  Below a call without
children nothing is said: its body is never rendered into anything. -/
inductive Match : List Loc → Env → Prop where
  | nil : Match [] []
  | cons {call definition : Loc} {calls : List Loc} {env : Env} :
      Match calls env → Match (call :: calls) ((call, definition) :: env)
  | temp {call definition : Loc} {calls : List Loc} {env : Env} :
      call.tag.childs = [] →
      Match (call :: calls) ((call, definition) :: env)

theorem Match.head {calls : List Loc} {env : Env} (fits : Match calls env) :
    calls.head? = env.head?.map Prod.fst := by
  cases fits <;> rfl

/-- What holds of an event after the events before it. -/
def Good (root : Tag) : Event → List Event → Prop
  | .reached self exec, past =>
      exec.head? = (current past).head?.map Prod.fst ∧
        Scope root self.up (current past)
  | .render self call name, past =>
      (∃ definition env, current past = (call, definition) :: env) ∧
        Scope root self.up (current past) ∧
        (self.findParam "name".toList = none → name = []) ∧
        (name ≠ [] → ∃ slot, call.getChild ('@' :: name) = some slot ∧
          slot.tag.kind.isTag = true)
  | _, _ => True

/-- Every event of a trace is good; the latest event comes first. -/
def AllGood (root : Tag) : List Event → Prop
  | [] => True
  | event :: past => Good root event past ∧ AllGood root past

theorem AllGood.event {root : Tag} {events past : List Event} {event : Event}
    (good : AllGood root (events ++ event :: past)) :
    Good root event past := by
  induction events with
  | nil => exact good.1
  | cons first events induction => exact induction good.2

end Environments

section Contracts

/-- The state before a piece of code with the given ancestors: all that has
happened is good, the stack of calls fits the environment in the given sense,
and the environment belongs to the code. -/
structure Ready (root : Tag) (fits : List Loc → Env → Prop) (up : List Tag)
    (state : St W) : Prop where
  chain : state.contexts ≠ []
  good : AllGood root state.trace
  fit : fits state.exec (current state.trace)
  scope : Scope root up (current state.trace)

/-- What a finished piece of code leaves behind. -/
structure Kept (root : Tag) (first second : St W) : Prop where
  good : AllGood root second.trace
  envs : envs second.trace = envs first.trace
  execs : CallStack.execs second = CallStack.execs first

theorem exec_of_execs {first second : St W}
    (same : CallStack.execs second = CallStack.execs first) :
    second.exec = first.exec := by
  rcases first with ⟨contexts, vectors, maps, nextAddr, world, trace⟩
  rcases second with ⟨contexts', vectors', maps', nextAddr', world', trace'⟩
  cases contexts <;> cases contexts' <;>
    simp_all [CallStack.execs, St.exec]

theorem chain_of_execs {first second : St W}
    (same : CallStack.execs second = CallStack.execs first)
    (chain : first.contexts ≠ []) : second.contexts ≠ [] := by
  intro none
  rw [CallStack.execs, CallStack.execs, none] at same
  exact chain (List.map_eq_nil_iff.mp same.symm)

theorem Kept.current {root : Tag} {first second : St W}
    (kept : Kept root first second) :
    current second.trace = current first.trace := by
  simp [Lexical.current, kept.envs]

theorem Kept.trans {root : Tag} {first second third : St W}
    (before : Kept root first second) (after : Kept root second third) :
    Kept root first third :=
  ⟨after.good, after.envs.trans before.envs, after.execs.trans before.execs⟩

theorem Ready.kept {root : Tag} {fits : List Loc → Env → Prop}
    {up : List Tag} {first second : St W}
    (ready : Ready root fits up first) (kept : Kept root first second) :
    Ready root fits up second := by
  refine ⟨chain_of_execs kept.execs ready.chain, kept.good, ?_, ?_⟩
  · rw [exec_of_execs kept.execs, kept.current]
    exact ready.fit
  · rw [kept.current]
    exact ready.scope

/-- Code that starts in a state that is ready for it leaves everything as it
should be, unless an exception leaves a `dbp:execute`. -/
def contract (root : Tag) (fits : List Loc → Env → Prop) (up : List Tag) :
    Contract (St W) where
  done first second := first.trace <:+ second.trace ∧
    (Ready root fits up first →
      .unwound ∈ second.trace ∨ Kept root first second)
  halted first second := first.trace <:+ second.trace ∧
    (Ready root fits up first →
      .unwound ∈ second.trace ∨ AllGood root second.trace)
  done_refl state :=
    ⟨List.suffix_rfl, fun ready => .inr ⟨ready.good, rfl, rfl⟩⟩
  done_trans := by
    rintro first second third ⟨before, firstDone⟩ ⟨after, secondDone⟩
    refine ⟨before.trans after, fun ready => ?_⟩
    rcases firstDone ready with unwound | kept
    · exact .inl (after.subset unwound)
    · exact (secondDone (ready.kept kept)).imp id kept.trans
  halted_refl state := ⟨List.suffix_rfl, fun ready => .inr ready.good⟩
  done_halted := by
    rintro first second third ⟨before, firstDone⟩ ⟨after, secondHalted⟩
    refine ⟨before.trans after, fun ready => ?_⟩
    rcases firstDone ready with unwound | kept
    · exact .inl (after.subset unwound)
    · exact secondHalted (ready.kept kept)

/-- The stack of calls may be anything. -/
def anyStack : List Loc → Env → Prop :=
  fun _ _ => True

variable {root : Tag} {fits : List Loc → Env → Prop} {up : List Tag}

/-- Code for which more states are ready can be used where fewer are. -/
theorem weaken {fits' : List Loc → Env → Prop} {up' : List Tag} {α : Type}
    {program : M W α}
    (ready : ∀ state : St W, Ready root fits up state →
      Ready root fits' up' state)
    (keeps : Keeps (contract root fits' up') program) :
    Keeps (contract root fits up) program := by
  intro state
  refine Prog.Wp.mono (keeps state) fun outcome final meets => ?_
  cases outcome with
  | value result => exact ⟨meets.1, fun start => meets.2 (ready _ start)⟩
  | error exception => exact ⟨meets.1, fun start => meets.2 (ready _ start)⟩
  | halt reason => exact ⟨meets.1, fun start => meets.2 (ready _ start)⟩

theorem Ready.inside {state : St W} (ready : Ready root fits up state)
    {tag : Tag} (plain : tag.kind.isTag = false) :
    Ready root fits (tag :: up) state :=
  ⟨ready.chain, ready.good, ready.fit, .inside plain ready.scope⟩

theorem Ready.forget {state : St W} (ready : Ready root fits up state) :
    Ready root anyStack up state :=
  ⟨ready.chain, ready.good, trivial, ready.scope⟩

theorem ready_dropLayer {state : St W} :
    Ready root fits up state.dropLayer ↔ Ready root fits up state := by
  have same := CallStack.execs_dropLayer state
  have exec := exec_of_execs same
  constructor
  · rintro ⟨chain, good, fit, scope⟩
    exact ⟨chain_of_execs same.symm chain, good, exec ▸ fit, scope⟩
  · rintro ⟨chain, good, fit, scope⟩
    exact ⟨chain_of_execs same chain, good, exec.symm ▸ fit, scope⟩

theorem contract_done_of_execs {first second : St W}
    (trace : second.trace = first.trace)
    (same : CallStack.execs second = CallStack.execs first) :
    (contract root fits up).done first second :=
  ⟨trace ▸ List.suffix_rfl,
    fun ready => .inr ⟨trace ▸ ready.good, by rw [trace], same⟩⟩

theorem contract_tolerant (dcl : Dcl) :
    Tolerant dcl (contract root fits up : Contract (St W)) where
  quiet contexts trace := contract_done_of_execs trace
    (by rw [CallStack.execs, CallStack.execs, contexts])
  assign result :=
    contract_done_of_execs rfl (CallStack.setValue_execs result)
  declare := by
    intro state name value type context parents changed chain named other added
    refine contract_done_of_execs rfl ?_
    simp [CallStack.execs, chain, CallStack.addValue_execs added]
  drop := by
    rintro first second ⟨grows, kept⟩
    refine ⟨grows, fun ready => ?_⟩
    refine (kept (ready_dropLayer.mp ready)).imp id fun kept => ?_
    exact ⟨kept.good, kept.envs, by simpa using kept.execs⟩
  drop_halted := by
    rintro first second ⟨grows, good⟩
    exact ⟨grows, fun ready => good (ready_dropLayer.mp ready)⟩
  halt_inside := id
  leak := by
    rintro first second stack place ⟨grows, kept⟩
    refine ⟨grows.trans (List.suffix_cons _ _), fun ready => ?_⟩
    refine (kept ready).imp (List.mem_cons_of_mem _) fun kept => ?_
    refine ⟨⟨trivial, kept.good⟩, kept.envs, ?_⟩
    exact (CallStack.execs_withStack stack second).trans kept.execs

end Contracts

section Calls

variable {interp : Interp W} {root : Tag} {self definition : Loc}
  {fits : List Loc → Env → Prop}

theorem exec_push (loc : Loc) (state : St W) (chain : state.contexts ≠ []) :
    (state.mapHead (Context.push loc)).exec = loc :: state.exec := by
  rcases state with ⟨contexts, vectors, maps, nextAddr, world, trace⟩
  cases contexts with
  | nil => exact absurd rfl chain
  | cons context parents => rfl

theorem exec_pop {state : St W} {call : Loc} {calls : List Loc}
    (top : state.exec = call :: calls) :
    (state.mapHead Context.popCall).exec = calls := by
  rcases state with ⟨contexts, vectors, maps, nextAddr, world, trace⟩
  cases contexts with
  | nil => simp [St.exec] at top
  | cons context parents =>
      rcases context with ⟨type, stack, exec, services⟩
      cases top
      rfl

theorem chain_mapHead {state : St W} (change : Context → Context)
    (chain : state.contexts ≠ []) : (state.mapHead change).contexts ≠ [] := by
  rcases state with ⟨contexts, vectors, maps, nextAddr, world, trace⟩
  cases contexts with
  | nil => exact absurd rfl chain
  | cons context parents => exact List.cons_ne_nil _ _

/-- A selected definition starts in the environment of its call, extended by
the call. -/
theorem Ready.call (isUsr : self.tag.kind.isUsr = true)
    (isTag : definition.tag.kind.isTag = true)
    (path : Path root (self.tag :: self.up))
    (ancestor : ChildOfAncestor definition self.up)
    (extend : ∀ {calls env}, fits calls env →
      Match (self :: calls) ((self, definition) :: env))
    {state : St W} (ready : Ready root fits self.up state) :
    Ready root Match (definition.tag :: definition.up)
      ((state.record (.call self definition)).mapHead
        (Context.push self)) where
  chain := chain_mapHead _ ready.chain
  good := ⟨trivial, ready.good⟩
  fit := by
    rw [exec_push self (state.record _) ready.chain]
    exact extend ready.fit
  scope := .called isUsr isTag path ancestor ready.scope

theorem returned {up : List Tag} {state final : St W}
    (start : Ready root fits self.up state →
      Ready root Match up
        ((state.record (.call self definition)).mapHead (Context.push self)))
    (finished : (contract root Match up).done
      ((state.record (.call self definition)).mapHead (Context.push self))
      final) :
    (contract root fits self.up).done state
      ((final.mapHead Context.popCall).record .ret) := by
  obtain ⟨grows, kept⟩ := finished
  have called : state.trace <:+ final.trace :=
    (List.suffix_cons _ _).trans grows
  refine ⟨called.trans (List.suffix_cons _ _), fun ready => ?_⟩
  refine (kept (start ready)).imp (List.mem_cons_of_mem _) fun kept => ?_
  refine ⟨⟨trivial, kept.good⟩, congrArg List.tail kept.envs, ?_⟩
  have popped := CallStack.execs_pop kept.execs
  rw [CallStack.pop_push] at popped
  exact popped

theorem invoke_keeps (isUsr : self.tag.kind.isUsr = true)
    (isTag : definition.tag.kind.isTag = true)
    (path : Path root (self.tag :: self.up))
    (ancestor : ChildOfAncestor definition self.up)
    (extend : ∀ {calls env}, fits calls env →
      Match (self :: calls) ((self, definition) :: env))
    (runs : Keeps (contract root Match (definition.tag :: definition.up))
      (interp.run definition (some self))) :
    Keeps (contract root fits self.up) (invoke interp self definition) := by
  intro state
  have start (ready : Ready root fits self.up state) :=
    ready.call isUsr isTag path ancestor extend
  refine (Prog.wp_modify_bind _ _ state _).mpr ?_
  refine (Prog.wp_modify_bind _ _ _ _).mpr ?_
  refine (Prog.wp_bind _ _ _ _).mpr ?_
  refine (Prog.wp_tryCatch _ _ _ _).mpr ?_
  refine Prog.Wp.mono (runs _) fun outcome final meets => ?_
  cases outcome with
  | value result =>
      refine (Prog.wp_bind _ _ _ _).mpr ((CallStack.wp_pop _ _).mpr ?_)
      exact returned start meets
  | error exception =>
      refine (Prog.wp_bind _ _ _ _).mpr ((Prog.wp_bind _ _ _ _).mpr ?_)
      exact (CallStack.wp_pop _ _).mpr (returned start meets)
  | halt reason =>
      obtain ⟨grows, good⟩ := meets
      exact ⟨(List.suffix_cons _ _).trans grows, fun ready => good (start ready)⟩

end Calls

section Bodies

variable {interp : Interp W} {root : Tag} {self call : Loc}
  {calls : List Loc} {fits : List Loc → Env → Prop} {up : List Tag}
  {state middle : St W} {name : Str}

/-- How the work of a `dbp:execute` on the call on top of the stack may
end.  An exception is about to be recorded. -/
def Rendering (root : Tag) (up : List Tag) (state : St W) :
    Outcome Exc Unit → St W → Prop
  | .value _, final => (contract root Match up).done state final
  | .error _, final => state.trace <:+ final.trace
  | .halt _, final => (contract root Match up).halted state final

theorem Rendering.onError {body : M W Unit}
    (holds : body.Wp middle (Rendering root up state)) :
    (body.onError (M.record .unwound)).Wp middle
      ((contract root Match up).Post state) := by
  refine (Prog.wp_tryCatch _ _ _ _).mpr ?_
  refine holds.mono fun outcome final rendering => ?_
  cases outcome with
  | value result => exact rendering
  | halt reason => exact rendering
  | error exception =>
      exact ⟨List.IsSuffix.trans rendering (List.suffix_cons _ _),
        fun _ => .inl List.mem_cons_self⟩

/-- The call on top of the stack is the first one of the environment. -/
theorem Ready.top (ready : Ready root Match up state)
    (top : state.exec = call :: calls) :
    ∃ definition env, current state.trace = (call, definition) :: env ∧
      Match (call :: calls) ((call, definition) :: env) := by
  have fit := ready.fit
  rw [top] at fit
  generalize current state.trace = whole at fit
  cases fit with
  | cons fit => exact ⟨_, _, rfl, .cons fit⟩
  | temp empty => exact ⟨_, _, rfl, .temp empty⟩

/-- While the topmost call is off the stack, the environment is the same. -/
theorem Ready.popped (ready : Ready root fits up state) :
    Ready root anyStack up (state.mapHead Context.popCall) :=
  ⟨chain_mapHead _ ready.chain, ready.good, trivial, ready.scope⟩

/-- The body of the call, or a slot of it, starts in the environment of the
call. -/
theorem Ready.render (ready : Ready root Match self.up state)
    (top : state.exec = call :: calls)
    (kept : Kept root (state.mapHead Context.popCall) middle)
    (unnamed : self.findParam "name".toList = none → name = [])
    (named : Path root (call.tag :: call.up) → name ≠ [] →
      ∃ slot, call.getChild ('@' :: name) = some slot ∧
        slot.tag.kind.isTag = true)
    (fit : ∀ {definition env}, Path root (call.tag :: call.up) →
      call.tag.kind.isUsr = true →
      Match (call :: calls) ((call, definition) :: env) → fits calls env)
    (scope : ∀ {env}, Path root (call.tag :: call.up) →
      call.tag.kind.isUsr = true → Scope root (call.tag :: call.up) env →
      Scope root up env) :
    Ready root fits up (middle.record (.render self call name)) := by
  obtain ⟨definition, env, environment, fitted⟩ := ready.top top
  have same : current middle.trace = (call, definition) :: env :=
    kept.current.trans environment
  have below : current (middle.record (.render self call name)).trace = env :=
    congrArg List.tail same
  have placed := ready.scope
  rw [environment] at placed
  obtain ⟨isUsr, path, above⟩ := placed.caller
  refine ⟨?_, ⟨⟨⟨definition, env, same⟩, ?_, unnamed, named path⟩, kept.good⟩,
    ?_, ?_⟩
  · exact chain_of_execs kept.execs (chain_mapHead _ ready.chain)
  · rw [same]
    exact placed
  · rw [below]
    change fits middle.exec env
    rw [exec_of_execs kept.execs, exec_pop top]
    exact fit path isUsr fitted
  · rw [below]
    exact scope path isUsr (.inside (isTag_of_isUsr isUsr) above)

theorem render_wp (top : state.exec = call :: calls)
    (before : (contract root anyStack self.up).done
      (state.mapHead Context.popCall) middle)
    (start : Ready root Match self.up state →
      Kept root (state.mapHead Context.popCall) middle →
      Ready root fits up (middle.record (.render self call name)))
    {body : M W Unit} (keeps : Keeps (contract root fits up) body) :
    Prog.Wp
      (do M.record (.render self call name); body; M.push call
          M.record .rendered)
      middle (Rendering root self.up state) := by
  obtain ⟨grows, prepared⟩ := before
  refine (Prog.wp_modify_bind _ _ _ _).mpr ?_
  refine (Prog.wp_bind _ _ _ _).mpr ?_
  refine Prog.Wp.mono (keeps _) fun outcome final meets => ?_
  have entered : middle.trace <:+ (middle.record
      (.render self call name)).trace := List.suffix_cons _ _
  cases outcome with
  | error exception => exact grows.trans (entered.trans meets.1)
  | halt reason =>
      obtain ⟨after, good⟩ := meets
      refine ⟨grows.trans (entered.trans after), fun ready => ?_⟩
      rcases prepared ready.popped with unwound | kept
      · exact .inl ((entered.trans after).subset unwound)
      · exact good (start ready kept)
  | value result =>
      obtain ⟨after, finished⟩ := meets
      have rendered : final.trace <:+ .rendered :: final.trace :=
        List.suffix_cons _ _
      refine ⟨grows.trans (entered.trans (after.trans rendered)),
        fun ready => ?_⟩
      rcases prepared ready.popped with unwound | kept
      · exact .inl ((entered.trans (after.trans rendered)).subset unwound)
      refine (finished (start ready kept)).imp (List.mem_cons_of_mem _)
        fun body => ?_
      have envs : (envs final.trace).tail = envs middle.trace :=
        congrArg List.tail body.envs
      have execs := CallStack.execs_pushBack top (body.execs.trans kept.execs)
      exact ⟨⟨trivial, body.good⟩, envs.trans kept.envs, execs⟩

/-- The promise may depend on a fact that only a ready state shows. -/
theorem keeps_of_fact {fact : Prop} {program : M W Unit}
    (grows : Keeps CallStack.contract program)
    (keeps : fact → Keeps (contract root fits up) program) :
    Keeps (contract root (fun calls env => fact ∧ fits calls env) up)
      program := by
  by_cases holds : fact
  · refine weaken (fun state ready => ?_) (keeps holds)
    exact ⟨ready.chain, ready.good, ready.fit.2, ready.scope⟩
  · intro state
    have never : ¬ Ready root (fun calls env => fact ∧ fits calls env) up
        state := fun ready => holds ready.fit.1
    refine Prog.Wp.mono (grows state) fun outcome final meets => ?_
    cases outcome with
    | value result =>
        obtain ⟨events, trace, -⟩ := meets
        exact ⟨⟨events, trace.symm⟩, fun ready => absurd ready never⟩
    | error exception =>
        obtain ⟨events, trace, -⟩ := meets
        exact ⟨⟨events, trace.symm⟩, fun ready => absurd ready never⟩
    | halt reason => exact ⟨meets, fun ready => absurd ready never⟩

end Bodies

section Runs

/-- A caller that makes a `dbp:tag` run its content is only passed on inside
a definition. -/
def CallerFits (caller : Option Loc) (up : List Tag) : Prop :=
  ∀ call, caller = some call → call.tag.kind.isUsr = true →
    inDefinition up = true

theorem CallerFits.none (up : List Tag) : CallerFits none up :=
  fun _ absent => by cases absent

theorem CallerFits.inside {caller : Option Loc} {up : List Tag} {tag : Tag}
    (fits : CallerFits caller up) (notUsr : tag.kind.isUsr = false) :
    CallerFits caller (tag :: up) := by
  intro call same isUsr
  have inside := fits call same isUsr
  simp [inDefinition, inside, notUsr]

/-- The kinds of tags that an expression creates. -/
def Created (kind : Kind) : Prop :=
  (∃ name, kind = .userFunction name) ∨ ∃ builtin, kind = .function builtin

/-- What the virtual calls of `execute` keep, by the place of the tag: in the
sequence of its siblings, as a selected definition or slot, or created by an
expression. -/
structure Runs (root : Tag) (run : Loc → Option Loc → M W Unit) : Prop where
  grows : ∀ self caller, Keeps CallStack.contract (run self caller)
  placed : ∀ self caller, Path root (self.tag :: self.up) →
    allowed self.up self.tag = true → CallerFits caller self.up →
    Keeps (contract root Match self.up) (run self caller)
  selected : ∀ self caller, Path root (self.tag :: self.up) →
    allowed self.up self.tag = true → self.tag.kind.isTag = true →
    Keeps (contract root Match (self.tag :: self.up)) (run self (some caller))
  created : ∀ self, Path root (self.tag :: self.up) → self.tag.childs = [] →
    Created self.tag.kind →
    Keeps (contract root anyStack self.up) (run self none)

variable {outside : Outside W} {budget : Nat} {root : Tag}
  {run : Loc → Option Loc → M W Unit} {self : Loc} {caller : Option Loc}
  {fits : List Loc → Env → Prop}

section Served

variable (runs : Runs root run)
include runs

theorem Runs.evaluate {tag : Tag} {up : List Tag}
    (path : Path root (tag :: up)) (text : Str) :
    Keeps (contract root anyStack (tag :: up))
      ((Interp.ofRun outside budget run).evaluate (tag :: up) text) := by
  refine Evaluator.evaluate_keeps (Evaluator.executeFunction_keeps ?_ ?_) text
  · intro name params
    exact runs.created ⟨_, tag :: up⟩ (.temp path rfl rfl) rfl
      (.inl ⟨name, rfl⟩)
  · intro builtin params
    exact runs.created ⟨_, tag :: up⟩ (.temp path rfl rfl) rfl
      (.inr ⟨builtin, rfl⟩)

theorem Runs.param (path : Path root (self.tag :: self.up))
    (plain : self.tag.kind.isTag = false) (text : Str) :
    Keeps (contract root fits self.up)
      ((Interp.ofRun outside budget run).executeParam self text) := by
  have placed : Path root (Interp.paramTag text :: self.tag :: self.up) :=
    .temp path rfl rfl
  refine weaken (fun state ready => ?_) (runs.evaluate placed text)
  exact (ready.forget.inside plain).inside rfl

theorem Runs.childs (path : Path root (self.tag :: self.up))
    (ok : allowed self.up self.tag = true)
    (fit : CallerFits caller (self.tag :: self.up)) :
    Keeps (contract root Match (self.tag :: self.up))
      ((Interp.ofRun outside budget run).executeChilds self caller) := by
  refine Keeps.bind (Keeps.forEach fun child member => ?_)
    fun _ => Keeps.emit _
  exact runs.placed (self.child child) caller (.child path member)
    (((allowed_iff _ _).mp ok).2 child member) fit

theorem Runs.serves (path : Path root (self.tag :: self.up))
    (ok : allowed self.up self.tag = true)
    (plain : self.tag.kind.isTag = false)
    (fit : CallerFits caller (self.tag :: self.up)) :
    Serves (contract root Match self.up) (Interp.ofRun outside budget run)
      self caller where
  childs := weaken (fun _ ready => ready.inside plain)
    (runs.childs path ok fit)
  param text := runs.param path plain text
  handler child member isCatch := by
    have placed : Path root ((self.child child).tag :: (self.child child).up) :=
      .child path member
    have isTag : child.kind.isTag = false := by rw [isCatch]; rfl
    have isUsr : child.kind.isUsr = false := by rw [isCatch]; rfl
    refine weaken (fun _ ready => (ready.inside plain).inside isTag) ?_
    exact runs.childs placed (((allowed_iff _ _).mp ok).2 child member)
      (fit.inside isUsr)
  text := weaken (fun _ ready => ready.forget.inside plain)
    (runs.evaluate path _)

/-- A tag that an expression has created has nothing to serve but its
parameters. -/
theorem Runs.serves_created (path : Path root (self.tag :: self.up))
    (empty : self.tag.childs = []) (kind : Created self.tag.kind) :
    Serves (contract root anyStack self.up) (Interp.ofRun outside budget run)
      self none := by
  have plain : self.tag.kind.isTag = false := by
    obtain ⟨name, kind⟩ | ⟨builtin, kind⟩ := kind <;> rw [kind] <;> rfl
  refine ⟨?_, runs.param path plain, ?_, ?_⟩
  · refine Keeps.bind ?_ fun _ => Keeps.emit _
    rw [empty]
    exact Keeps.pure _
  · intro child member
    rw [empty] at member
    cases member
  · exact weaken (fun _ ready => ready.inside plain) (runs.evaluate path _)

end Served

section Selected

variable (program : allowed [] root = true) (runs : Runs root run)
include program runs

/-- A definition that a call selects runs in the environment of the call,
extended by the call. -/
theorem Runs.invokes (path : Path root (self.tag :: self.up))
    (isUsr : self.tag.kind.isUsr = true) {definition : Loc}
    (ancestor : ChildOfAncestor definition self.up)
    (isTag : tagAllowed definition.up definition.tag = true →
      definition.tag.kind.isTag = true)
    (extend : ∀ {calls env}, fits calls env →
      Match (self :: calls) ((self, definition) :: env)) :
    Keeps (contract root fits self.up)
      (invoke (Interp.ofRun outside budget run) self definition) := by
  obtain ⟨placed, ok⟩ := Path.childOfAncestor program path.tail ancestor
  have kind := isTag ((allowed_iff _ _).mp ok).1
  exact invoke_keeps isUsr kind path ancestor extend
    (runs.selected definition self placed ok kind)

/-- The body of the call that a `dbp:execute` has found on the stack. -/
theorem Runs.body {call : Loc} (execute : self.tag.kind.isUsr = false) :
    Keeps
      (contract root
        (fun calls env => (Path root (call.tag :: call.up) ∧
          call.tag.kind.isUsr = true) ∧
          (call.tag.childs ≠ [] → Match calls env))
        (call.tag :: call.up))
      ((Interp.ofRun outside budget run).executeChilds call (some self)) := by
  refine keeps_of_fact ?_ ?_
  · exact Keeps.bind (Keeps.forEach fun child _ => runs.grows _ _)
      fun _ => Keeps.emit _
  rintro ⟨path, isUsr⟩
  by_cases empty : call.tag.childs = []
  · refine Keeps.bind ?_ fun _ => Keeps.emit _
    rw [empty]
    exact Keeps.pure _
  · have fit : CallerFits (some self) (call.tag :: call.up) := by
      rintro _ ⟨⟩ isUsr
      rw [execute] at isUsr
      cases isUsr
    refine weaken (fun state ready => ?_)
      (runs.childs path (path.allowed program empty) fit)
    exact ⟨ready.chain, ready.good, ready.fit empty, ready.scope⟩

/-- A slot of the call that a `dbp:execute` has found on the stack. -/
theorem Runs.slot {call slot : Loc} {name : Str}
    (found : call.getChild ('@' :: name) = some slot) :
    Keeps
      (contract root
        (fun calls env => (Path root (call.tag :: call.up) ∧
          call.tag.kind.isUsr = true) ∧ Match calls env)
        (slot.tag :: slot.up))
      (run slot (some call)) := by
  refine keeps_of_fact (runs.grows _ _) ?_
  rintro ⟨path, isUsr⟩
  obtain ⟨placed, ok, isTag⟩ := path.slot program found
  exact runs.selected slot call placed ok isTag

section Found

variable {call : Loc} {calls : List Loc} {state middle : St W}
  (top : state.exec = call :: calls)
  (before : (contract root anyStack self.up).done
    (state.mapHead Context.popCall) middle)
include top before

theorem Runs.renderBody (notUsr : self.tag.kind.isUsr = false) :
    Prog.Wp
      (do M.record (.render self call [])
          (Interp.ofRun outside budget run).executeChilds call (some self)
          M.push call
          M.record .rendered)
      middle (Rendering root self.up state) := by
  refine render_wp top before (fun ready kept => ?_)
    (runs.body program notUsr)
  refine ready.render top kept (fun _ => rfl) ?_ ?_ fun _ _ scope => scope
  · exact fun _ named => absurd rfl named
  · intro definition env path isUsr fit
    refine ⟨⟨path, isUsr⟩, fun childs => ?_⟩
    cases fit with
    | cons fit => exact fit
    | temp empty => exact absurd empty childs

theorem Runs.renderSlot {slot : Loc} {name : Str}
    (unnamed : self.findParam "name".toList = none → name = [])
    (found : call.getChild ('@' :: name) = some slot) :
    Prog.Wp
      (do M.record (.render self call name)
          run slot (some call)
          M.push call
          M.record .rendered)
      middle (Rendering root self.up state) := by
  obtain ⟨member, above, -⟩ := Loc.getChild_spec found
  refine render_wp top before (fun ready kept => ?_)
    (runs.slot program found)
  refine ready.render top kept unnamed ?_ ?_ ?_
  · exact fun path _ => ⟨slot, found, (path.slot program found).2.2⟩
  · intro definition env path isUsr fit
    refine ⟨⟨path, isUsr⟩, ?_⟩
    cases fit with
    | cons fit => exact fit
    | temp empty => exact absurd empty (List.ne_nil_of_mem member)
  · intro env path isUsr scope
    rw [above]
    exact .slot (path.slot program found).2.2 isUsr scope

omit program runs in
/-- There is no such slot. -/
theorem pushBack_done :
    (contract root Match self.up).done state
      (middle.mapHead (Context.push call)) := by
  obtain ⟨grows, kept⟩ := before
  refine ⟨grows, fun ready => (kept ready.popped).imp id fun kept => ?_⟩
  exact ⟨kept.good, kept.envs, CallStack.execs_pushBack top kept.execs⟩

end Found

/-- The body or the slot is rendered in the environment of the call. -/
theorem Runs.render {call : Loc} {calls : List Loc} {state middle : St W}
    {name : Str} (top : state.exec = call :: calls)
    (before : (contract root anyStack self.up).done
      (state.mapHead Context.popCall) middle)
    (notUsr : self.tag.kind.isUsr = false)
    (unnamed : self.findParam "name".toList = none → name = []) :
    Prog.Wp
      (if name.isEmpty then do
          M.record (.render self call name)
          (Interp.ofRun outside budget run).executeChilds call (some self)
          M.push call
          M.record .rendered
        else
          match call.getChild ('@' :: name) with
          | some slot => do
              M.record (.render self call name)
              run slot (some call)
              M.push call
              M.record .rendered
          | none => M.push call)
      middle (Rendering root self.up state) := by
  split
  · rename_i empty
    obtain rfl := List.isEmpty_iff.mp empty
    exact runs.renderBody program top before notUsr
  · split
    · exact runs.renderSlot program top before unnamed (by assumption)
    · exact pushBack_done top before

theorem Runs.executeTag (path : Path root (self.tag :: self.up))
    (kind : self.tag.kind = .execute) :
    Keeps (contract root Match self.up)
      (TagExecute.execute (Interp.ofRun outside budget run) self) := by
  have notUsr : self.tag.kind.isUsr = false := by rw [kind]; rfl
  have notTag : self.tag.kind.isTag = false := by rw [kind]; rfl
  intro initial
  refine (Prog.wp_read_bind _ _ initial _).mpr ?_
  refine (Prog.wp_modify_bind _ _ _ _).mpr ?_
  have recorded : (contract root Match self.up).done initial
      (initial.record (.reached self initial.exec)) :=
    ⟨List.suffix_cons _ _, fun ready =>
      .inr ⟨⟨⟨ready.fit.head, ready.scope⟩, ready.good⟩, rfl, rfl⟩⟩
  refine Run.Meets.after recorded ?_
  generalize initial.record (.reached self initial.exec) = state
  refine (Prog.wp_bind _ _ _ _).mpr ((CallStack.wp_pop _ _).mpr ?_)
  cases top : state.exec with
  | nil => exact contract_done_of_execs rfl (CallStack.execs_pop_nil top)
  | cons call calls =>
      refine Rendering.onError ((Prog.wp_bind _ _ _ _).mpr ?_)
      unfold Interp.getParameter
      split
      · rename_i text found
        have param : Keeps (contract root anyStack self.up)
            ((Interp.ofRun outside budget run).executeParam self text) :=
          runs.param path notTag text
        refine Prog.Wp.mono (param _) fun outcome middle meets => ?_
        cases outcome with
        | error exception => exact meets.1
        | halt reason => exact ⟨meets.1, fun ready => meets.2 ready.popped⟩
        | value name =>
            refine runs.render program top meets notUsr fun absent => ?_
            rw [found] at absent
            cases absent
      · exact runs.render program top (Contract.done_refl _ _) notUsr
          fun _ => rfl

end Selected

theorem not_isUsr_of_ordinary {kind : Kind} (ordinary : kind.Ordinary) :
    kind.isUsr = false ∧ kind.isTag = false := by
  cases kind <;> simp_all [Kind.Ordinary, Kind.isUsr, Kind.isTag]

/-- The definition that a custom tag executes, unless it is linked to
something else. -/
theorem target_spec {definition : Loc}
    (linked : ∀ name addr, self.tag.kind = .usr name (some addr) →
      (findAddr addr self.up).all (fun found => found.tag.kind.isTag) = true)
    (target : TagUsr.target self = some definition) :
    ChildOfAncestor definition self.up ∧
      (tagAllowed definition.up definition.tag = true →
        definition.tag.kind.isTag = true) := by
  have byName {name : Str} (found : findTag name self.up = some definition) :
      ChildOfAncestor definition self.up ∧
        (tagAllowed definition.up definition.tag = true →
          definition.tag.kind.isTag = true) := by
    obtain ⟨ancestor, named⟩ := findTag_spec found
    exact ⟨ancestor, fun ok => isTag_of_allowed ok named⟩
  unfold TagUsr.target at target
  split at target
  · rename_i name addr kind
    split at target
    · rename_i found search
      cases target
      have isTag := linked name addr kind
      rw [search] at isTag
      exact ⟨findAddr_spec search, fun _ => by simpa using isTag⟩
    · exact byName target
  · exact byName target
  · exact byName target
  · cases target

section Step

variable (program : allowed [] root = true)
  (runs : Runs root (execute outside budget))
include program runs

theorem step_placed (path : Path root (self.tag :: self.up))
    (ok : allowed self.up self.tag = true) (fit : CallerFits caller self.up) :
    Keeps (contract root Match self.up)
      (execute outside (budget + 1) self caller) := by
  have tolerant : Tolerant outside.dcl
      (contract root Match self.up : Contract (St W)) :=
    contract_tolerant outside.dcl
  have here := ((allowed_iff _ _).mp ok).1
  unfold execute
  by_cases ordinary : self.tag.kind.Ordinary
  · obtain ⟨notUsr, notTag⟩ := not_isUsr_of_ordinary ordinary
    exact dispatch_keeps tolerant
      (runs.serves path ok notTag (fit.inside notUsr)) ordinary
  · unfold dispatch
    cases kind : self.tag.kind <;>
      simp only [kind, Kind.Ordinary, not_true_eq_false] at ordinary
    case usr name userTag =>
      refine TagUsr.keeps tolerant
        (runs.serves path ok (by rw [kind]; rfl) (.none _))
        fun definition target => ?_
      obtain ⟨ancestor, isTag⟩ := target_spec (fun name addr linked => by
        simpa [tagAllowed, linked] using here) target
      exact runs.invokes program path (by rw [kind]; rfl) ancestor isTag .cons
    case userFunction name => simp [tagAllowed, kind] at here
    case call =>
      refine TagCall.keeps tolerant
        (runs.serves path ok (by rw [kind]; rfl) (.none _))
        fun name definition found => ?_
      obtain ⟨ancestor, named⟩ := findTag_spec found
      exact runs.invokes program path (by rw [kind]; rfl) ancestor
        (fun ok => isTag_of_allowed ok named) .cons
    case tag name =>
      refine TagTag.keeps fun call same isUsr => ?_
      have inside := fit call same isUsr
      simp [tagAllowed, kind, inside] at here
    case execute => exact runs.executeTag program path kind
    case async => simp [tagAllowed, kind] at here

omit program in
theorem step_selected {call : Loc}
    (path : Path root (self.tag :: self.up))
    (ok : allowed self.up self.tag = true)
    (isTag : self.tag.kind.isTag = true) :
    Keeps (contract root Match (self.tag :: self.up))
      (execute outside (budget + 1) self (some call)) := by
  have fit : CallerFits (some call) (self.tag :: self.up) := by
    intro _ _ _
    simp [inDefinition, isTag]
  obtain ⟨name, kind⟩ : ∃ name, self.tag.kind = .tag name := by
    cases kind : self.tag.kind <;> simp [kind, Kind.isTag] at isTag ⊢
  unfold execute dispatch
  rw [kind]
  exact TagTag.keeps fun _ _ _ => runs.childs path ok fit

theorem step_created (path : Path root (self.tag :: self.up))
    (empty : self.tag.childs = []) (created : Created self.tag.kind) :
    Keeps (contract root anyStack self.up)
      (execute outside (budget + 1) self none) := by
  have tolerant : Tolerant outside.dcl
      (contract root anyStack self.up : Contract (St W)) :=
    contract_tolerant outside.dcl
  have serves : Serves (contract root anyStack self.up)
      (Interp.ofRun outside budget (execute outside budget)) self none :=
    runs.serves_created path empty created
  obtain ⟨name, kind⟩ | ⟨builtin, kind⟩ := created
  · unfold execute dispatch
    rw [kind]
    refine TagUsr.keeps tolerant serves fun definition target => ?_
    obtain ⟨ancestor, isTag⟩ := target_spec
      (fun name addr linked => by rw [kind] at linked; cases linked) target
    exact runs.invokes program path (by rw [kind]; rfl) ancestor isTag
      fun _ => .temp empty
  · unfold execute
    exact dispatch_keeps tolerant serves (by rw [kind]; trivial)

end Step

theorem execute_runs (program : allowed [] root = true) (outside : Outside W)
    (depth : Nat) : Runs root (execute outside depth) := by
  have grows := fun depth => CallStack.execute_keeps outside depth
  induction depth with
  | zero =>
      exact ⟨grows 0, fun _ _ _ _ _ => Keeps.halt _,
        fun _ _ _ _ _ => Keeps.halt _, fun _ _ _ _ => Keeps.halt _⟩
  | succ depth runs =>
      exact ⟨grows (depth + 1), fun _ _ => step_placed program runs,
        fun _ _ => step_selected runs, fun _ => step_created program runs⟩

/-- What the calls around a `dbp:execute` are in the environment in which it
is reached, and what the stack of calls holds. -/
structure AtExecute (root : Tag) (self : Loc) (exec : List Loc) (env : Env) :
    Prop where
  /-- The environment belongs to the text around the `dbp:execute`. -/
  scope : Scope root self.up env
  /-- The call on top of the stack is the first call of the environment. -/
  top : exec.head? = env.head?.map Prod.fst
  /-- The nearest definition has been selected by the call on top of the
  stack, or it is a slot in the body of a call and the environment is that
  of the call. -/
  enclosing : ∀ tags tag up, self.up = tags ++ tag :: up →
    (∀ other ∈ tags, other.kind.isTag = false) → tag.kind.isTag = true →
    (∃ call calls, env = (call, ⟨tag, up⟩) :: calls) ∨
      ∃ call above, up = call :: above ∧ call.kind.isUsr = true ∧
        Scope root above env
  /-- At the level of the module there is no call. -/
  outermost : (∀ tag ∈ self.up, tag.kind.isTag = false) → exec = []

theorem Good.atExecute {self : Loc} {exec : List Loc} {past : List Event}
    (good : Good root (.reached self exec) past) :
    AtExecute root self exec (current past) := by
  obtain ⟨top, scope⟩ := good
  refine ⟨scope, top, ?_, ?_⟩
  · intro tags tag up above plain isTag
    rw [above] at scope
    exact scope.enclosing plain isTag
  · intro plain
    rw [scope.empty plain] at top
    exact List.head?_eq_none_iff.mp top

/-- Nothing is rendered at the level of the module. -/
theorem Good.inDefinition {self call : Loc} {name : Str}
    {past : List Event} (good : Good root (.render self call name) past) :
    ∃ tag ∈ self.up, tag.kind.isTag = true := by
  obtain ⟨⟨definition, env, environment⟩, scope, -⟩ := good
  by_contra absent
  have plain : ∀ tag ∈ self.up, tag.kind.isTag = false := by
    intro tag member
    exact Bool.eq_false_iff.mpr fun isTag => absent ⟨tag, member, isTag⟩
  have empty := scope.empty plain
  rw [environment] at empty
  cases empty

/-- A whole run of a program, however it ends, has only good events. -/
theorem execute_good (program : allowed [] root = true) (outside : Outside W)
    (depth : Nat) (state : St W) (chain : state.contexts ≠ [])
    (calls : state.exec = []) (fresh : state.trace = [])
    (clean : .unwound ∉
      (execute outside depth ⟨root, []⟩ none state).state.trace) :
    AllGood root
      (execute outside depth ⟨root, []⟩ none state).state.trace := by
  have ready : Ready root Match [] state := by
    refine ⟨chain, ?_, ?_, ?_⟩ <;> rw [fresh]
    · trivial
    · rw [calls]
      exact .nil
    · exact .module
  have keeps := (execute_runs program outside depth).placed ⟨root, []⟩ none
    .root program (.none _)
  exact ((keeps state).halted.2 ready).resolve_left clean

end Runs

section Rendered

variable (outside : Outside W) (depth : Nat)

/-- The call is pushed back when what has been rendered returns. -/
def handBack (call : Loc) : Run (St W) Exc Char Unit → Run (St W) Exc Char Unit
  | ⟨final, out, .value _⟩ =>
      ⟨(final.mapHead (Context.push call)).record .rendered, out, .value ()⟩
  | ⟨final, out, .error exception⟩ =>
      ⟨final.record .unwound, out, .error exception⟩
  | ⟨final, out, .halt reason⟩ => ⟨final, out, .halt reason⟩

/-- The children and the text of a call, executed for a `dbp:execute`. -/
def renderedBody (self call : Loc) : M W Unit := do
  Prog.forEach (fun tag => execute outside depth (call.child tag) (some self))
    call.tag.childs
  Prog.emit call.tag.text

/-- What a `dbp:execute` does by its name in the state in which the first call
of its environment has been popped: it renders the body of this call, or the
slot with the name.  There may be no such slot. -/
def renderedPart (self call : Loc) (name : Str) (popped : St W) :
    Run (St W) Exc Char Unit :=
  if name = [] then
    handBack call (renderedBody outside depth self call
      (popped.record (.render self call [])))
  else
    match call.getChild ('@' :: name) with
    | some slot =>
        handBack call (execute outside depth slot (some call)
          (popped.record (.render self call name)))
    | none => ⟨popped.mapHead (Context.push call), [], .value ()⟩

/-- What a `dbp:execute` does in an environment: nothing at the level of the
module, and otherwise what its name selects of the first call, without this
call on the stack. -/
def rendered (self : Loc) (state : St W) : Env → Run (St W) Exc Char Unit
  | [] => ⟨state.record (.reached self state.exec), [], .value ()⟩
  | (call, _) :: _ =>
      let popped :=
        (state.record (.reached self state.exec)).mapHead Context.popCall
      match (Interp.ofRun outside depth (execute outside depth)).getParameter
          self "name" popped with
      | ⟨named, out, .value name⟩ =>
          Prog.behind out (renderedPart outside depth self call name named)
      | ⟨failed, out, .error exception⟩ =>
          ⟨failed.record .unwound, out, .error exception⟩
      | ⟨failed, out, .halt reason⟩ => ⟨failed, out, .halt reason⟩

omit outside depth in
theorem onError_handBack (body : M W Unit) (call : Loc) (state : St W) :
    Prog.onError (do
        body
        M.push call
        M.record .rendered) (M.record .unwound) state =
      handBack call (body state) := by
  have pushed (final : St W) : (do
        M.push call
        M.record .rendered : M W Unit) final =
      ⟨(final.mapHead (Context.push call)).record .rendered, [],
        .value ()⟩ := rfl
  cases ran : body state with
  | mk final out outcome =>
      cases outcome with
      | value result =>
          have whole := Prog.bind_eq ran fun _ => (do
            M.push call
            M.record .rendered : M W Unit)
          rw [pushed, List.append_nil] at whole
          exact Prog.onError_eq whole _
      | error exception =>
          have whole := Prog.bind_error ran fun _ => (do
            M.push call
            M.record .rendered : M W Unit)
          have cleaned := Prog.onError_error whole (M.record .unwound)
          have silent : (M.record .unwound final).out = [] := rfl
          rw [silent, List.append_nil] at cleaned
          exact cleaned
      | halt reason =>
          exact Prog.tryCatch_halt (Prog.bind_halt ran _) _

/-- The part that the name selects, with the guard of the `dbp:execute`. -/
theorem part_rendered (self call : Loc) (name : Str) (popped : St W) :
    Prog.onError
        (if name.isEmpty then do
          M.record (.render self call name)
          (Interp.ofRun outside depth (execute outside depth)).executeChilds
            call (some self)
          M.push call
          M.record .rendered
        else
          match call.getChild ('@' :: name) with
          | some slot => do
              M.record (.render self call name)
              execute outside depth slot (some call)
              M.push call
              M.record .rendered
          | none => M.push call)
        (M.record .unwound) popped =
      renderedPart outside depth self call name popped := by
  have recorded (next : M W Unit) :
      (M.record (.render self call name) >>= fun _ => next) popped =
        Prog.behind [] (next (popped.record (.render self call name))) := rfl
  have guarded (body : M W Unit) :
      Prog.onError (do
          M.record (.render self call name)
          body
          M.push call
          M.record .rendered) (M.record .unwound) popped =
        handBack call (body (popped.record (.render self call name))) := by
    rw [← onError_handBack]
    exact Prog.onError_behind (recorded _) _
  unfold renderedPart
  cases name with
  | nil => exact guarded (renderedBody outside depth self call)
  | cons c name =>
      rw [if_neg (List.cons_ne_nil c name)]
      simp only [List.isEmpty_cons, Bool.false_eq_true, if_false]
      cases call.getChild ('@' :: c :: name) with
      | some slot => exact guarded (execute outside depth slot (some call))
      | none => rfl

/-- A `dbp:execute` renders what belongs to the call on top of the stack. -/
theorem execute_rendered {self : Loc} (kind : self.tag.kind = .execute)
    (caller : Option Loc) {state : St W} {env : Env}
    (top : state.exec.head? = env.head?.map Prod.fst) :
    execute outside (depth + 1) self caller state =
      rendered outside depth self state env := by
  have dispatched : execute outside (depth + 1) self caller =
      TagExecute.execute (Interp.ofRun outside depth (execute outside depth))
        self := by
    unfold execute dispatch
    rw [kind]
  have looked : Prog.read St.exec state = (⟨state, [], .value state.exec⟩ :
      Run (St W) Exc Char (List Loc)) := rfl
  have reached : M.record (.reached self state.exec) state =
      ⟨state.record (.reached self state.exec), [], .value ()⟩ := rfl
  rw [dispatched, TagExecute.execute, Prog.bind_silent looked,
    Prog.bind_silent reached]
  cases env with
  | nil =>
      have empty : (state.record (.reached self state.exec)).exec = [] :=
        List.head?_eq_none_iff.mp top
      have popped : M.pop (state.record (.reached self state.exec)) =
          ⟨state.record (.reached self state.exec), [], .value none⟩ := by
        simp only [M.pop, Prog.act, empty]
      rw [Prog.bind_silent popped]
      rfl
  | cons first env =>
      have popped := M.pop_eq (state.record (.reached self state.exec))
      have stack : (state.record (.reached self state.exec)).exec.head? =
          some first.1 := top
      rw [stack] at popped
      rw [Prog.bind_silent popped]
      unfold rendered
      simp only
      cases ran : (Interp.ofRun outside depth
          (execute outside depth)).getParameter self "name"
          ((state.record (.reached self state.exec)).mapHead
            Context.popCall) with
      | mk named out outcome =>
          cases outcome with
          | value name =>
              rw [Prog.onError_behind (Prog.bind_eq ran _)]
              exact congrArg _ (part_rendered outside depth self first.1 name
                named)
          | error exception =>
              refine (Prog.onError_error (Prog.bind_error ran _) _).trans ?_
              change (⟨named.record .unwound, out ++ [], .error exception⟩ :
                Run (St W) Exc Char Unit) = _
              rw [List.append_nil]
          | halt reason => exact Prog.tryCatch_halt (Prog.bind_halt ran _) _

end Rendered

end Lexical

/-- In a run in which no exception leaves a `dbp:execute`, however the run
ends, the call on top of the stack is, whenever a `dbp:execute` is reached,
the active call of the definition around it; what is rendered is the body, or
the named slot, of that call; and each `dbp:execute` that is executed in the
run renders what its environment says, or nothing where that is empty. -/
theorem execute_is_lexical (outside : Outside W) (depth : Nat) (root : Tag)
    (state : St W) (program : Lexical.allowed [] root = true)
    (chain : state.contexts ≠ []) (calls : state.exec = [])
    (fresh : state.trace = [])
    (clean : .unwound ∉
      (execute outside depth ⟨root, []⟩ none state).state.trace) :
    (∀ self exec past,
      .reached self exec :: past <:+
        (execute outside depth ⟨root, []⟩ none state).state.trace →
      Lexical.AtExecute root self exec (Lexical.current past)) ∧
    (∀ self call name past,
      .render self call name :: past <:+
        (execute outside depth ⟨root, []⟩ none state).state.trace →
      (∃ definition env,
        Lexical.current past = (call, definition) :: env) ∧
      Lexical.Scope root self.up (Lexical.current past) ∧
      (∃ tag ∈ self.up, tag.kind.isTag = true) ∧
      (self.findParam "name".toList = none → name = []) ∧
      (name ≠ [] → ∃ slot, call.getChild ('@' :: name) = some slot ∧
        slot.tag.kind.isTag = true)) ∧
    ∀ (self : Loc) (caller : Option Loc) (middle : St W) (left : Nat),
      self.tag.kind = .execute →
      (execute outside (left + 1) self caller middle).state.trace <:+
        (execute outside depth ⟨root, []⟩ none state).state.trace →
      execute outside (left + 1) self caller middle =
        Lexical.rendered outside left self middle
          (Lexical.current middle.trace) := by
  have good := Lexical.execute_good program outside depth state chain calls
    fresh clean
  refine ⟨?_, ?_, ?_⟩
  · rintro self exec past ⟨later, trace⟩
    rw [← trace] at good
    exact good.event.atExecute
  · rintro self call name past ⟨later, trace⟩
    rw [← trace] at good
    obtain ⟨top, scope, unnamed, named⟩ := good.event
    exact ⟨top, scope, good.event.inDefinition, unnamed, named⟩
  · intro self caller middle left kind inside
    have reached := CallStack.execute_reached outside left kind caller middle
    obtain ⟨later, trace⟩ := reached.trans inside
    rw [← trace] at good
    exact Lexical.execute_rendered outside left kind caller good.event.1

/-- A module with two definitions.  The body of the call in `out` holds the
`dbp:execute` that stands for the body of the call of `out`. -/
def nestedCalls : Tag :=
  .mk 1 .module []
    [.mk 2 (.tag (some "in".toList)) [] [.mk 3 .execute [] [] []] [],
      .mk 4 (.tag (some "out".toList)) []
        [.mk 5 .call [("name".toList, "in".toList)]
          [.mk 6 .execute [] [] []] []] [],
      .mk 7 .call [("name".toList, "out".toList)]
        [.mk 8 .cdata [] [] "a".toList] [],
      .mk 9 .execute [] [] []] []

/-- The `dbp:execute` in the body of the inner call is reached with the call
of `out` on top of the stack. -/
theorem execute_is_lexical_nested :
    (execute Outside.plain 9 ⟨nestedCalls, []⟩ none
      (St.fresh [Context.newLocal])).out = "a".toList ∧
    (∀ self call name past,
      .render self call name :: past <:+
        (execute Outside.plain 9 ⟨nestedCalls, []⟩ none
          (St.fresh [Context.newLocal])).state.trace →
      ∃ definition env,
        Lexical.current past = (call, definition) :: env) := by
  have clean : .unwound ∉ (execute Outside.plain 9 ⟨nestedCalls, []⟩ none
      (St.fresh [Context.newLocal])).state.trace := by
    have none : ((execute Outside.plain 9 ⟨nestedCalls, []⟩ none
        (St.fresh [Context.newLocal])).state.trace.any fun
          | .unwound => true
          | _ => false) = false := by decide +kernel
    exact fun member => List.any_eq_false.mp none _ member rfl
  have lexical := execute_is_lexical Outside.plain 9 nestedCalls
    (St.fresh [Context.newLocal]) (by decide +kernel) (by decide) rfl rfl clean
  exact ⟨by decide +kernel, fun self call name past rendered =>
    (lexical.2.1 self call name past rendered).1⟩

end DbPager
