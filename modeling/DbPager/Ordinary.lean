import DbPager.Families.Modules
import DbPager.Frame

/-!
# Ordinary tags keep tolerant contracts

A program that keeps a tolerant contract is a family of one: inside a layer
it keeps the contract as it is seen from there, and what is entered has to be
closed.  So if the children, the parameters and the `catch` blocks of a tag
keep the contract, then so does the tag.  The tags that work on the stack of
calls are left to the contracts themselves.
-/

namespace DbPager

open Effect

variable {W α : Type}

namespace Evaluator

variable {outside : Outside W} {contract : Contract (St W)}

/-- Expressions keep what the functions they call keep. -/
theorem closed_keeps : Closed outside (Keeps (contract.lift Lexer))
    (Keeps contract) where
  pure := Keeps.pure
  bind := Keeps.bind
  throw := Keeps.throw
  timeout := Keeps.halt .timeout
  tryCatch := Keeps.tryCatch
  getToken := by
    apply Keeps.act
    intro state
    rcases state.2.getToken outside.dcl with ⟨lexer, result⟩
    cases result with
    | none => exact contract.done_refl state.1
    | some exception => exact contract.done_refl state.1
  read := fun _ => Keeps.read _
  dropValue := Keeps.modify fun state => contract.done_refl state.1
  lookup := by
    apply Keeps.bind (Keeps.read _)
    intro name
    exact Keeps.bind (Keeps.modify fun state => contract.done_refl state.1)
      fun _ => (Keeps.read _).lift
  lift := Keeps.lift
  within := Keeps.within
  outerPure := Keeps.pure
  outerBind := Keeps.bind
  outerThrow := Keeps.throw
  outerTimeout := Keeps.halt .timeout

theorem evaluate_keeps {function : Str → Str → M W Str}
    (functionKeeps : ∀ name params, Keeps contract (function name params))
    (text : Str) : Keeps contract (evaluate outside function text) :=
  closed_keeps.evaluate functionKeeps text

/-- Functions run a tag that is created below the expression. -/
theorem executeFunction_keeps {run : Loc → Option Loc → M W Unit}
    {scope : List Tag}
    (userKeeps : ∀ name params,
      Keeps contract (run ⟨.mk 0 (.userFunction name) params [] [], scope⟩ none))
    (builtinKeeps : ∀ builtin params,
      Keeps contract (run ⟨.mk 0 (.function builtin) params [] [], scope⟩ none))
    (name params : Str) :
    Keeps contract (executeFunction outside run scope name params) := by
  unfold executeFunction
  split
  · exact Keeps.throw _
  · exact (userKeeps _ _).capture
  · split
    · exact (builtinKeeps _ _).capture
    · exact Keeps.throw _

end Evaluator

/-- What a tag runs besides its own code keeps the contract. -/
structure Serves (contract : Contract (St W)) (interp : Interp W) (loc : Loc)
    (caller : Option Loc) : Prop where
  childs : Keeps contract (interp.executeChilds loc caller)
  param : ∀ text, Keeps contract (interp.executeParam loc text)
  handler : ∀ child ∈ loc.tag.childs, child.kind = .catch →
    Keeps contract (interp.executeChilds (loc.child child) caller)
  text : Keeps contract (interp.evaluate (loc.tag :: loc.up) loc.tag.text)

theorem Outside.names_apart (outside : Outside W) :
    outside.sqlite.NamesApart True ∧ outside.odbc.NamesApart True :=
  ⟨fun _ _ _ => .of_seen trivial, fun _ _ _ => .of_seen trivial⟩

/-- Tolerant contracts, inside and outside a layer. -/
theorem Tolerant.native {dcl : Dcl} {contract : Contract (St W)}
    (tolerant : Tolerant dcl contract) :
    Native dcl (fun _ => True) True
      (fun {α : Type} (family : Unit → M W α) =>
        ∀ member, Keeps contract (family member))
      (fun {α : Type} (family : Unit → M W α) =>
        ∀ member, Keeps (inLayer contract) (family member))
      (fun {α : Type} (family : Unit → M W α) =>
        ∀ member, Closes contract (family member)) where
  toUniform := Keeps.uniform contract
  inside := Keeps.uniform (inLayer contract)
  getValue name _ _ := Tolerant.getValue name
  setValue name value _ _ := tolerant.setValue dcl name value
  services _ := Keeps.read _
  withVector body member := tolerant.withVector fun addr => body addr member
  withMap body member := tolerant.withMap fun addr => body addr member
  getVector addr _ := tolerant.getVector addr
  setVector addr vector _ := tolerant.setVector addr vector
  getMap addr _ := tolerant.getMap addr
  setMap addr map _ := tolerant.setMap addr map
  io _ _ := tolerant.io _
  ask _ next member := (tolerant.io _).bind_of fun state result returned =>
    next state.world result returned member
  raise keeps member := tolerant.raise (keeps member)
  addTyped name value type _ := tolerant.addTyped name value type
  enter closes member := Closes.enter (closes member)
  leave _ := Closes.leave
  leak place _ := Closes.leak tolerant place
  leaveTwice place _ _ := tolerant.leaveTwice place
  stop reason _ _ := tolerant.halt_inside (contract.halted_refl _)
  follow closes keeps member :=
    (closes member).bind fun result => keeps result member
  before _ closes member := by
    refine Closes.after tolerant.haltsInside (tolerant.inLayer.change _) ?_
      fun _ => closes member
    intro state exception
    simp [M.change, M.effect, M.io, Prog.act]
  guarded keeps cleanup next member :=
    Closes.guarded tolerant.haltsInside (keeps member) (cleanup member)
      fun result => next result member
  tryLeave keeps handler member :=
    Closes.tryLeave tolerant.haltsInside (keeps member)
      fun exception => handler exception member

section Tags

variable {interp : Interp W} {self : Loc} {caller : Option Loc}
  {contract : Contract (St W)}

/-- The tag as the only member of a family. -/
def Family.one (interp : Interp W) (self : Loc) (caller : Option Loc) :
    Family W Unit :=
  ⟨interp.outside, interp.budget, fun _ => interp.run,
    fun _ => interp.evaluate, self.tag, fun _ => self.up, fun _ => caller⟩

theorem Serves.one (serves : Serves contract interp self caller) :
    (Family.one interp self caller).Serves
      fun {α : Type} (family : Unit → M W α) =>
        ∀ member, Keeps contract (family member) where
  childs _ := serves.childs
  param text _ := serves.param text
  handler child member isCatch _ := serves.handler child member isCatch
  text _ := serves.text

theorem Serves.getParameter (serves : Serves contract interp self caller)
    (name : String) : Keeps contract (interp.getParameter self name) :=
  serves.one.getParameter (Keeps.uniform contract) name ()

theorem dispatch_keeps (tolerant : Tolerant interp.dcl contract)
    (serves : Serves contract interp self caller)
    (ordinary : self.tag.kind.Ordinary) :
    Keeps contract (dispatch interp self caller) :=
  (Family.one interp self caller).dispatch_uniform tolerant.native serves.one
    interp.outside.permitted ⟨fun _ => trivial, fun _ => trivial⟩
    (fun _ => trivial) interp.outside.names_apart ordinary ()

/-- A custom tag keeps the contract if running its definition does. -/
theorem TagUsr.keeps (tolerant : Tolerant interp.dcl contract)
    (serves : Serves contract interp self caller)
    (invokes : ∀ definition, TagUsr.target self = some definition →
      Keeps contract (invoke interp self definition)) :
    Keeps contract (TagUsr.execute interp self) :=
  (Family.one interp self caller).usr_uniform tolerant.native serves.one
    (fun _ => rfl) (fun definition found _ => invokes definition found) ()

theorem TagCall.keeps (tolerant : Tolerant interp.dcl contract)
    (serves : Serves contract interp self caller)
    (invokes : ∀ name definition, findTag name self.up = some definition →
      Keeps contract (invoke interp self definition)) :
    Keeps contract (TagCall.execute interp self) :=
  (Family.one interp self caller).call_uniform tolerant.native serves.one
    (fun _ => rfl)
    (fun name definition found _ => invokes name definition found) ()

/-- The content of a definition matters only for a caller that selects it. -/
theorem TagTag.keeps
    (childs : ∀ call, caller = some call → call.tag.kind.isUsr = true →
      Keeps contract (interp.executeChilds self caller)) :
    Keeps contract (TagTag.execute interp self caller) := by
  unfold TagTag.execute
  split
  · split
    · exact childs _ rfl (by assumption)
    · exact Keeps.pure _
  · exact Keeps.pure _

/-- A thread of `dbp:async` runs in a context of its own, which is gone
afterwards, and does not raise. -/
theorem TagAsync.thread_keeps
    (spawn : ∀ {first second : St W},
      contract.done
        { first with contexts := Context.newLocal :: first.contexts } second →
      contract.done first
        { second with contexts := second.contexts.tail })
    (halts : ∀ {first second : St W},
      contract.halted
        { first with contexts := Context.newLocal :: first.contexts } second →
      contract.halted first second)
    {tag : Tag} (runs : Keeps contract (interp.run (self.child tag) caller)) :
    Keeps contract (TagAsync.thread interp self caller tag) := by
  intro state
  have captured := runs.capture
    { state with contexts := Context.newLocal :: state.contexts }
  refine (Prog.wp_modify_bind _ _ state _).mpr ?_
  refine (Prog.wp_bind _ _ _ _).mpr ?_
  refine (Prog.wp_tryCatch _ _ _ _).mpr ?_
  refine Prog.Wp.mono captured fun outcome final meets => ?_
  cases outcome with
  | value out => exact spawn meets
  | error exception => exact spawn meets
  | halt reason => exact halts meets

end Tags

section Runs

variable {contract : Contract (St W)}

/-- With all virtual calls keeping the contract, every tag is served. -/
theorem serves_of_run {outside : Outside W} {budget : Nat}
    {run : Loc → Option Loc → M W Unit}
    (runs : ∀ loc caller, Keeps contract (run loc caller)) (self : Loc)
    (caller : Option Loc) :
    Serves contract (Interp.ofRun outside budget run) self caller := by
  have evaluates : ∀ scope text, Keeps contract
      ((Interp.ofRun outside budget run).evaluate scope text) :=
    fun scope text => Evaluator.evaluate_keeps
      (Evaluator.executeFunction_keeps (fun _ _ => runs _ _)
        fun _ _ => runs _ _) text
  have childs : ∀ loc caller, Keeps contract
      ((Interp.ofRun outside budget run).executeChilds loc caller) :=
    fun loc caller => Keeps.bind (Keeps.forEach fun _ _ => runs _ _)
      fun _ => Keeps.emit _
  exact ⟨childs _ _, fun _ => evaluates _ _, fun _ _ _ => childs _ _,
    evaluates _ _⟩

/-- The induction over the depth of the calls, for contracts that every tag
keeps wherever it stands: besides being tolerant, the contract has to cope
with the tags that work on the stack of calls, and with threads. -/
theorem execute_keeps_of {outside : Outside W}
    (tolerant : Tolerant outside.dcl contract)
    (invokes : ∀ {interp : Interp W} {self definition : Loc},
      Keeps contract (interp.run definition (some self)) →
      Keeps contract (invoke interp self definition))
    (executes : ∀ {interp : Interp W} {self : Loc} {caller : Option Loc},
      Serves contract interp self caller →
      (∀ loc caller, Keeps contract (interp.run loc caller)) →
      (∀ loc caller, Keeps contract (interp.executeChilds loc caller)) →
      Keeps contract (TagExecute.execute interp self))
    (spawn : ∀ {first second : St W},
      contract.done
        { first with contexts := Context.newLocal :: first.contexts } second →
      contract.done first { second with contexts := second.contexts.tail })
    (halts : ∀ {first second : St W},
      contract.halted
        { first with contexts := Context.newLocal :: first.contexts } second →
      contract.halted first second)
    (depth : Nat) :
    ∀ self caller, Keeps contract (execute outside depth self caller) := by
  induction depth with
  | zero => exact fun _ _ => Keeps.halt .timeout
  | succ depth runs =>
      intro self caller
      have serves : ∀ loc caller, Serves contract
          (Interp.ofRun outside depth (execute outside depth)) loc caller :=
        serves_of_run runs
      have childs := fun loc caller => (serves loc caller).childs
      unfold execute
      by_cases ordinary : self.tag.kind.Ordinary
      · exact dispatch_keeps tolerant (serves self caller) ordinary
      · unfold dispatch
        cases kind : self.tag.kind <;>
          simp only [kind, Kind.Ordinary, not_true_eq_false] at ordinary
        case usr =>
          exact TagUsr.keeps tolerant (serves self caller)
            fun _ _ => invokes (runs _ _)
        case userFunction =>
          exact TagUsr.keeps tolerant (serves self caller)
            fun _ _ => invokes (runs _ _)
        case call =>
          exact TagCall.keeps tolerant (serves self caller)
            fun _ _ _ => invokes (runs _ _)
        case tag => exact TagTag.keeps fun _ _ _ => childs _ _
        case execute => exact executes (serves self caller) runs childs
        case async =>
          let family := Family.one
            (Interp.ofRun outside depth (execute outside depth)) self caller
          refine family.async_uniform tolerant.native (fun tag _ _ => ?_) ()
          exact TagAsync.thread_keeps spawn halts (runs _ _)

end Runs

end DbPager
