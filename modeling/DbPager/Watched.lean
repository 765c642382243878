import DbPager.Beside
import DbPager.Rendering

/-!
# A copy of the interpreter that does not see markup

The copy stops at everything that may be different inside of an HTML element:
at HTML elements, at CDATA sections with a delimiter, at assignments to the
variable of the renderer, and where `ldap:bind` leaves a layer that is not its
own.  Where it does not stop it is the interpreter.
-/

namespace DbPager

open Effect

open Effect.Prog (Guards Related Relates)

variable {W : Type}

namespace Lexer

theorem getFunction_spelt (dcl : Dcl) (lexer : Lexer) {name : Str}
    (rest : Str) (last : Char) (spelt : Spelt name) :
    Spelt (getFunction dcl lexer name rest last).1.name := by
  unfold getFunction
  split
  · simp only
    split
    · exact spelt
    · exact spelt
  · exact spelt
  · exact spelt

theorem getTokenFrom_spelt (dcl : Dcl) {lexer : Lexer} (c : Char)
    (rest : Str) (spelt : Spelt lexer.name) :
    Spelt (getTokenFrom dcl lexer c rest).1.name := by
  unfold getTokenFrom
  split
  case h_15 => exact spelt_takeWhile (by decide) rest
  case h_16 =>
    split
    · exact spelt
    · split
      · split <;> exact spelt
      · split
        · exact getFunction_spelt dcl lexer _ _
            (spelt.append (spelt_takeWhile (by decide) _))
        · exact spelt
  all_goals first
    | exact spelt
    | split <;> exact spelt

theorem getToken_spelt (dcl : Dcl) {lexer : Lexer}
    (spelt : Spelt lexer.name) : Spelt (lexer.getToken dcl).1.name := by
  unfold getToken
  split
  · exact spelt
  · exact getTokenFrom_spelt dcl _ _ spelt

end Lexer

namespace Watched

/-- No character of the text is a delimiter of markup. -/
def NoDelimiters (text : Str) : Prop :=
  ∀ c ∈ text, Html.isDelimiter c = false

instance (text : Str) : Decidable (NoDelimiters text) :=
  List.decidableBAll (fun c => Html.isDelimiter c = false) text

theorem stubChar_eq_iff (c : Char) :
    stubChar c = c ↔ Html.isDelimiter c = false := by
  constructor
  · intro same
    cases delimiter : Html.isDelimiter c with
    | false => rfl
    | true =>
        rcases Html.isDelimiter_cases delimiter with rfl | rfl | rfl | rfl <;>
          exact absurd same (by decide)
  · intro delimiter
    exact List.singleton_inj.mp (Html.convertChar_plain true delimiter)

theorem stub_eq_iff (text : Str) : stub text = text ↔ NoDelimiters text := by
  induction text with
  | nil => exact iff_of_true rfl (List.forall_mem_nil _)
  | cons c text induction =>
      unfold NoDelimiters
      rw [List.forall_mem_cons, ← stubChar_eq_iff]
      exact List.cons_eq_cons.trans (and_congr_right fun _ => induction)

/-- One of the names is that of the variable of the renderer. -/
def marks (names : List Str) : Bool :=
  names.any fun name => upName name == htmlFirst

theorem apart_of_marks {names : List Str} (free : marks names = false) :
    ∀ name ∈ names, Apart False name := by
  intro name member same
  have none := List.any_eq_false.mp free name member
  exact none (beq_iff_eq.mpr same)

/-- `tag_set`, with a look at the names. -/
def set (interp : Interp W) (self : Loc) (caller : Option Loc) :
    M W Unit := do
  let value ← (interp.executeChilds self caller).capture
  let names ← interp.getParameter self "name"
  if marks (interp.dcl.tokens names) then Prog.halt .fault
  else
    Prog.forEach (fun name => M.setValue interp.dcl name value)
      (interp.dcl.tokens names)

/-- The part of `tag_split` inside its `try` block, with a look at the
names. -/
def splitBody (interp : Interp W) (self : Loc) (caller : Option Loc)
    (sep : Str) (fragments : List Str) : M W Unit := do
  let text ← interp.getParameter self "name"
  if marks (interp.dcl.tokenize text ",".toList) then Prog.halt .fault
  else
    TagSplit.bound interp self caller sep fragments
      (interp.dcl.tokenize text ",".toList)

def split (interp : Interp W) (self : Loc) (caller : Option Loc) :
    M W Unit := do
  M.enter
  let (sep, fragments) ←
    (TagSplit.source interp self).onError (M.record (.leak .splitParameter))
  (splitBody interp self caller sep fragments).onError M.leave
  M.leave

/-- `tag_bind`, up to the second `leave`. -/
def ldapBind (interp : Interp W) (self : Loc) (caller : Option Loc) :
    M W Unit := do
  let dn ← interp.getParameter self "dn"
  let password ← interp.getParameter self "password"
  let connection ← Ldap.pointer interp
  M.withLayer do
    M.addValue interp.dcl Ldap.bindDn dn
    M.addValue interp.dcl Ldap.bindPw password
    M.io (interp.outside.ldap.bind connection dn password)
    interp.executeChilds self caller
  (Ldap.TagBind.rebind interp connection).onError (Prog.halt .fault)

/-- The virtual call of the copy. -/
def dispatch (interp : Interp W) (self : Loc) (caller : Option Loc) :
    M W Unit :=
  match self.tag.kind with
  | .cdata =>
      if NoDelimiters self.tag.text then Prog.emit self.tag.text
      else Prog.halt .fault
  | .unknown _ => Prog.halt .fault
  | .set => set interp self caller
  | .split => split interp self caller
  | .ldapBind => ldapBind interp self caller
  | _ => DbPager.dispatch interp self caller

def run (outside : Outside W) : Nat → Loc → Option Loc → M W Unit
  | 0, _, _ => Prog.halt .timeout
  | depth + 1, self, caller =>
      dispatch (Interp.ofRun outside depth (run outside depth)) self caller

/-- A copy of a program, and the program. -/
def pairOf {α : Type} (guarded program : M W α) : Bool → M W α
  | true => guarded
  | false => program

/-- Of a pair of programs, the first one is a copy of the second one that may
stop, and it does not see the variable of the renderer below a number of
layers. -/
def Blind (layers : Nat) {α : Type} (family : Bool → M W α) : Prop :=
  Guards (family true) (family false) ∧ ∀ view : Nat × List Nat,
    Related (Framed ((view.1 + layers) :: view.2)) (family true) (family true)

/-- The same of programs that leave a layer. -/
def BlindClosing {α : Type} (family : Bool → M W α) : Prop :=
  Guards (family true) (family false) ∧ ∀ view : Nat × List Nat,
    Relates (Framed ((view.1 + 1) :: view.2)) (Framed (view.1 :: view.2))
      (Framed (view.1 :: view.2)) (family true) (family true)

section Natives

variable {α : Type} {layers : Nat}

theorem Blind.uniform (layers : Nat) :
    Prog.Uniform fun {α : Type} (family : Bool → M W α) =>
      Blind layers family :=
  Prog.Guards.uniform.and (Prog.Related.uniform
    (fun view : Nat × List Nat => Framed ((view.1 + layers) :: view.2)) true)

/-- A program that does not see the variable. -/
theorem Blind.of_related {program : M W α}
    (related : ∀ {depth depths},
      Related (Framed (depth :: depths)) program program) :
    Blind layers fun _ => program :=
  ⟨.refl _, fun _ => related⟩

/-- The copy looks at something and may stop there. -/
theorem Blind.checked {guarded program : M W α} {refuses : Bool}
    (holds : refuses = false → Blind layers (pairOf guarded program)) :
    Blind layers
      (pairOf (if refuses then Prog.halt .fault else guarded) program) := by
  cases refuses with
  | true => exact ⟨Guards.fault _, fun _ => Related.halt .fault⟩
  | false => exact holds rfl

/-- A container lives in both states at the same address. -/
theorem withObject_blind {create destroy : Nat → St W → St W}
    {body : Bool → Nat → M W α}
    (creates : ∀ {depths first second} addr, Framed depths first second →
      Framed depths (create addr first) (create addr second))
    (destroys : ∀ {depths first second} addr, Framed depths first second →
      Framed depths (destroy addr first) (destroy addr second))
    (inside : ∀ addr, Blind 0 fun member => body member addr) :
    Blind 0 fun member => M.withObject create destroy (body member) := by
  have uniform := Blind.uniform (W := W) 0
  have destroyed (addr : Nat) : Blind 0 fun _ =>
      (Prog.modify (destroy addr) : M W Unit) :=
    .of_related (Related.modify (destroys addr))
  unfold M.withObject
  refine uniform.bind (.of_related (Related.read Framed.nextAddr))
    fun addr => ?_
  refine uniform.bind (.of_related (Related.modify fun framed => ?_))
    fun _ => ?_
  · exact creates addr
      { framed with nextAddr := congrArg (· + 1) framed.nextAddr }
  · refine uniform.bind (uniform.onError (inside addr) (destroyed addr))
      fun result => ?_
    exact uniform.bind (destroyed addr) fun _ => uniform.pure result

theorem native (dcl : Dcl) :
    Native dcl (fun {α} (_ : Io W α) => True) False
      (fun {α : Type} (family : Bool → M W α) => Blind 0 family)
      (fun {α : Type} (family : Bool → M W α) => Blind 1 family)
      (fun {α : Type} (family : Bool → M W α) => BlindClosing family) where
  toUniform := Blind.uniform 0
  inside := Blind.uniform 1
  getValue name apart :=
    .of_related (Related.read fun framed => framed.contexts.getValue apart)
  setValue name value apart := .of_related (setValue_related dcl apart value)
  services := .of_related (Related.read Framed.services)
  withVector body := withObject_blind
    (fun addr framed => { framed with
      vectors := congrArg (·.insert addr ⟨[], []⟩) framed.vectors })
    (fun addr framed => { framed with
      vectors := congrArg (·.erase addr) framed.vectors }) body
  withMap body := withObject_blind
    (fun addr framed => { framed with
      maps := congrArg (·.insert addr ⟨∅, []⟩) framed.maps })
    (fun addr framed => { framed with
      maps := congrArg (·.erase addr) framed.maps }) body
  getVector addr := .of_related <| Related.act fun framed => by
    rw [framed.vectors]
    split <;> exact ⟨rfl, framed⟩
  setVector addr vector := .of_related <| Related.modify fun framed =>
    { framed with vectors := congrArg (·.insert addr vector) framed.vectors }
  getMap addr := .of_related <| Related.act fun framed => by
    rw [framed.maps]
    split <;> exact ⟨rfl, framed⟩
  setMap addr map := .of_related <| Related.modify fun framed =>
    { framed with maps := congrArg (·.insert addr map) framed.maps }
  io _ := .of_related (io_related _)
  ask _ next :=
    ⟨Prog.Tends.bind_of (.refl _) fun state result returned =>
        (next state.world result returned).1,
      fun view => Relates.bind_of (io_related _) fun state result returned =>
        (next state.world result returned).2 view⟩
  raise holds := ⟨holds.1, fun view => holds.2 (view.1 + 1, view.2)⟩
  addTyped name value type := .of_related (addTyped_related dcl name value type)
  enter closes :=
    ⟨.bind (.refl _) fun _ => closes.1,
      fun view => enter_relates.bind fun _ => closes.2 view⟩
  leave := ⟨.refl _, fun _ => leave_relates⟩
  leak place := ⟨.refl _, fun _ =>
    (record_related _).mono (fun framed => framed) Framed.less Framed.less⟩
  leaveTwice place sees := sees.elim
  stop reason := ⟨.refl _, fun _ => Relates.halt reason⟩
  follow closes next :=
    ⟨closes.1.bind fun result => (next result).1,
      fun view => (closes.2 view).bind fun result => (next result).2 view⟩
  before {_ operation _} _ closes :=
    ⟨.bind (.refl _) fun _ => closes.1, fun view => Relates.bind
      ((io_related (Io.ofChange operation)).mono (fun framed => framed)
        (fun framed => framed) Framed.less) fun _ => closes.2 view⟩
  guarded body cleanup next :=
    ⟨(body.1.tryCatch fun _ => cleanup.1.bind fun _ => .refl _).bind
        fun result => (next result).1,
      fun view => Relates.bind
        (Relates.tryCatch (body.2 view) fun exception =>
          (cleanup.2 view).bind fun _ => Relates.throw exception)
        fun result => (next result).2 view⟩
  tryLeave body handler :=
    ⟨(body.1.bind fun _ => .refl _).tryCatch fun exception =>
        (handler exception).1,
      fun view => Relates.tryCatch
        (Relates.bind (body.2 view) fun _ => leave_relates)
        fun exception => (handler exception).2 view⟩

end Natives

section Expressions

variable (outside : Outside W)

/-- Expressions cannot name the variable. -/
theorem closed_related {depth : Nat} {depths : List Nat} :
    Evaluator.Closed outside
      (fun program => Related (Related.WithPrivate (Framed (depth :: depths))
        fun lexer : Lexer => Spelt lexer.name) program program)
      (fun program => Related (Framed (depth :: depths)) program program) where
  pure := Related.pure
  bind := Related.bind
  throw := Related.throw
  timeout := Related.halt .timeout
  tryCatch := Related.tryCatch
  getToken := by
    apply Related.act
    rintro ⟨left, lexer⟩ ⟨right, other⟩ ⟨framed, same, spelt⟩
    simp only at same framed spelt
    subst same
    have named := Lexer.getToken_spelt outside.dcl spelt
    cases read : lexer.getToken outside.dcl with
    | mk next raised =>
        rw [read] at named
        cases raised with
        | none => exact ⟨rfl, framed, rfl, named⟩
        | some exception => exact ⟨rfl, framed, rfl, named⟩
  read := fun view => Related.read fun same => congrArg view same.2.1
  dropValue := by
    apply Related.modify
    rintro ⟨left, lexer⟩ ⟨right, other⟩ ⟨framed, same, spelt⟩
    simp only at same
    subst same
    exact ⟨framed, rfl, spelt⟩
  lookup := by
    rintro ⟨left, lexer⟩ ⟨right, other⟩ ⟨framed, same, spelt⟩
    simp only at same framed spelt
    subst same
    have value := framed.contexts.getValue spelt.ne_htmlFirst
    exact ⟨rfl, congrArg Outcome.value value, framed, rfl, List.not_mem_nil⟩
  lift := Related.lift
  within := by
    intro expression body related
    refine Related.within ?_ related
    exact List.not_mem_nil
  outerPure := Related.pure
  outerBind := Related.bind
  outerThrow := Related.throw
  outerTimeout := Related.halt .timeout

variable {outside}

/-- Expressions call functions, and functions run tags. -/
theorem evaluate_blind {runs : Bool → Loc → Option Loc → M W Unit}
    (blind : ∀ loc caller, Blind 0 fun member => runs member loc caller)
    (budget : Nat) (scope : List Tag) (text : Str) :
    Blind 0 fun member =>
      (Interp.ofRun outside budget (runs member)).evaluate scope text := by
  have captured := fun loc caller =>
    (Blind.uniform (W := W) 0).capture (blind loc caller)
  have called : ∀ name params, Blind 0 fun member =>
      Evaluator.executeFunction outside (runs member) scope name params := by
    intro name params
    unfold Evaluator.executeFunction
    split
    · exact .of_related (Related.throw _)
    · exact captured _ _
    · split
      · exact captured _ _
      · exact .of_related (Related.throw _)
  constructor
  · exact Evaluator.evaluate_tends outside (fun name params =>
      (called name params).1) text
  · intro view
    exact (closed_related outside).evaluate (fun name params =>
      (called name params).2 view) text

end Expressions

section Tags

variable (outside : Outside W) (budget : Nat)
  {runs : Bool → Loc → Option Loc → M W Unit}

/-- The copy and the interpreter at one tag. -/
abbrev pair (outside : Outside W) (budget : Nat)
    (runs : Bool → Loc → Option Loc → M W Unit) (self : Loc)
    (caller : Option Loc) : Family W Bool :=
  ⟨outside, budget, runs,
    fun member => (Interp.ofRun outside budget (runs member)).evaluate,
    self.tag, fun _ => self.up, fun _ => caller⟩

variable (blind : ∀ loc caller, Blind 0 fun member => runs member loc caller)
include blind

theorem childs_blind (self : Loc) (caller : Option Loc) :
    Blind 0 fun member =>
      (Interp.ofRun outside budget (runs member)).executeChilds self
        caller := by
  have uniform := Blind.uniform (W := W) 0
  exact uniform.bind (uniform.forEach fun _ _ => blind _ _)
    fun _ => uniform.emit _

theorem serves (self : Loc) (caller : Option Loc) :
    (pair outside budget runs self caller).Serves
      fun {α : Type} (family : Bool → M W α) => Blind 0 family where
  childs := childs_blind outside budget blind self caller
  param text := evaluate_blind blind budget _ text
  handler child _ _ :=
    childs_blind outside budget blind (self.child child) caller
  text := evaluate_blind blind budget _ _

theorem invoke_blind (self definition : Loc) : Blind 0 fun member =>
    invoke (Interp.ofRun outside budget (runs member)) self definition := by
  have uniform := Blind.uniform (W := W) 0
  have returned : Blind 0 fun _ =>
      (do let _ ← M.pop; M.record .ret : M W Unit) :=
    .of_related (pop_related.bind fun _ => record_related _)
  refine uniform.bind (.of_related (record_related _)) fun _ => ?_
  refine uniform.bind (.of_related (push_related self)) fun _ => ?_
  exact uniform.bind (uniform.onError (blind _ _) returned) fun _ => returned

theorem execute_blind (self : Loc) (caller : Option Loc) :
    Blind 0 fun member =>
      TagExecute.execute (Interp.ofRun outside budget (runs member)) self := by
  have uniform := Blind.uniform (W := W) 0
  have record (event : Event) : Blind 0 fun _ => (M.record event : M W Unit) :=
    .of_related (record_related event)
  have push (loc : Loc) : Blind 0 fun _ => (M.push loc : M W Unit) :=
    .of_related (push_related loc)
  refine uniform.bind (.of_related (Related.read Framed.exec)) fun exec => ?_
  refine uniform.bind (record _) fun _ => ?_
  refine uniform.bind (.of_related pop_related) fun popped => ?_
  cases popped with
  | none => exact uniform.pure ()
  | some call =>
      apply uniform.onError _ (record .unwound)
      have served := serves outside budget blind self caller
      refine uniform.bind (served.getParameter uniform "name") fun name => ?_
      apply Prog.Uniform.ite
      · refine uniform.bind (record _) fun _ => ?_
        refine uniform.bind (childs_blind outside budget blind call (some self))
          fun _ => ?_
        exact uniform.bind (push call) fun _ => record _
      · cases call.getChild ('@' :: name) with
        | none => exact push call
        | some slot =>
            refine uniform.bind (record _) fun _ => ?_
            refine uniform.bind (blind slot (some call)) fun _ => ?_
            exact uniform.bind (push call) fun _ => record _

theorem tag_blind (self : Loc) (caller : Option Loc) : Blind 0 fun member =>
    TagTag.execute (Interp.ofRun outside budget (runs member)) self
      caller := by
  have uniform := Blind.uniform (W := W) 0
  unfold TagTag.execute
  cases caller with
  | none => exact uniform.pure ()
  | some call =>
      exact Prog.Uniform.ite
        (childs_blind outside budget blind self (some call)) (uniform.pure ())

/-- A thread has a context of its own, and runs on both sides in front of the
same one. -/
theorem thread_blind (self : Loc) (caller : Option Loc) (tag : Tag) :
    Blind 0 fun member =>
      TagAsync.thread (Interp.ofRun outside budget (runs member)) self caller
        tag := by
  have captured := (Blind.uniform (W := W) 0).capture
    (blind (self.child tag) caller)
  constructor
  · have ran := captured.1.tryCatch fun _ => .refl (pure [])
    exact .bind (.refl _) fun _ => ran.bind fun _ => .refl _
  · intro view
    have ran : Relates (Framed (0 :: view.1 :: view.2))
        (Framed (0 :: view.1 :: view.2)) (Framed (view.1 :: view.2)) _ _ :=
      Relates.tryCatch (captured.2 (0, view.1 :: view.2))
        fun _ => Relates.pure []
    exact enterThread_relates.bind fun _ => ran.bind fun out =>
      leaveThread_relates.bind fun _ => Relates.pure out

theorem set_blind (self : Loc) (caller : Option Loc) :
    Blind 0 (pairOf
      (set (Interp.ofRun outside budget (runs true)) self caller)
      (TagSet.execute (Interp.ofRun outside budget (runs false)) self
        caller)) := by
  have native := native (W := W) outside.dcl
  have serves := serves outside budget blind self caller
  have assigned (value : Str) (names : List Str) :
      let assigns : M W Unit :=
        Prog.forEach (fun name => M.setValue outside.dcl name value) names
      Blind 0 (pairOf (if marks names then Prog.halt .fault else assigns)
        assigns) := by
    apply Blind.checked
    intro free
    exact native.forEach fun name member =>
      native.setValue name value (apart_of_marks free name member)
  exact native.bind (native.capture serves.childs) fun value =>
    native.bind (serves.parameter native "name") fun names =>
      assigned value (outside.dcl.tokens names)

theorem split_blind (self : Loc) (caller : Option Loc) :
    Blind 0 (pairOf
      (split (Interp.ofRun outside budget (runs true)) self caller)
      (TagSplit.execute (Interp.ofRun outside budget (runs false)) self
        caller)) := by
  have native := native (W := W) outside.dcl
  have serves := serves outside budget blind self caller
  have bound (sep : Str) (fragments names : List Str) :
      Blind 1 (pairOf
        (if marks names then Prog.halt .fault
        else
          TagSplit.bound (Interp.ofRun outside budget (runs true)) self caller
            sep fragments names)
        (TagSplit.bound (Interp.ofRun outside budget (runs false)) self caller
          sep fragments names)) := by
    apply Blind.checked
    intro free
    exact (pair outside budget runs self caller).bound_uniform native serves
      sep fragments (apart_of_marks free)
  have body (sep : Str) (fragments : List Str) :
      Blind 1 (pairOf
        (splitBody (Interp.ofRun outside budget (runs true)) self caller sep
          fragments)
        (TagSplit.body (Interp.ofRun outside budget (runs false)) self caller
          sep fragments)) :=
    native.inside.bind ((serves.inside native).getParameter native.inside
      "name") fun text => bound sep fragments _
  exact (pair outside budget runs self caller).splitWith_uniform native serves
    body

theorem ldapBind_blind (self : Loc) (caller : Option Loc) :
    Blind 0 (pairOf
      (ldapBind (Interp.ofRun outside budget (runs true)) self caller)
      (Ldap.TagBind.execute (Interp.ofRun outside budget (runs false)) self
        caller)) := by
  have native := native (W := W) outside.dcl
  have refused : Blind 0 (pairOf (Prog.halt .fault) (do
      M.record (.leak .ldapRebind)
      M.leave : M W Unit)) :=
    ⟨Guards.fault _, fun _ => Related.halt .fault⟩
  have whole := (pair outside budget runs self caller).ldapBindWith_uniform
    native (serves outside budget blind self caller)
    (outside.permitted.ldap trivial) refused
  exact ⟨whole.1, whole.2⟩

end Tags

section Runs

variable {outside : Outside W}

/-- Most tags neither write markup nor name the variable. -/
theorem dispatch_eq (interp : Interp W) {self : Loc} (caller : Option Loc)
    (plain : self.tag.kind.sees = false) :
    dispatch interp self caller = DbPager.dispatch interp self caller := by
  unfold dispatch
  cases kind : self.tag.kind <;> rw [kind] at plain <;>
    first | rfl | cases plain

/-- One step, for the tags whose copy is the tag itself. -/
theorem dispatch_blind {budget : Nat}
    {runs : Bool → Loc → Option Loc → M W Unit}
    (blind : ∀ loc caller, Blind 0 fun member => runs member loc caller)
    (names : outside.sqlite.NamesApart False ∧ outside.odbc.NamesApart False)
    {self : Loc} (caller : Option Loc)
    (plain : self.tag.kind.sees = false) : Blind 0 fun member =>
      DbPager.dispatch (Interp.ofRun outside budget (runs member)) self
        caller := by
  let family := pair outside budget runs self caller
  have native := native (W := W) outside.dcl
  have serves := serves outside budget blind self caller
  have sees : self.tag.kind.sees = true → False := by
    rw [plain]
    exact Bool.false_ne_true
  by_cases ordinary : self.tag.kind.Ordinary
  · exact family.dispatch_uniform native serves outside.permitted
      ⟨fun _ => trivial, fun _ => trivial⟩ sees names ordinary
  · have invoked := fun definition =>
      invoke_blind outside budget blind self definition
    unfold DbPager.dispatch
    cases kind : self.tag.kind <;>
      simp only [kind, Kind.Ordinary, not_true_eq_false] at ordinary
    case usr =>
      exact family.usr_uniform native serves (fun _ => rfl)
        fun definition _ => invoked definition
    case userFunction =>
      exact family.usr_uniform native serves (fun _ => rfl)
        fun definition _ => invoked definition
    case call =>
      exact family.call_uniform native serves (fun _ => rfl)
        fun _ definition _ => invoked definition
    case tag => exact tag_blind outside _ blind self caller
    case execute => exact execute_blind outside _ blind self caller
    case async =>
      exact family.async_uniform native fun tag _ =>
        thread_blind outside _ blind self caller tag

/-- A CDATA section without a delimiter is written as it is. -/
theorem cdata_eq {self : Loc} (plain : NoDelimiters self.tag.text) :
    (TagCdata.execute self : M W Unit) = Prog.emit self.tag.text := by
  have same : stub self.tag.text = self.tag.text :=
    (stub_eq_iff self.tag.text).mpr plain
  funext state
  unfold TagCdata.execute
  rw [Prog.bind_silent (M.getValue_eq htmlFirst state), same, ite_self]

/-- The copy and the interpreter. -/
def both (outside : Outside W) (depth : Nat) :
    Bool → Loc → Option Loc → M W Unit
  | true => run outside depth
  | false => execute outside depth

/-- Where the copy does not stop it is the interpreter, and it does not see
the variable of the renderer. -/
theorem run_blind
    (names : outside.sqlite.NamesApart False ∧ outside.odbc.NamesApart False)
    (depth : Nat) :
    ∀ self caller, Blind 0 fun member =>
      both outside depth member self caller := by
  induction depth with
  | zero =>
      intro self caller
      exact (Blind.uniform 0).halt .timeout
  | succ depth blind =>
      intro self caller
      change Blind 0 (pairOf (run outside (depth + 1) self caller)
        (execute outside (depth + 1) self caller))
      unfold run execute
      by_cases plain : self.tag.kind.sees = false
      · rw [dispatch_eq _ caller plain]
        exact dispatch_blind blind names caller plain
      · unfold dispatch DbPager.dispatch
        cases kind : self.tag.kind <;>
          simp only [kind, Kind.sees, not_true_eq_false] at plain
        case cdata =>
          simp only
          split
          · rw [cdata_eq ‹_›]
            exact (Blind.uniform 0).emit _
          · exact ⟨Guards.fault _, fun _ => Related.halt .fault⟩
        case unknown =>
          exact ⟨Guards.fault _, fun _ => Related.halt .fault⟩
        case set => exact set_blind outside _ blind self caller
        case split => exact split_blind outside _ blind self caller
        case ldapBind => exact ldapBind_blind outside _ blind self caller

end Runs

end Watched

end DbPager
