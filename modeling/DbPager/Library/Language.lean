import Mathlib.Data.Finmap

/-!
# A language with dynamic scope

Statements write text, compute texts from a store of named texts, bind and
assign names, capture what other statements write, raise and catch exceptions,
loop, and call procedures.  A call may bring a frame along; the frames of the
active calls are kept on a stack, and a statement can run with the topmost
frame taken off.

A statement has two meanings: one that computes, with bounds for nested calls
and for loops, and one without bounds.  They agree.
-/

namespace Language

abbrev Store (κ ω : Type) :=
  Finmap fun _ : κ => List ω

structure Config (κ ω φ : Type) where
  store : Store κ ω
  frames : List φ

/-- How a statement ends: normally, or with an exception that is raised. -/
structure Ending (κ ω ε φ : Type) where
  config : Config κ ω φ
  out : List ω
  raised : Option ε

/-- An expression: no value where it has no meaning. -/
abbrev Expr (κ ω ε : Type) :=
  Store κ ω → Option (Except ε (List ω))

inductive Stmt (κ ω ε φ π : Type) where
  | write (text : List ω)
  | seq (first second : Stmt κ ω ε φ π)
  | compute (expr : Expr κ ω ε) (next : List ω → Stmt κ ω ε φ π)
  /-- What the body writes is handed on instead of being written. -/
  | capture (body : Stmt κ ω ε φ π) (next : List ω → Stmt κ ω ε φ π)
  /-- The exception is raised for a name without a binding. -/
  | assign (name : κ) (value : List ω) (unbound : ε)
  /-- The binding holds for the body and is undone behind it. -/
  | declare (name : κ) (value : List ω) (body : Stmt κ ω ε φ π)
  | rescue (body : Stmt κ ω ε φ π) (catches : ε → Bool)
      (handler : ε → Stmt κ ω ε φ π)
  | throw (exception : ε)
  | loop (test : Expr κ ω ε) (holds : List ω → Bool) (body : Stmt κ ω ε φ π)
  /-- The frame lies on the stack while the body runs. -/
  | enter (frame : φ) (body : Stmt κ ω ε φ π)
  /-- Run with the topmost frame taken off.  It is put back unless an exception
  is raised. -/
  | slot (body : φ → Stmt κ ω ε φ π)
  | invoke (procedure : π)
  | stuck

/-- Why there is no ending. -/
inductive Stop where
  | timeout
  | stuck

abbrev Answer (κ ω ε φ : Type) :=
  Except Stop (Ending κ ω ε φ)

variable {κ ω ε φ π : Type}

namespace Ending

/-- The ending with more text in front of it. -/
def behind (out : List ω) (ending : Ending κ ω ε φ) : Ending κ ω ε φ :=
  { ending with out := out ++ ending.out }

def silent (ending : Ending κ ω ε φ) : Ending κ ω ε φ :=
  { ending with out := [] }

/-- The frames without the topmost one. -/
def leave (ending : Ending κ ω ε φ) : Ending κ ω ε φ :=
  { ending with config := { ending.config with
      frames := ending.config.frames.tail } }

/-- The frame is put back on the stack. -/
def putBack (frame : φ) (ending : Ending κ ω ε φ) : Ending κ ω ε φ :=
  { ending with config := { ending.config with
      frames := frame :: ending.config.frames } }

end Ending

/-- Go on after an ending that is not an exception. -/
def Answer.andThen (first : Answer κ ω ε φ)
    (next : Config κ ω φ → Answer κ ω ε φ) : Answer κ ω ε φ :=
  match first with
  | .error stop => .error stop
  | .ok ⟨config, out, none⟩ => (next config).map (Ending.behind out)
  | .ok ⟨config, out, some exception⟩ => .ok ⟨config, out, some exception⟩

/-- The frame is put back, unless an exception is raised. -/
def Answer.putBack (frame : φ) : Answer κ ω ε φ → Answer κ ω ε φ
  | .ok ⟨config, out, none⟩ => .ok (Ending.putBack frame ⟨config, out, none⟩)
  | other => other

/-- Use the value of an expression. -/
def withValue (expr : Expr κ ω ε) (next : List ω → Answer κ ω ε φ)
    (config : Config κ ω φ) : Answer κ ω ε φ :=
  match expr config.store with
  | none => .error .stuck
  | some (.error exception) => .ok ⟨config, [], some exception⟩
  | some (.ok value) => next value

/-- The rounds of a loop, as far as the budget goes. -/
def iterate (test : Expr κ ω ε) (holds : List ω → Bool)
    (body : Config κ ω φ → Answer κ ω ε φ) :
    Nat → Config κ ω φ → Answer κ ω ε φ
  | 0, _ => .error .timeout
  | budget + 1, config =>
      withValue test (fun value =>
        if holds value then (body config).andThen (iterate test holds body budget)
        else .ok ⟨config, [], none⟩) config

/-! ## More steps do not change an ending -/

/-- Every ending of the first answer is one of the second. -/
def Answer.Below (first second : Answer κ ω ε φ) : Prop :=
  ∀ ending, first = .ok ending → second = .ok ending

theorem Answer.Below.refl (answer : Answer κ ω ε φ) : answer.Below answer :=
  fun _ same => same

theorem Answer.below_error (stop : Stop) (answer : Answer κ ω ε φ) :
    Answer.Below (.error stop) answer := by
  intro ending same
  cases same

theorem Answer.Below.map {first second : Answer κ ω ε φ}
    (below : first.Below second) (change : Ending κ ω ε φ → Ending κ ω ε φ) :
    Answer.Below (first.map change) (second.map change) := by
  cases first with
  | error stop => exact Answer.below_error stop _
  | ok ending =>
      rw [below ending rfl]
      exact .refl _

theorem Answer.Below.andThen {first second : Answer κ ω ε φ}
    {next other : Config κ ω φ → Answer κ ω ε φ}
    (below : first.Below second)
    (rest : ∀ config, (next config).Below (other config)) :
    (first.andThen next).Below (second.andThen other) := by
  cases first with
  | error stop => exact Answer.below_error stop _
  | ok ending =>
      rw [below ending rfl]
      obtain ⟨config, out, raised⟩ := ending
      cases raised with
      | none => exact (rest config).map _
      | some exception => exact .refl _

theorem Answer.Below.putBack {first second : Answer κ ω ε φ}
    (below : first.Below second) (frame : φ) :
    (first.putBack frame).Below (second.putBack frame) := by
  cases first with
  | error stop => exact Answer.below_error stop _
  | ok ending =>
      rw [below ending rfl]
      exact .refl _

theorem withValue_below {expr : Expr κ ω ε} {config : Config κ ω φ}
    {next other : List ω → Answer κ ω ε φ}
    (rest : ∀ value, (next value).Below (other value)) :
    (withValue expr next config).Below (withValue expr other config) := by
  unfold withValue
  split
  · exact .refl _
  · exact .refl _
  · exact rest _

theorem iterate_below {test : Expr κ ω ε} {holds : List ω → Bool}
    {body other : Config κ ω φ → Answer κ ω ε φ}
    (rest : ∀ config, (body config).Below (other config))
    {budget more : Nat} (enough : budget ≤ more) (config : Config κ ω φ) :
    (iterate test holds body budget config).Below
      (iterate test holds other more config) := by
  induction budget generalizing more config with
  | zero => exact Answer.below_error _ _
  | succ budget induction =>
      cases more with
      | zero => exact absurd enough (Nat.not_succ_le_zero _)
      | succ more =>
          apply withValue_below
          intro value
          cases holds value with
          | false => exact .refl _
          | true =>
              exact (rest config).andThen fun config =>
                induction (Nat.le_of_succ_le_succ enough) config

/-! ## How an answer came about -/

theorem Answer.map_eq_ok {answer : Answer κ ω ε φ}
    {change : Ending κ ω ε φ → Ending κ ω ε φ} {ending : Ending κ ω ε φ}
    (ends : answer.map change = .ok ending) :
    ∃ before, answer = .ok before ∧ change before = ending := by
  cases answer with
  | error stop => cases ends
  | ok before => exact ⟨before, rfl, Except.ok.inj ends⟩

/-- A sequence ends with an exception of its first part, or with what the
second part does. -/
theorem Answer.andThen_eq_ok {first : Answer κ ω ε φ}
    {next : Config κ ω φ → Answer κ ω ε φ} {ending : Ending κ ω ε φ}
    (ends : first.andThen next = .ok ending) :
    (∃ after out exception, first = .ok ⟨after, out, some exception⟩ ∧
      ending = ⟨after, out, some exception⟩) ∨
    ∃ middle out last, first = .ok ⟨middle, out, none⟩ ∧
      next middle = .ok last ∧ last.behind out = ending := by
  cases first with
  | error stop => cases ends
  | ok before =>
      obtain ⟨config, out, raised⟩ := before
      cases raised with
      | some exception =>
          exact .inl ⟨config, out, exception, rfl, (Except.ok.inj ends).symm⟩
      | none =>
          obtain ⟨last, ran, same⟩ := Answer.map_eq_ok ends
          exact .inr ⟨config, out, last, rfl, ran, same⟩

theorem Answer.putBack_eq_ok {frame : φ} {answer : Answer κ ω ε φ}
    {ending : Ending κ ω ε φ} (ends : answer.putBack frame = .ok ending) :
    (∃ after out exception, answer = .ok ⟨after, out, some exception⟩ ∧
      ending = ⟨after, out, some exception⟩) ∨
    ∃ after out, answer = .ok ⟨after, out, none⟩ ∧
      ending = Ending.putBack frame ⟨after, out, none⟩ := by
  cases answer with
  | error stop => cases ends
  | ok before =>
      obtain ⟨after, out, raised⟩ := before
      cases raised with
      | none => exact .inr ⟨after, out, rfl, (Except.ok.inj ends).symm⟩
      | some exception =>
          exact .inl ⟨after, out, exception, rfl, (Except.ok.inj ends).symm⟩

theorem withValue_eq_ok {expr : Expr κ ω ε} {config : Config κ ω φ}
    {next : List ω → Answer κ ω ε φ} {ending : Ending κ ω ε φ}
    (ends : withValue expr next config = .ok ending) :
    (∃ exception, expr config.store = some (.error exception) ∧
      ending = ⟨config, [], some exception⟩) ∨
    ∃ value, expr config.store = some (.ok value) ∧
      next value = .ok ending := by
  unfold withValue at ends
  split at ends
  · cases ends
  · exact .inl ⟨_, ‹_›, (Except.ok.inj ends).symm⟩
  · exact .inr ⟨_, ‹_›, ends⟩

/-- A loop that runs once more within a budget. -/
theorem iterate_again {test : Expr κ ω ε} {holds : List ω → Bool}
    {body : Config κ ω φ → Answer κ ω ε φ} {config middle : Config κ ω φ}
    {value out : List ω} {ending : Ending κ ω ε φ} {budget : Nat}
    (tested : test config.store = some (.ok value))
    (again : holds value = true)
    (ran : body config = .ok ⟨middle, out, none⟩)
    (others : iterate test holds body budget middle = .ok ending) :
    iterate test holds body (budget + 1) config = .ok (ending.behind out) := by
  rw [iterate, withValue, tested]
  simp only [again, if_true, ran, Answer.andThen, others]
  rfl

/-! ## Answers that are not stuck -/

/-- The answer is not that the statement is stuck, and the frames it leaves
are of the given kind. -/
def Answer.Safe (frames : φ → Prop) : Answer κ ω ε φ → Prop
  | .ok ending => ∀ frame ∈ ending.config.frames, frames frame
  | .error .timeout => True
  | .error .stuck => False

section Safe

variable {frames : φ → Prop}

theorem Answer.Safe.map {answer : Answer κ ω ε φ} (safe : answer.Safe frames)
    {change : Ending κ ω ε φ → Ending κ ω ε φ}
    (kept : ∀ ending, ∀ frame ∈ (change ending).config.frames,
      frame ∈ ending.config.frames) :
    Answer.Safe frames (answer.map change) := by
  cases answer with
  | error stop => exact safe
  | ok ending => exact fun frame member => safe frame (kept ending frame member)

theorem Answer.Safe.andThen {first : Answer κ ω ε φ}
    {next : Config κ ω φ → Answer κ ω ε φ} (safe : first.Safe frames)
    (rest : ∀ config, (∀ frame ∈ config.frames, frames frame) →
      (next config).Safe frames) :
    (first.andThen next).Safe frames := by
  cases first with
  | error stop => exact safe
  | ok ending =>
      obtain ⟨config, out, raised⟩ := ending
      cases raised with
      | none => exact (rest config safe).map fun _ _ member => member
      | some exception => exact safe

theorem Answer.Safe.putBack {answer : Answer κ ω ε φ}
    (safe : answer.Safe frames) {frame : φ} (kind : frames frame) :
    (answer.putBack frame).Safe frames := by
  cases answer with
  | error stop => exact safe
  | ok ending =>
      obtain ⟨config, out, raised⟩ := ending
      cases raised with
      | none => exact List.forall_mem_cons.mpr ⟨kind, safe⟩
      | some exception => exact safe

theorem withValue_safe {expr : Expr κ ω ε} {next : List ω → Answer κ ω ε φ}
    {config : Config κ ω φ} (meant : (expr config.store).isSome = true)
    (kind : ∀ frame ∈ config.frames, frames frame)
    (rest : ∀ value, expr config.store = some (.ok value) →
      (next value).Safe frames) :
    (withValue expr next config).Safe frames := by
  unfold withValue
  split
  next nothing =>
      rw [nothing] at meant
      cases meant
  next => exact kind
  next value same => exact rest value same

theorem iterate_safe {test : Expr κ ω ε} {holds : List ω → Bool}
    {body : Config κ ω φ → Answer κ ω ε φ}
    (meant : ∀ store, (test store).isSome = true)
    (step : ∀ config, (∀ frame ∈ config.frames, frames frame) →
      (body config).Safe frames)
    (budget : Nat) {config : Config κ ω φ}
    (kind : ∀ frame ∈ config.frames, frames frame) :
    (iterate test holds body budget config).Safe frames := by
  induction budget generalizing config with
  | zero => exact trivial
  | succ budget induction =>
      apply withValue_safe (meant _) kind
      intro value _
      cases holds value with
      | false => exact kind
      | true => exact (step config kind).andThen fun _ kind => induction kind

end Safe

section Computing

variable [DecidableEq κ]

/-- The binding of a name as it was in another store. -/
def Store.restore (name : κ) (before store : Store κ ω) : Store κ ω :=
  match before.lookup name with
  | some value => store.insert name value
  | none => store.erase name

def Config.declare (name : κ) (value : List ω) (config : Config κ ω φ) :
    Config κ ω φ :=
  { config with store := config.store.insert name value }

def Ending.restore (name : κ) (before : Config κ ω φ)
    (ending : Ending κ ω ε φ) : Ending κ ω ε φ :=
  { ending with config := { ending.config with
      store := Store.restore name before.store ending.config.store } }

/-- What a statement does, with a meaning for calls and a budget for loops. -/
def eval (call : π → Config κ ω φ → Answer κ ω ε φ) (budget : Nat) :
    Stmt κ ω ε φ π → Config κ ω φ → Answer κ ω ε φ
  | .write text, config => .ok ⟨config, text, none⟩
  | .seq first second, config =>
      (eval call budget first config).andThen (eval call budget second)
  | .compute expr next, config =>
      withValue expr (fun value => eval call budget (next value) config) config
  | .capture body next, config =>
      match eval call budget body config with
      | .ok ⟨after, out, none⟩ => eval call budget (next out) after
      | .ok ending => .ok ending.silent
      | .error stop => .error stop
  | .assign name value unbound, config =>
      if (config.store.lookup name).isSome then
        .ok ⟨config.declare name value, [], none⟩
      else .ok ⟨config, [], some unbound⟩
  | .declare name value body, config =>
      (eval call budget body (config.declare name value)).map
        (Ending.restore name config)
  | .rescue body catches handler, config =>
      match eval call budget body config with
      | .ok ⟨after, out, some exception⟩ =>
          if catches exception then
            (eval call budget (handler exception) after).map (Ending.behind out)
          else .ok ⟨after, out, some exception⟩
      | other => other
  | .throw exception, config => .ok ⟨config, [], some exception⟩
  | .loop test holds body, config =>
      iterate test holds (eval call budget body) budget config
  | .enter frame body, config =>
      (eval call budget body
        { config with frames := frame :: config.frames }).map Ending.leave
  | .slot body, config =>
      match config.frames with
      | [] => .ok ⟨config, [], none⟩
      | frame :: frames =>
          (eval call budget (body frame) { config with frames }).putBack frame
  | .invoke procedure, config => call procedure config
  | .stuck, _ => .error .stuck

/-- A call of a procedure, with a bound for the depth of nested calls. -/
def run (table : π → Stmt κ ω ε φ π) :
    Nat → π → Config κ ω φ → Answer κ ω ε φ
  | 0, _, _ => .error .timeout
  | depth + 1, procedure, config =>
      eval (run table depth) depth (table procedure) config

/-! ## The meaning without bounds -/

/-- How a statement ends when it is run in a configuration. -/
inductive Exec (table : π → Stmt κ ω ε φ π) :
    Stmt κ ω ε φ π → Config κ ω φ → Ending κ ω ε φ → Prop
  | write {text config} : Exec table (.write text) config ⟨config, text, none⟩
  | seqThen {first second config middle out ending} :
      Exec table first config ⟨middle, out, none⟩ →
      Exec table second middle ending →
      Exec table (.seq first second) config (ending.behind out)
  | seqRaise {first second config after out exception} :
      Exec table first config ⟨after, out, some exception⟩ →
      Exec table (.seq first second) config ⟨after, out, some exception⟩
  | computeThen {expr next config value ending} :
      expr config.store = some (.ok value) →
      Exec table (next value) config ending →
      Exec table (.compute expr next) config ending
  | computeRaise {expr next config exception} :
      expr config.store = some (.error exception) →
      Exec table (.compute expr next) config ⟨config, [], some exception⟩
  | captureThen {body next config middle out ending} :
      Exec table body config ⟨middle, out, none⟩ →
      Exec table (next out) middle ending →
      Exec table (.capture body next) config ending
  | captureRaise {body next config after out exception} :
      Exec table body config ⟨after, out, some exception⟩ →
      Exec table (.capture body next) config ⟨after, [], some exception⟩
  | assignBound {name value unbound} {config : Config κ ω φ} :
      (config.store.lookup name).isSome = true →
      Exec table (.assign name value unbound) config
        ⟨config.declare name value, [], none⟩
  | assignUnbound {name value unbound} {config : Config κ ω φ} :
      (config.store.lookup name).isSome = false →
      Exec table (.assign name value unbound) config
        ⟨config, [], some unbound⟩
  | declare {name value body ending} {config : Config κ ω φ} :
      Exec table body (config.declare name value) ending →
      Exec table (.declare name value body) config (ending.restore name config)
  | rescueFine {body catches handler config after out} :
      Exec table body config ⟨after, out, none⟩ →
      Exec table (.rescue body catches handler) config ⟨after, out, none⟩
  | rescuePass {body catches handler config after out exception} :
      Exec table body config ⟨after, out, some exception⟩ →
      catches exception = false →
      Exec table (.rescue body catches handler) config
        ⟨after, out, some exception⟩
  | rescueCatch {body catches handler config middle out exception ending} :
      Exec table body config ⟨middle, out, some exception⟩ →
      catches exception = true →
      Exec table (handler exception) middle ending →
      Exec table (.rescue body catches handler) config (ending.behind out)
  | throw {exception config} :
      Exec table (.throw exception) config ⟨config, [], some exception⟩
  | loopEnd {test holds body config value} :
      test config.store = some (.ok value) → holds value = false →
      Exec table (.loop test holds body) config ⟨config, [], none⟩
  | loopRaise {test holds body config exception} :
      test config.store = some (.error exception) →
      Exec table (.loop test holds body) config ⟨config, [], some exception⟩
  | loopAgain {test holds body config value middle out ending} :
      test config.store = some (.ok value) → holds value = true →
      Exec table body config ⟨middle, out, none⟩ →
      Exec table (.loop test holds body) middle ending →
      Exec table (.loop test holds body) config (ending.behind out)
  | loopBreak {test holds body config value after out exception} :
      test config.store = some (.ok value) → holds value = true →
      Exec table body config ⟨after, out, some exception⟩ →
      Exec table (.loop test holds body) config ⟨after, out, some exception⟩
  | enter {frame body config ending} :
      Exec table body { config with frames := frame :: config.frames } ending →
      Exec table (.enter frame body) config ending.leave
  | slotNone {body config} : config.frames = [] →
      Exec table (.slot body) config ⟨config, [], none⟩
  | slotFine {body config frame frames after out} :
      config.frames = frame :: frames →
      Exec table (body frame) { config with frames } ⟨after, out, none⟩ →
      Exec table (.slot body) config (Ending.putBack frame ⟨after, out, none⟩)
  | slotRaise {body config frame frames after out exception} :
      config.frames = frame :: frames →
      Exec table (body frame) { config with frames }
        ⟨after, out, some exception⟩ →
      Exec table (.slot body) config ⟨after, out, some exception⟩
  | invoke {procedure config ending} :
      Exec table (table procedure) config ending →
      Exec table (.invoke procedure) config ending

/-! ## The bounds do not matter -/

/-- More depth and more budget do not change an ending. -/
theorem eval_below {call other : π → Config κ ω φ → Answer κ ω ε φ}
    (calls : ∀ procedure config,
      (call procedure config).Below (other procedure config))
    {budget more : Nat} (enough : budget ≤ more) (stmt : Stmt κ ω ε φ π)
    (config : Config κ ω φ) :
    (eval call budget stmt config).Below (eval other more stmt config) := by
  induction stmt generalizing config with
  | write text => exact .refl _
  | seq first second one two => exact (one config).andThen two
  | compute expr next induction =>
      exact withValue_below fun value => induction value config
  | capture body next bodyBelow induction =>
      intro ending same
      rw [eval] at same ⊢
      cases answer : eval call budget body config with
      | error stop =>
          rw [answer] at same
          cases same
      | ok middle =>
          rw [answer] at same
          rw [bodyBelow config middle answer]
          obtain ⟨after, out, raised⟩ := middle
          cases raised with
          | none => exact induction out after ending same
          | some exception => exact same
  | assign name value unbound => exact .refl _
  | declare name value body induction => exact (induction _).map _
  | rescue body catches handler bodyBelow induction =>
      intro ending same
      rw [eval] at same ⊢
      cases answer : eval call budget body config with
      | error stop =>
          rw [answer] at same
          cases same
      | ok middle =>
          rw [answer] at same
          rw [bodyBelow config middle answer]
          obtain ⟨after, out, raised⟩ := middle
          cases raised with
          | none => exact same
          | some exception =>
              simp only at same ⊢
              by_cases caught : catches exception = true
              · rw [if_pos caught] at same ⊢
                exact (induction exception after).map _ ending same
              · rw [if_neg caught] at same ⊢
                exact same
  | throw exception => exact .refl _
  | loop test holds body induction =>
      exact iterate_below induction enough config
  | enter frame body induction => exact (induction _).map _
  | slot body induction =>
      intro ending same
      rw [eval] at same ⊢
      cases frames : config.frames with
      | nil =>
          rw [frames] at same
          exact same
      | cons frame rest =>
          rw [frames] at same
          exact (induction frame _).putBack frame ending same
  | invoke procedure => exact calls procedure config
  | stuck => exact .refl _

theorem run_below (table : π → Stmt κ ω ε φ π) {depth more : Nat}
    (enough : depth ≤ more) (procedure : π) (config : Config κ ω φ) :
    (run table depth procedure config).Below
      (run table more procedure config) := by
  induction depth generalizing more procedure config with
  | zero => exact Answer.below_error _ _
  | succ depth induction =>
      cases more with
      | zero => exact absurd enough (Nat.not_succ_le_zero _)
      | succ more =>
          exact eval_below (induction (Nat.le_of_succ_le_succ enough))
            (Nat.le_of_succ_le_succ enough) _ config

/-- What a statement does with the same bound for calls and loops. -/
def within (table : π → Stmt κ ω ε φ π) (bound : Nat) (stmt : Stmt κ ω ε φ π)
    (config : Config κ ω φ) : Answer κ ω ε φ :=
  eval (run table bound) bound stmt config

theorem within_below (table : π → Stmt κ ω ε φ π) {bound more : Nat}
    (enough : bound ≤ more) (stmt : Stmt κ ω ε φ π) (config : Config κ ω φ) :
    (within table bound stmt config).Below (within table more stmt config) :=
  eval_below (run_below table enough) enough stmt config

/-! ## What ends within bounds ends -/

/-- A loop that ends within a budget ends. -/
theorem exec_iterate {table : π → Stmt κ ω ε φ π} {test : Expr κ ω ε}
    {holds : List ω → Bool} {body : Stmt κ ω ε φ π}
    {step : Config κ ω φ → Answer κ ω ε φ}
    (runs : ∀ config ending, step config = .ok ending →
      Exec table body config ending)
    {budget : Nat} {config : Config κ ω φ} {ending : Ending κ ω ε φ}
    (ends : iterate test holds step budget config = .ok ending) :
    Exec table (.loop test holds body) config ending := by
  induction budget generalizing config ending with
  | zero => cases ends
  | succ budget induction =>
      rcases withValue_eq_ok ends with
        ⟨exception, value, rfl⟩ | ⟨text, value, ends⟩
      · exact .loopRaise value
      · cases again : holds text with
        | false =>
            rw [again, if_neg Bool.false_ne_true] at ends
            cases ends
            exact .loopEnd value again
        | true =>
            rw [again, if_pos rfl] at ends
            rcases Answer.andThen_eq_ok ends with
              ⟨after, out, exception, ran, rfl⟩ |
                ⟨middle, out, last, ran, others, rfl⟩
            · exact .loopBreak value again (runs _ _ ran)
            · exact .loopAgain value again (runs _ _ ran) (induction others)

/-- What ends within bounds ends. -/
theorem exec_eval {table : π → Stmt κ ω ε φ π}
    {call : π → Config κ ω φ → Answer κ ω ε φ}
    (calls : ∀ procedure config ending,
      call procedure config = .ok ending →
        Exec table (table procedure) config ending)
    {budget : Nat} {stmt : Stmt κ ω ε φ π} {config : Config κ ω φ}
    {ending : Ending κ ω ε φ}
    (ends : eval call budget stmt config = .ok ending) :
    Exec table stmt config ending := by
  induction stmt generalizing config ending with
  | write text =>
      cases ends
      exact .write
  | seq first second one two =>
      rcases Answer.andThen_eq_ok ends with
        ⟨after, out, exception, ran, rfl⟩ |
          ⟨middle, out, last, ran, others, rfl⟩
      · exact .seqRaise (one ran)
      · exact .seqThen (one ran) (two others)
  | compute expr next induction =>
      rcases withValue_eq_ok ends with
        ⟨exception, value, rfl⟩ | ⟨text, value, ends⟩
      · exact .computeRaise value
      · exact .computeThen value (induction text ends)
  | capture body next inner induction =>
      rw [eval] at ends
      split at ends
      case h_1 after out ran =>
        exact .captureThen (inner ran) (induction out ends)
      case h_2 middle fine ran =>
        obtain ⟨after, out, raised⟩ := middle
        cases raised with
        | none => exact absurd rfl (fine after out)
        | some exception =>
            cases ends
            exact .captureRaise (inner ran)
      case h_3 => cases ends
  | assign name value unbound =>
      rw [eval] at ends
      cases bound : (config.store.lookup name).isSome with
      | false =>
          rw [bound, if_neg Bool.false_ne_true] at ends
          cases ends
          exact .assignUnbound bound
      | true =>
          rw [bound, if_pos rfl] at ends
          cases ends
          exact .assignBound bound
  | declare name value body induction =>
      obtain ⟨middle, ran, rfl⟩ := Answer.map_eq_ok ends
      exact .declare (induction ran)
  | rescue body catches handler inner induction =>
      rw [eval] at ends
      split at ends
      case h_1 after out exception ran =>
        cases caught : catches exception with
        | false =>
            rw [caught, if_neg Bool.false_ne_true] at ends
            cases ends
            exact .rescuePass (inner ran) caught
        | true =>
            rw [caught, if_pos rfl] at ends
            obtain ⟨last, others, rfl⟩ := Answer.map_eq_ok ends
            exact .rescueCatch (inner ran) caught (induction exception others)
      case h_2 fine =>
        obtain ⟨after, out, raised⟩ := ending
        cases raised with
        | none => exact .rescueFine (inner ends)
        | some exception => exact absurd ends (fine after out exception)
  | throw exception =>
      cases ends
      exact .throw
  | loop test holds body induction =>
      exact exec_iterate (fun _ _ same => induction same) ends
  | enter frame body induction =>
      obtain ⟨middle, ran, rfl⟩ := Answer.map_eq_ok ends
      exact .enter (induction ran)
  | slot body induction =>
      rw [eval] at ends
      split at ends
      case h_1 frames =>
        cases ends
        exact .slotNone frames
      case h_2 frame rest frames =>
        rcases Answer.putBack_eq_ok ends with
          ⟨after, out, exception, ran, rfl⟩ | ⟨after, out, ran, rfl⟩
        · exact .slotRaise frames (induction frame ran)
        · exact .slotFine frames (induction frame ran)
  | invoke procedure => exact .invoke (calls procedure config ending ends)
  | stuck => cases ends

theorem exec_run {table : π → Stmt κ ω ε φ π} {depth : Nat} {procedure : π}
    {config : Config κ ω φ} {ending : Ending κ ω ε φ}
    (ends : run table depth procedure config = .ok ending) :
    Exec table (table procedure) config ending := by
  induction depth generalizing procedure config ending with
  | zero => cases ends
  | succ depth induction => exact exec_eval (fun _ _ _ => induction) ends

/-! ## What ends, ends within bounds -/

/-- Two statements that end within bounds do so within a common one. -/
theorem within_common {table : π → Stmt κ ω ε φ π} {one two : Nat}
    {first second : Stmt κ ω ε φ π} {config middle : Config κ ω φ}
    {ending last : Ending κ ω ε φ}
    (ran : within table one first config = .ok ending)
    (others : within table two second middle = .ok last) :
    ∃ bound, within table bound first config = .ok ending ∧
      within table bound second middle = .ok last :=
  ⟨max one two,
    within_below table (le_max_left one two) first config ending ran,
    within_below table (le_max_right one two) second middle last others⟩

/-- A statement that ends does so within some bound. -/
theorem Exec.within {table : π → Stmt κ ω ε φ π} {stmt : Stmt κ ω ε φ π}
    {config : Config κ ω φ} {ending : Ending κ ω ε φ}
    (exec : Exec table stmt config ending) :
    ∃ bound, Language.within table bound stmt config = .ok ending := by
  induction exec with
  | write => exact ⟨0, rfl⟩
  | seqThen _ _ one two =>
      obtain ⟨first, ran⟩ := one
      obtain ⟨second, others⟩ := two
      obtain ⟨bound, ran, others⟩ := within_common ran others
      refine ⟨bound, ?_⟩
      simp only [Language.within, eval] at ran others ⊢
      simp only [ran, Answer.andThen, others]
      rfl
  | seqRaise _ one =>
      obtain ⟨bound, ran⟩ := one
      refine ⟨bound, ?_⟩
      simp only [Language.within, eval] at ran ⊢
      simp only [ran, Answer.andThen]
  | computeThen value _ one =>
      obtain ⟨bound, ran⟩ := one
      refine ⟨bound, ?_⟩
      simpa only [Language.within, eval, withValue, value] using ran
  | computeRaise value =>
      exact ⟨0, by simp only [Language.within, eval, withValue, value]⟩
  | captureThen _ _ one two =>
      obtain ⟨first, ran⟩ := one
      obtain ⟨second, others⟩ := two
      obtain ⟨bound, ran, others⟩ := within_common ran others
      refine ⟨bound, ?_⟩
      simp only [Language.within, eval] at ran others ⊢
      simp only [ran, others]
  | captureRaise _ one =>
      obtain ⟨bound, ran⟩ := one
      refine ⟨bound, ?_⟩
      simp only [Language.within, eval] at ran ⊢
      simp only [ran]
      rfl
  | assignBound bound =>
      exact ⟨0, by simp only [Language.within, eval, bound, if_true]⟩
  | assignUnbound unbound =>
      exact ⟨0, by simp [Language.within, eval, unbound]⟩
  | declare _ one =>
      obtain ⟨bound, ran⟩ := one
      refine ⟨bound, ?_⟩
      simp only [Language.within, eval] at ran ⊢
      simp only [ran]
      rfl
  | rescueFine _ one =>
      obtain ⟨bound, ran⟩ := one
      refine ⟨bound, ?_⟩
      simp only [Language.within, eval] at ran ⊢
      simp only [ran]
  | rescuePass _ passed one =>
      obtain ⟨bound, ran⟩ := one
      refine ⟨bound, ?_⟩
      simp only [Language.within, eval] at ran ⊢
      simp [ran, passed]
  | rescueCatch _ caught _ one two =>
      obtain ⟨first, ran⟩ := one
      obtain ⟨second, others⟩ := two
      obtain ⟨bound, ran, others⟩ := within_common ran others
      refine ⟨bound, ?_⟩
      simp only [Language.within, eval] at ran others ⊢
      simp only [ran, caught, if_true, others]
      rfl
  | throw => exact ⟨0, rfl⟩
  | loopEnd value ended =>
      exact ⟨1, by simp [Language.within, eval, iterate, withValue, value, ended]⟩
  | loopRaise value =>
      exact ⟨1, by simp only [Language.within, eval, iterate, withValue, value]⟩
  | @loopAgain test holds body config value middle out ending tested again
      _ _ one two =>
      obtain ⟨first, ran⟩ := one
      obtain ⟨second, others⟩ := two
      obtain ⟨bound, ran, others⟩ := within_common ran others
      refine ⟨bound + 1, ?_⟩
      -- the rest of the loop ran within a budget of its own
      have more := within_below table (Nat.le_succ bound)
      have rest : ∀ config, (eval (run table bound) bound body config).Below
          (eval (run table (bound + 1)) (bound + 1) body config) := more body
      exact iterate_again tested again (more body config _ ran)
        (iterate_below rest (le_refl bound) middle _ others)
  | @loopBreak test holds body config value after out exception tested again
      _ one =>
      obtain ⟨bound, ran⟩ := one
      refine ⟨bound + 1, ?_⟩
      have more := within_below table (Nat.le_succ bound) body config _ ran
      simp only [Language.within] at more
      simp only [Language.within, eval, iterate, withValue, tested, again,
        if_true, more, Answer.andThen]
  | enter _ one =>
      obtain ⟨bound, ran⟩ := one
      refine ⟨bound, ?_⟩
      simp only [Language.within, eval] at ran ⊢
      simp only [ran]
      rfl
  | slotNone frames =>
      exact ⟨0, by simp only [Language.within, eval, frames]⟩
  | slotFine frames _ one =>
      obtain ⟨bound, ran⟩ := one
      refine ⟨bound, ?_⟩
      simp only [Language.within, eval, frames] at ran ⊢
      simp only [ran, Answer.putBack]
  | slotRaise frames _ one =>
      obtain ⟨bound, ran⟩ := one
      refine ⟨bound, ?_⟩
      simp only [Language.within, eval, frames] at ran ⊢
      simp only [ran, Answer.putBack]
  | invoke _ one =>
      obtain ⟨bound, ran⟩ := one
      refine ⟨bound + 1, ?_⟩
      have more := within_below table (Nat.le_succ bound) _ _ _ ran
      simpa only [Language.within, eval, run] using ran

/-- A statement ends in one way only. -/
theorem Exec.unique {table : π → Stmt κ ω ε φ π} {stmt : Stmt κ ω ε φ π}
    {config : Config κ ω φ} {ending other : Ending κ ω ε φ}
    (one : Exec table stmt config ending)
    (two : Exec table stmt config other) : ending = other := by
  obtain ⟨first, ran⟩ := one.within
  obtain ⟨second, others⟩ := two.within
  obtain ⟨bound, ran, others⟩ := within_common ran others
  rw [ran] at others
  cases others
  rfl

/-- A loop whose rounds keep an invariant of the text and the configuration,
and make the measure smaller, ends with the invariant and without the test. -/
theorem Exec.loop_total {table : π → Stmt κ ω ε φ π} {test : Expr κ ω ε}
    {holds : List ω → Bool} {body : Stmt κ ω ε φ π}
    {invariant : List ω → Config κ ω φ → Prop} (measure : Config κ ω φ → Nat)
    (tested : ∀ out config, invariant out config →
      ∃ value, test config.store = some (.ok value))
    (round : ∀ out config value, invariant out config →
      test config.store = some (.ok value) → holds value = true →
        ∃ after text, Exec table body config ⟨after, text, none⟩ ∧
          invariant (out ++ text) after ∧ measure after < measure config)
    {out : List ω} {config : Config κ ω φ} (begins : invariant out config) :
    ∃ after text value, Exec table (.loop test holds body) config
        ⟨after, text, none⟩ ∧
      invariant (out ++ text) after ∧
      test after.store = some (.ok value) ∧ holds value = false := by
  obtain ⟨value, known⟩ := tested out config begins
  cases again : holds value with
  | false =>
      refine ⟨config, [], value, .loopEnd known again, ?_, known, again⟩
      rw [List.append_nil]
      exact begins
  | true =>
      obtain ⟨middle, text, ran, kept, smaller⟩ :=
        round out config value begins known again
      obtain ⟨after, rest, last, others, ends, ended⟩ :=
        Exec.loop_total measure tested round kept
      refine ⟨after, text ++ rest, last, .loopAgain known again ran others, ?_,
        ended⟩
      rw [← List.append_assoc]
      exact ends
termination_by measure config

/-! ## Statements that do not get stuck -/

/-- Every expression has a meaning and every call is one of the given
procedures, when the frames are of the given kind. -/
def Stmt.Safe (procedures : π → Prop) (frames : φ → Prop) :
    Stmt κ ω ε φ π → Prop
  | .write _ => True
  | .seq first second =>
      first.Safe procedures frames ∧ second.Safe procedures frames
  | .compute expr next =>
      (∀ store, (expr store).isSome = true) ∧
        ∀ store value, expr store = some (.ok value) →
          (next value).Safe procedures frames
  | .capture body next =>
      body.Safe procedures frames ∧
        ∀ out, (next out).Safe procedures frames
  | .assign _ _ _ => True
  | .declare _ _ body => body.Safe procedures frames
  | .rescue body _ handler =>
      body.Safe procedures frames ∧
        ∀ exception, (handler exception).Safe procedures frames
  | .throw _ => True
  | .loop test _ body =>
      (∀ store, (test store).isSome = true) ∧ body.Safe procedures frames
  | .enter frame body => frames frame ∧ body.Safe procedures frames
  | .slot body => ∀ frame, frames frame → (body frame).Safe procedures frames
  | .invoke procedure => procedures procedure
  | .stuck => False

section Safety

variable {procedures : π → Prop} {frames : φ → Prop}

/-- A statement that can only call procedures that do not get stuck does not
get stuck. -/
theorem eval_safe {call : π → Config κ ω φ → Answer κ ω ε φ}
    (calls : ∀ procedure config, procedures procedure →
      (∀ frame ∈ config.frames, frames frame) →
        (call procedure config).Safe frames)
    (budget : Nat) {stmt : Stmt κ ω ε φ π}
    (safe : stmt.Safe procedures frames) {config : Config κ ω φ}
    (kind : ∀ frame ∈ config.frames, frames frame) :
    (eval call budget stmt config).Safe frames := by
  induction stmt generalizing config with
  | write text => exact kind
  | seq first second one two =>
      exact (one safe.1 kind).andThen fun _ kind => two safe.2 kind
  | compute expr next induction =>
      exact withValue_safe (safe.1 _) kind fun value same =>
        induction value (safe.2 _ value same) kind
  | capture body next inner induction =>
      have ran := inner safe.1 kind
      rw [eval]
      split
      next after out same =>
          rw [same] at ran
          exact induction out (safe.2 out) ran
      next ending _ same =>
          rw [same] at ran
          exact ran
      next stop same =>
          rw [same] at ran
          exact ran
  | assign name value unbound =>
      rw [eval]
      split
      · exact kind
      · exact kind
  | declare name value body induction =>
      have ran := @induction safe (config.declare name value) kind
      exact ran.map fun _ _ member => member
  | rescue body catches handler inner induction =>
      have ran := inner safe.1 kind
      rw [eval]
      split
      next after out exception same =>
          rw [same] at ran
          split
          · exact (induction exception (safe.2 exception) ran).map
              fun _ _ member => member
          · exact ran
      next => exact ran
  | throw exception => exact kind
  | loop test holds body induction =>
      exact iterate_safe safe.1 (fun _ kind => induction safe.2 kind) budget kind
  | enter frame body induction =>
      apply (induction safe.2 (List.forall_mem_cons.mpr ⟨safe.1, kind⟩)).map
      exact fun _ _ => List.mem_of_mem_tail
  | slot body induction =>
      rw [eval]
      split
      next => exact kind
      next frame rest same =>
          rw [same] at kind
          have ran := @induction frame
            (safe frame (kind frame List.mem_cons_self))
            { config with frames := rest } (List.forall_mem_cons.mp kind).2
          exact ran.putBack (kind frame List.mem_cons_self)
  | invoke procedure => exact calls procedure config safe kind
  | stuck => exact safe

/-- A call of a procedure does not get stuck when all procedures it can reach
are safe. -/
theorem run_safe {table : π → Stmt κ ω ε φ π}
    (safe : ∀ procedure, procedures procedure →
      (table procedure).Safe procedures frames)
    (depth : Nat) {procedure : π} (reached : procedures procedure)
    {config : Config κ ω φ} (kind : ∀ frame ∈ config.frames, frames frame) :
    (run table depth procedure config).Safe frames := by
  induction depth generalizing procedure config with
  | zero => exact trivial
  | succ depth induction =>
      apply eval_safe _ depth (safe procedure reached) kind
      exact fun _ _ reached kind => induction reached kind

end Safety

end Computing

end Language
