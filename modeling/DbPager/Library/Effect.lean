import Mathlib.Logic.Basic

/-!
# Programs with state, output and exceptions

A program reads and changes a state, appends to an output stream, and ends
with a value, with an exception, or without any continuation at all.  State
and output survive an exception; only an explicit capture discards output.

The second half is a small logic of relational contracts.  A contract
relates the state before a program to the state after it, once for programs
that come to an end and once for programs that halt half-way.
-/

namespace Effect

/-- Why a program has no continuation: its step budget is used up, or the
program it models has no defined behaviour from here on. -/
inductive Halt where
  | timeout
  | fault
  deriving DecidableEq, Repr

inductive Outcome (ε α : Type) where
  | value (result : α)
  | error (exception : ε)
  | halt (reason : Halt)
  deriving DecidableEq, Repr

namespace Outcome

variable {ε α : Type}

/-- The program came to an end, normally or by an exception. -/
def Finished : Outcome ε α → Prop
  | .value _ => True
  | .error _ => True
  | .halt _ => False

instance : (outcome : Outcome ε α) → Decidable outcome.Finished
  | .value _ => .isTrue trivial
  | .error _ => .isTrue trivial
  | .halt _ => .isFalse id

protected def bind {β : Type} (first : Outcome ε α) (next : α → Outcome ε β) :
    Outcome ε β :=
  match first with
  | .value result => next result
  | .error exception => .error exception
  | .halt reason => .halt reason

instance : Monad (Outcome ε) where
  pure := .value
  bind := Outcome.bind

@[simp] theorem value_bind {β : Type} (result : α) (next : α → Outcome ε β) :
    (Outcome.value result >>= next) = next result := rfl

@[simp] theorem error_bind {β : Type} (exception : ε)
    (next : α → Outcome ε β) :
    (Outcome.error exception >>= next) = .error exception := rfl

@[simp] theorem halt_bind {β : Type} (reason : Halt)
    (next : α → Outcome ε β) :
    (Outcome.halt reason >>= next) = .halt reason := rfl

theorem bind_eq_value {β : Type} {first : Outcome ε α}
    {next : α → Outcome ε β} {result : β} :
    (first >>= next) = .value result ↔
      ∃ middle, first = .value middle ∧ next middle = .value result := by
  cases first <;> simp

end Outcome

structure Run (σ ε ω α : Type) where
  state : σ
  out : List ω
  outcome : Outcome ε α

/-- A program over states `σ`, exceptions `ε` and output symbols `ω`. -/
def Prog (σ ε ω α : Type) : Type :=
  σ → Run σ ε ω α

namespace Prog

variable {σ τ ε ω α β : Type}

protected def pure (result : α) : Prog σ ε ω α :=
  fun state => ⟨state, [], .value result⟩

protected def bind (first : Prog σ ε ω α) (next : α → Prog σ ε ω β) :
    Prog σ ε ω β := fun state =>
  match first state with
  | ⟨middle, out, .value result⟩ =>
      ⟨(next result middle).state, out ++ (next result middle).out,
        (next result middle).outcome⟩
  | ⟨middle, out, .error exception⟩ => ⟨middle, out, .error exception⟩
  | ⟨middle, out, .halt reason⟩ => ⟨middle, out, .halt reason⟩

instance : Monad (Prog σ ε ω) where
  pure := Prog.pure
  bind := Prog.bind

/-- Append to the output stream. -/
def emit (out : List ω) : Prog σ ε ω Unit :=
  fun state => ⟨state, out, .value ()⟩

def read (view : σ → α) : Prog σ ε ω α :=
  fun state => ⟨state, [], .value (view state)⟩

def modify (change : σ → σ) : Prog σ ε ω Unit :=
  fun state => ⟨change state, [], .value ()⟩

def throw (exception : ε) : Prog σ ε ω α :=
  fun state => ⟨state, [], .error exception⟩

def halt (reason : Halt) : Prog σ ε ω α :=
  fun state => ⟨state, [], .halt reason⟩

/-- A step whose result and outcome are computed from the state. -/
def act (step : σ → σ × Outcome ε α) : Prog σ ε ω α :=
  fun state => ⟨(step state).1, [], (step state).2⟩

def orThrow (exception : ε) : Option α → Prog σ ε ω α
  | some result => Prog.pure result
  | none => throw exception

/-- Run the handler when the body raises an exception.  What the body has
written stays written. -/
def tryCatch (body : Prog σ ε ω α) (handler : ε → Prog σ ε ω α) :
    Prog σ ε ω α := fun state =>
  match body state with
  | ⟨middle, out, .error exception⟩ =>
      ⟨(handler exception middle).state, out ++ (handler exception middle).out,
        (handler exception middle).outcome⟩
  | ⟨middle, out, .value result⟩ => ⟨middle, out, .value result⟩
  | ⟨middle, out, .halt reason⟩ => ⟨middle, out, .halt reason⟩

/-- Run the cleanup when the body raises an exception, then raise it again. -/
def onError (body : Prog σ ε ω α) (cleanup : Prog σ ε ω Unit) :
    Prog σ ε ω α :=
  body.tryCatch fun exception => cleanup >>= fun _ => throw exception

/-- Run the body if the condition holds. -/
def when (condition : Bool) (body : Prog σ ε ω Unit) : Prog σ ε ω Unit :=
  if condition then body else Prog.pure ()

/-- Run the body with an output stream of its own and return what it wrote.
An exception discards the stream. -/
def capture (body : Prog σ ε ω Unit) : Prog σ ε ω (List ω) := fun state =>
  match body state with
  | ⟨final, out, .value _⟩ => ⟨final, [], .value out⟩
  | ⟨final, _, .error exception⟩ => ⟨final, [], .error exception⟩
  | ⟨final, _, .halt reason⟩ => ⟨final, [], .halt reason⟩

/-- Run a body once for each item, in order. -/
def forEach (body : α → Prog σ ε ω Unit) : List α → Prog σ ε ω Unit
  | [] => Prog.pure ()
  | item :: items => body item >>= fun _ => forEach body items

/-- `while (test) body`, with a bound on the number of tests. -/
def whileLoop (test : Prog σ ε ω Bool) (body : Prog σ ε ω Unit) :
    Nat → Prog σ ε ω Unit
  | 0 => halt .timeout
  | budget + 1 => test >>= fun holds =>
      if holds then body >>= fun _ => whileLoop test body budget
      else Prog.pure ()

/-- Fetch items one by one and run the body for each, until there is none. -/
def whileSome (fetch : Prog σ ε ω (Option α)) (body : α → Prog σ ε ω Unit) :
    Nat → Prog σ ε ω Unit
  | 0 => halt .timeout
  | budget + 1 => fetch >>= fun
      | some item => body item >>= fun _ => whileSome fetch body budget
      | none => Prog.pure ()

/-- Use a program beside a private state it does not see. -/
def lift (body : Prog σ ε ω α) : Prog (σ × τ) ε ω α := fun state =>
  ⟨((body state.1).state, state.2), (body state.1).out, (body state.1).outcome⟩

/-- Give a program a private state, dropped when the program ends. -/
def within (initial : τ) (body : Prog (σ × τ) ε ω α) : Prog σ ε ω α :=
  fun state =>
    ⟨(body (state, initial)).state.1, (body (state, initial)).out,
      (body (state, initial)).outcome⟩

end Prog

namespace Prog

variable {σ ε ω α β : Type}

/-- The program, run from the state, ends as the postcondition says. -/
def Wp (program : Prog σ ε ω α) (state : σ)
    (post : Outcome ε α → σ → Prop) : Prop :=
  post (program state).outcome (program state).state

theorem Wp.mono {program : Prog σ ε ω α} {state : σ}
    {first second : Outcome ε α → σ → Prop} (holds : program.Wp state first)
    (implies : ∀ outcome final, first outcome final → second outcome final) :
    program.Wp state second :=
  implies _ _ holds

theorem wp_bind (first : Prog σ ε ω α) (next : α → Prog σ ε ω β) (state : σ)
    (post : Outcome ε β → σ → Prop) :
    (first >>= next).Wp state post ↔
      first.Wp state fun outcome middle =>
        match outcome with
        | .value result => (next result).Wp middle post
        | .error exception => post (.error exception) middle
        | .halt reason => post (.halt reason) middle := by
  change post (Prog.bind first next state).outcome
    (Prog.bind first next state).state ↔ _
  unfold Wp Prog.bind
  rcases first state with ⟨middle, out, outcome⟩
  cases outcome <;> exact Iff.rfl

theorem wp_modify_bind (change : σ → σ) (next : Unit → Prog σ ε ω β)
    (state : σ) (post : Outcome ε β → σ → Prop) :
    (modify change >>= next).Wp state post ↔
      (next ()).Wp (change state) post :=
  Iff.rfl

theorem wp_read_bind (view : σ → α) (next : α → Prog σ ε ω β) (state : σ)
    (post : Outcome ε β → σ → Prop) :
    (read view >>= next).Wp state post ↔
      (next (view state)).Wp state post :=
  Iff.rfl

theorem wp_tryCatch (body : Prog σ ε ω α) (handler : ε → Prog σ ε ω α)
    (state : σ) (post : Outcome ε α → σ → Prop) :
    (body.tryCatch handler).Wp state post ↔
      body.Wp state fun outcome middle =>
        match outcome with
        | .value result => post (.value result) middle
        | .error exception => (handler exception).Wp middle post
        | .halt reason => post (.halt reason) middle := by
  unfold Wp Prog.tryCatch
  rcases body state with ⟨middle, out, outcome⟩
  cases outcome <;> exact Iff.rfl

end Prog

namespace Prog

variable {σ τ ε ω α β : Type}

/-- A program that returns is followed by the rest. -/
theorem bind_eq {first : Prog σ ε ω α} {state middle : σ} {out : List ω}
    {result : α} (ran : first state = ⟨middle, out, .value result⟩)
    (next : α → Prog σ ε ω β) :
    (first >>= next) state =
      ⟨(next result middle).state, out ++ (next result middle).out,
        (next result middle).outcome⟩ := by
  change Prog.bind first next state = _
  unfold Prog.bind
  rw [ran]

theorem bind_error {first : Prog σ ε ω α} {state middle : σ} {out : List ω}
    {exception : ε} (ran : first state = ⟨middle, out, .error exception⟩)
    (next : α → Prog σ ε ω β) :
    (first >>= next) state = ⟨middle, out, .error exception⟩ := by
  change Prog.bind first next state = _
  unfold Prog.bind
  rw [ran]

theorem bind_halt {first : Prog σ ε ω α} {state middle : σ} {out : List ω}
    {reason : Halt} (ran : first state = ⟨middle, out, .halt reason⟩)
    (next : α → Prog σ ε ω β) :
    (first >>= next) state = ⟨middle, out, .halt reason⟩ := by
  change Prog.bind first next state = _
  unfold Prog.bind
  rw [ran]

theorem outcome_bind_error {first : Prog σ ε ω α} {state : σ}
    {exception : ε} (ran : (first state).outcome = .error exception)
    (next : α → Prog σ ε ω β) :
    ((first >>= next) state).outcome = .error exception := by
  cases whole : first state with
  | mk middle out outcome =>
      rw [whole] at ran
      simp only at ran
      subst ran
      rw [bind_error whole]

theorem outcome_bind_halt {first : Prog σ ε ω α} {state : σ}
    {reason : Halt} (ran : (first state).outcome = .halt reason)
    (next : α → Prog σ ε ω β) :
    ((first >>= next) state).outcome = .halt reason := by
  cases whole : first state with
  | mk middle out outcome =>
      rw [whole] at ran
      simp only at ran
      subst ran
      rw [bind_halt whole]

theorem outcome_map (program : Prog σ ε ω α) (change : α → β) (state : σ) :
    ((program >>= fun result => pure (change result)) state).outcome =
      (program state).outcome >>= fun result => .value (change result) := by
  cases ran : program state with
  | mk middle out outcome =>
      cases outcome with
      | value result => rw [bind_eq ran]; rfl
      | error exception => rw [bind_error ran]; rfl
      | halt reason => rw [bind_halt ran]; rfl

/-- A program that returns without output is followed by the rest. -/
theorem bind_silent {first : Prog σ ε ω α} {state middle : σ} {result : α}
    (ran : first state = ⟨middle, [], .value result⟩)
    (next : α → Prog σ ε ω β) :
    (first >>= next) state = next result middle :=
  bind_eq ran next

/-- A sequence that returns is made of two programs that return. -/
theorem of_bind_value {first : Prog σ ε ω α} {next : α → Prog σ ε ω β}
    {state final : σ} {out : List ω} {result : β}
    (ran : (first >>= next) state = ⟨final, out, .value result⟩) :
    ∃ (middle : σ) (value : α) (written rest : List ω),
      first state = ⟨middle, written, .value value⟩ ∧
        next value middle = ⟨final, rest, .value result⟩ ∧
        out = written ++ rest := by
  cases whole : first state with
  | mk middle written outcome =>
      cases outcome with
      | value value =>
          rw [bind_eq whole] at ran
          cases later : next value middle with
          | mk last rest ending =>
              rw [later] at ran
              cases ran
              exact ⟨middle, value, written, rest, rfl, later, rfl⟩
      | error exception => simp [bind_error whole] at ran
      | halt reason => simp [bind_halt whole] at ran

theorem tryCatch_eq {body : Prog σ ε ω α} {state middle : σ} {out : List ω}
    {result : α} (ran : body state = ⟨middle, out, .value result⟩)
    (handler : ε → Prog σ ε ω α) :
    body.tryCatch handler state = ⟨middle, out, .value result⟩ := by
  unfold Prog.tryCatch
  rw [ran]

theorem tryCatch_error {body : Prog σ ε ω α} {state middle : σ} {out : List ω}
    {exception : ε} (ran : body state = ⟨middle, out, .error exception⟩)
    (handler : ε → Prog σ ε ω α) :
    body.tryCatch handler state =
      ⟨(handler exception middle).state, out ++ (handler exception middle).out,
        (handler exception middle).outcome⟩ := by
  unfold Prog.tryCatch
  rw [ran]

theorem tryCatch_halt {body : Prog σ ε ω α} {state middle : σ} {out : List ω}
    {reason : Halt} (ran : body state = ⟨middle, out, .halt reason⟩)
    (handler : ε → Prog σ ε ω α) :
    body.tryCatch handler state = ⟨middle, out, .halt reason⟩ := by
  unfold Prog.tryCatch
  rw [ran]

/-- Only the run of the body matters to the handler. -/
theorem tryCatch_congr {body other : Prog σ ε ω α} {state start : σ}
    (same : body state = other start) (handler : ε → Prog σ ε ω α) :
    body.tryCatch handler state = other.tryCatch handler start := by
  unfold Prog.tryCatch
  rw [same]

theorem onError_eq {body : Prog σ ε ω α} {state middle : σ} {out : List ω}
    {result : α} (ran : body state = ⟨middle, out, .value result⟩)
    (cleanup : Prog σ ε ω Unit) :
    body.onError cleanup state = ⟨middle, out, .value result⟩ :=
  tryCatch_eq ran _

theorem onError_error {body : Prog σ ε ω α} {state middle : σ}
    {out : List ω} {exception : ε}
    (ran : body state = ⟨middle, out, .error exception⟩)
    (cleanup : Prog σ ε ω Unit) :
    body.onError cleanup state =
      ⟨(cleanup middle).state, out ++ (cleanup middle).out,
        (cleanup middle).outcome.bind fun _ => .error exception⟩ := by
  unfold onError
  rw [tryCatch_error ran]
  cases cleaned : cleanup middle with
  | mk last rest ending =>
      cases ending with
      | value result =>
          rw [bind_eq cleaned]
          simp [throw, Outcome.bind]
      | error raised =>
          rw [bind_error cleaned]
          rfl
      | halt reason =>
          rw [bind_halt cleaned]
          rfl

theorem capture_eq {body : Prog σ ε ω Unit} {state middle : σ} {out : List ω}
    (ran : body state = ⟨middle, out, .value ()⟩) :
    body.capture state = ⟨middle, [], .value out⟩ := by
  unfold Prog.capture
  rw [ran]

theorem outcome_capture_halt {body : Prog σ ε ω Unit} {state : σ}
    {reason : Halt} (ran : (body state).outcome = .halt reason) :
    (body.capture state).outcome = .halt reason := by
  unfold Prog.capture
  cases whole : body state with
  | mk middle out outcome =>
      rw [whole] at ran
      simp only at ran
      subst ran
      rfl

/-- A continuation that keeps a view of the state. -/
theorem view_bind {γ : Type} {view : σ → γ} {next : α → Prog σ ε ω β}
    (keeps : ∀ result state, view (next result state).state = view state)
    (first : Prog σ ε ω α) (state : σ) :
    view ((first >>= next) state).state = view (first state).state := by
  cases ran : first state with
  | mk middle out outcome =>
      cases outcome with
      | value result =>
          rw [bind_eq ran]
          exact keeps result middle
      | error exception => rw [bind_error ran]
      | halt reason => rw [bind_halt ran]

theorem view_onError {γ : Type} {view : σ → γ} {cleanup : Prog σ ε ω Unit}
    (keeps : ∀ state, view (cleanup state).state = view state)
    (body : Prog σ ε ω α) (state : σ) :
    view (body.onError cleanup state).state = view (body state).state := by
  unfold Prog.onError
  cases ran : body state with
  | mk middle out outcome =>
      cases outcome with
      | value result => rw [tryCatch_eq ran]
      | error exception =>
          rw [tryCatch_error ran]
          exact (view_bind (fun _ _ => rfl) cleanup middle).trans
            (keeps middle)
      | halt reason => rw [tryCatch_halt ran]

theorem within_eq {body : Prog (σ × τ) ε ω α} {state final : σ}
    {initial : τ} (last : τ) {out : List ω} {outcome : Outcome ε α}
    (ran : body (state, initial) = ⟨(final, last), out, outcome⟩) :
    body.within initial state = ⟨final, out, outcome⟩ := by
  unfold Prog.within
  rw [ran]

/-- The items are worked on one by one; what is written adds up. -/
theorem forEach_eq {body : α → Prog σ ε ω Unit} {state : σ}
    {output : α → List ω} {items : List α}
    (ran : ∀ item ∈ items, body item state = ⟨state, output item, .value ()⟩) :
    forEach body items state =
      ⟨state, (items.map output).flatten, .value ()⟩ := by
  induction items with
  | nil => rfl
  | cons item items induction =>
      have rest := induction fun later member => ran later (by simp [member])
      unfold forEach
      rw [bind_eq (ran item (by simp)), rest]
      rfl

theorem forEach_map (body : β → Prog σ ε ω Unit) (change : α → β)
    (items : List α) :
    forEach body (items.map change) =
      forEach (fun item => body (change item)) items := by
  induction items with
  | nil => rfl
  | cons item items induction =>
      unfold List.map forEach
      rw [induction]

theorem forEach_congr {body other : α → Prog σ ε ω Unit} {items : List α}
    (same : ∀ item ∈ items, body item = other item) :
    forEach body items = forEach other items := by
  induction items with
  | nil => rfl
  | cons item items induction =>
      unfold forEach
      rw [same item (by simp),
        induction fun later member => same later (by simp [member])]

/-- Each item has been worked on when the whole list has. -/
theorem of_forEach_value {body : α → Prog σ ε ω Unit} {items : List α}
    {state final : σ} {out : List ω}
    (ran : forEach body items state = ⟨final, out, .value ()⟩) :
    ∀ item ∈ items, ∃ before after written,
      body item before = ⟨after, written, .value ()⟩ := by
  induction items generalizing state out with
  | nil =>
      intro item member
      cases member
  | cons first items induction =>
      obtain ⟨middle, _, written, rest, here, later, _⟩ := of_bind_value ran
      intro item member
      rcases List.mem_cons.mp member with same | member
      · subst same
        exact ⟨state, middle, written, here⟩
      · exact induction later item member

theorem pure_bind (value : α) (next : α → Prog σ ε ω β) :
    (pure value >>= next : Prog σ ε ω β) = next value :=
  rfl

theorem bind_assoc {γ : Type} (first : Prog σ ε ω α)
    (second : α → Prog σ ε ω β) (third : β → Prog σ ε ω γ) :
    (first >>= second) >>= third =
      first >>= fun result => second result >>= third := by
  funext state
  cases ran : first state with
  | mk middle out outcome =>
      cases outcome with
      | value result =>
          cases next : second result middle with
          | mk final more outcome =>
              have both : (first >>= second) state =
                  ⟨final, out ++ more, outcome⟩ := by
                rw [bind_eq ran, next]
              rw [bind_eq ran]
              cases outcome with
              | value result =>
                  rw [bind_eq both, bind_eq next]
                  simp
              | error exception => rw [bind_error both, bind_error next]
              | halt reason => rw [bind_halt both, bind_halt next]
      | error exception =>
          rw [bind_error ran, bind_error (bind_error ran second)]
      | halt reason => rw [bind_halt ran, bind_halt (bind_halt ran second)]

/-- A loop that fetches the items of a list, as long as the body leaves the
rest of the list to be fetched. -/
theorem whileSome_eq {fetch : Prog σ ε ω (Option α)}
    {body : α → Prog σ ε ω Unit} (Remain : σ → List α → Prop)
    (fetches : ∀ state item items, Remain state (item :: items) →
      ∃ later, fetch state = ⟨later, [], .value (some item)⟩ ∧
        Remain later items)
    (stops : ∀ state, Remain state [] →
      ∃ later, fetch state = ⟨later, [], .value none⟩)
    (kept : ∀ item state items, Remain state items →
      Remain (body item state).state items)
    {items : List α} {budget : Nat} (enough : items.length < budget)
    {state : σ} (start : Remain state items) :
    whileSome fetch body budget state =
      (forEach (fun item => fetch >>= fun _ => body item) items >>= fun _ =>
        fetch >>= fun _ => pure ()) state := by
  induction items generalizing budget state with
  | nil =>
      obtain ⟨later, fetched⟩ := stops state start
      cases budget with
      | zero => cases enough
      | succ budget =>
          change (fetch >>= _) state = (fetch >>= fun _ => pure ()) state
          rw [bind_silent fetched, bind_silent fetched]
          rfl
  | cons item items induction =>
      obtain ⟨later, fetched, rest⟩ := fetches state item items start
      cases budget with
      | zero => cases enough
      | succ budget =>
          have fewer : items.length < budget := Nat.lt_of_succ_lt_succ enough
          have unrolled : forEach (fun item => fetch >>= fun _ => body item)
              (item :: items) >>= (fun _ => fetch >>= fun _ => pure ()) =
              (fetch >>= fun _ => body item >>= fun _ =>
                forEach (fun item => fetch >>= fun _ => body item) items >>=
                  fun _ => fetch >>= fun _ => pure () : Prog σ ε ω Unit) := by
            change ((fetch >>= fun _ => body item) >>= _) >>= _ = _
            simp only [bind_assoc]
          rw [unrolled, bind_silent fetched]
          change (fetch >>= _) state = _
          rw [bind_silent fetched]
          change (body item >>= fun _ => whileSome fetch body budget) later = _
          have still := kept item later items rest
          cases ran : body item later with
          | mk middle out outcome =>
              rw [ran] at still
              cases outcome with
              | value result =>
                  rw [bind_eq ran, bind_eq ran, induction fewer still]
              | error exception => rw [bind_error ran, bind_error ran]
              | halt reason => rw [bind_halt ran, bind_halt ran]

theorem forEach_singleton (body : α → Prog σ ε ω Unit) (item : α) :
    forEach body [item] = body item := by
  funext state
  unfold forEach
  cases ran : body item state with
  | mk middle out outcome =>
      cases outcome with
      | value result =>
          rw [bind_eq ran]
          simp [forEach, Prog.pure]
      | error exception => exact bind_error ran _
      | halt reason => exact bind_halt ran _

theorem forEach_append (body : α → Prog σ ε ω Unit) (first rest : List α) :
    forEach body (first ++ rest) =
      forEach body first >>= fun _ => forEach body rest := by
  induction first with
  | nil => rfl
  | cons item first induction =>
      rw [List.cons_append, forEach, induction, forEach, bind_assoc]

theorem forEach_append_eq {body : α → Prog σ ε ω Unit} {state middle : σ}
    {out : List ω} {first : List α} (rest : List α)
    (ran : forEach body first state = ⟨middle, out, .value ()⟩) :
    forEach body (first ++ rest) state =
      ⟨(forEach body rest middle).state,
        out ++ (forEach body rest middle).out,
        (forEach body rest middle).outcome⟩ := by
  rw [forEach_append, bind_eq ran]

end Prog

/-- What a program may do to the state: `done` for a program that finishes,
`halted` for one that stops half-way.  Finished programs compose. -/
structure Contract (σ : Type) where
  done : σ → σ → Prop
  halted : σ → σ → Prop
  done_refl : ∀ state, done state state
  done_trans : ∀ {first second third},
    done first second → done second third → done first third
  halted_refl : ∀ state, halted state state
  done_halted : ∀ {first second third},
    done first second → halted second third → halted first third

namespace Contract

variable {σ τ ε ω α : Type}

theorem halted_of_done (contract : Contract σ) {first second : σ}
    (finished : contract.done first second) : contract.halted first second :=
  contract.done_halted finished (contract.halted_refl second)

/-- A contract seen from a program with an additional private state. -/
def lift (contract : Contract σ) (τ : Type) : Contract (σ × τ) where
  done first second := contract.done first.1 second.1
  halted first second := contract.halted first.1 second.1
  done_refl state := contract.done_refl state.1
  done_trans := contract.done_trans
  halted_refl state := contract.halted_refl state.1
  done_halted := contract.done_halted

/-- A contract that only promises something when the precondition holds
before the program; the precondition is then still there afterwards. -/
def given (contract : Contract σ) (pre : σ → Prop)
    (stable : ∀ {first second}, pre first → contract.done first second →
      pre second) : Contract σ where
  done first second := pre first → contract.done first second
  halted first second := pre first → contract.halted first second
  done_refl state _ := contract.done_refl state
  done_trans := fun firstDone secondDone holds =>
    contract.done_trans (firstDone holds)
      (secondDone (stable holds (firstDone holds)))
  halted_refl state _ := contract.halted_refl state
  done_halted := fun firstDone secondHalted holds =>
    contract.done_halted (firstDone holds)
      (secondHalted (stable holds (firstDone holds)))

/-- Programs that leave what a view shows as it is. -/
def viewing {γ : Type} (view : σ → γ) : Contract σ where
  done first second := view second = view first
  halted first second := view second = view first
  done_refl _ := rfl
  done_trans first second := second.trans first
  halted_refl _ := rfl
  done_halted first second := second.trans first

end Contract

/-- An outcome and a final state that the contract allows from the start. -/
def Contract.Post {σ ε α : Type} (contract : Contract σ) (start : σ) :
    Outcome ε α → σ → Prop
  | .value _, final => contract.done start final
  | .error _, final => contract.done start final
  | .halt _, final => contract.halted start final

/-- The end of a run stands in the contract's relation to its start. -/
def Run.Meets {σ ε ω α : Type} (contract : Contract σ) (start : σ)
    (run : Run σ ε ω α) : Prop :=
  contract.Post start run.outcome run.state

/-- Every run of the program meets the contract. -/
def Keeps {σ ε ω α : Type} (contract : Contract σ)
    (program : Prog σ ε ω α) : Prop :=
  ∀ state, (program state).Meets contract state

theorem Run.Meets.done {σ ε ω α : Type} {contract : Contract σ} {start : σ}
    {run : Run σ ε ω α} (meets : run.Meets contract start)
    (finished : run.outcome.Finished) : contract.done start run.state := by
  rcases run with ⟨final, out, outcome⟩
  cases outcome with
  | value result => exact meets
  | error exception => exact meets
  | halt reason => exact finished.elim

theorem Run.Meets.halted {σ ε ω α : Type} {contract : Contract σ} {start : σ}
    {run : Run σ ε ω α} (meets : run.Meets contract start) :
    contract.halted start run.state := by
  rcases run with ⟨final, out, outcome⟩
  cases outcome with
  | value result => exact contract.halted_of_done meets
  | error exception => exact contract.halted_of_done meets
  | halt reason => exact meets

/-- A run that starts where a finished program ended extends it. -/
theorem Run.Meets.after {σ ε ω α : Type} {contract : Contract σ}
    {start middle : σ} {run : Run σ ε ω α}
    (first : contract.done start middle) (second : run.Meets contract middle) :
    run.Meets contract start := by
  rcases run with ⟨final, out, outcome⟩
  cases outcome with
  | value result => exact contract.done_trans first second
  | error exception => exact contract.done_trans first second
  | halt reason => exact contract.done_halted first second

namespace Keeps

variable {σ τ ε ω α β : Type} {contract : Contract σ}

theorem pure (result : α) :
    Keeps contract (Pure.pure result : Prog σ ε ω α) :=
  fun state => contract.done_refl state

/-- Only what the first program can return has to be looked at. -/
theorem bind_of {first : Prog σ ε ω α} {next : α → Prog σ ε ω β}
    (firstKeeps : Keeps contract first)
    (nextKeeps : ∀ state result, (first state).outcome = .value result →
      Keeps contract (next result)) :
    Keeps contract (first >>= next) := by
  intro state
  change (Prog.bind first next state).Meets contract state
  have meets := firstKeeps state
  have returned := nextKeeps state
  unfold Prog.bind
  generalize first state = run at meets returned ⊢
  rcases run with ⟨middle, out, outcome⟩
  cases outcome with
  | value result => exact Run.Meets.after meets (returned result rfl middle)
  | error exception => exact meets
  | halt reason => exact meets

theorem bind {first : Prog σ ε ω α} {next : α → Prog σ ε ω β}
    (firstKeeps : Keeps contract first)
    (nextKeeps : ∀ result, Keeps contract (next result)) :
    Keeps contract (first >>= next) :=
  firstKeeps.bind_of fun _ result _ => nextKeeps result

theorem emit (out : List ω) :
    Keeps contract (Prog.emit out : Prog σ ε ω Unit) :=
  fun state => contract.done_refl state

theorem read (view : σ → α) :
    Keeps contract (Prog.read view : Prog σ ε ω α) :=
  fun state => contract.done_refl state

theorem modify {change : σ → σ}
    (step : ∀ state, contract.done state (change state)) :
    Keeps contract (Prog.modify change : Prog σ ε ω Unit) :=
  step

theorem throw (exception : ε) :
    Keeps contract (Prog.throw exception : Prog σ ε ω α) :=
  fun state => contract.done_refl state

theorem halt (reason : Halt) :
    Keeps contract (Prog.halt reason : Prog σ ε ω α) :=
  fun state => contract.halted_refl state

theorem act {step : σ → σ × Outcome ε α}
    (keeps : ∀ state, contract.done state (step state).1) :
    Keeps contract (Prog.act step : Prog σ ε ω α) := by
  intro state
  unfold Run.Meets Prog.act
  cases (step state).2 with
  | value result => exact keeps state
  | error exception => exact keeps state
  | halt reason => exact contract.halted_of_done (keeps state)

theorem orThrow (exception : ε) (result : Option α) :
    Keeps contract (Prog.orThrow exception result : Prog σ ε ω α) := by
  cases result with
  | none => exact throw exception
  | some result => exact pure result

theorem tryCatch {body : Prog σ ε ω α} {handler : ε → Prog σ ε ω α}
    (bodyKeeps : Keeps contract body)
    (handlerKeeps : ∀ exception, Keeps contract (handler exception)) :
    Keeps contract (body.tryCatch handler) := by
  intro state
  have meets := bodyKeeps state
  unfold Prog.tryCatch
  generalize body state = run at meets ⊢
  rcases run with ⟨middle, out, outcome⟩
  cases outcome with
  | value result => exact meets
  | error exception =>
      exact Run.Meets.after meets (handlerKeeps exception middle)
  | halt reason => exact meets

theorem onError {body : Prog σ ε ω α} {cleanup : Prog σ ε ω Unit}
    (bodyKeeps : Keeps contract body) (cleanupKeeps : Keeps contract cleanup) :
    Keeps contract (body.onError cleanup) :=
  bodyKeeps.tryCatch fun exception =>
    cleanupKeeps.bind fun _ => throw exception

theorem capture {body : Prog σ ε ω Unit} (bodyKeeps : Keeps contract body) :
    Keeps contract body.capture := by
  intro state
  have meets := bodyKeeps state
  unfold Prog.capture
  generalize body state = run at meets ⊢
  rcases run with ⟨final, out, outcome⟩
  cases outcome with
  | value result => exact meets
  | error exception => exact meets
  | halt reason => exact meets

theorem forEach {body : α → Prog σ ε ω Unit} {items : List α}
    (bodyKeeps : ∀ item ∈ items, Keeps contract (body item)) :
    Keeps contract (Prog.forEach body items) := by
  induction items with
  | nil => exact pure ()
  | cons item items induction =>
      refine bind (bodyKeeps item (by simp)) fun _ => induction ?_
      intro later member
      exact bodyKeeps later (by simp [member])

theorem whileLoop {test : Prog σ ε ω Bool} {body : Prog σ ε ω Unit}
    (testKeeps : Keeps contract test) (bodyKeeps : Keeps contract body)
    (budget : Nat) : Keeps contract (Prog.whileLoop test body budget) := by
  induction budget with
  | zero => exact halt .timeout
  | succ budget induction =>
      refine bind testKeeps fun holds => ?_
      cases holds with
      | false => exact pure ()
      | true => exact bind bodyKeeps fun _ => induction

theorem whileSome {fetch : Prog σ ε ω (Option α)}
    {body : α → Prog σ ε ω Unit} (fetchKeeps : Keeps contract fetch)
    (bodyKeeps : ∀ item, Keeps contract (body item)) (budget : Nat) :
    Keeps contract (Prog.whileSome fetch body budget) := by
  induction budget with
  | zero => exact halt .timeout
  | succ budget induction =>
      refine bind fetchKeeps fun found => ?_
      cases found with
      | none => exact pure ()
      | some item => exact bind (bodyKeeps item) fun _ => induction

theorem ite {condition : Prop} [Decidable condition]
    {first second : Prog σ ε ω α} (firstKeeps : Keeps contract first)
    (secondKeeps : Keeps contract second) :
    Keeps contract (if condition then first else second) := by
  split
  · exact firstKeeps
  · exact secondKeeps

theorem when {condition : Bool} {body : Prog σ ε ω Unit}
    (bodyKeeps : Keeps contract body) :
    Keeps contract (Prog.when condition body) :=
  ite bodyKeeps (pure ())

theorem lift {body : Prog σ ε ω α} (bodyKeeps : Keeps contract body) :
    Keeps (contract.lift τ) body.lift := by
  intro state
  have meets := bodyKeeps state.1
  unfold Prog.lift
  generalize body state.1 = run at meets ⊢
  rcases run with ⟨final, out, outcome⟩
  cases outcome with
  | value result => exact meets
  | error exception => exact meets
  | halt reason => exact meets

theorem within {initial : τ} {body : Prog (σ × τ) ε ω α}
    (bodyKeeps : Keeps (contract.lift τ) body) :
    Keeps contract (body.within initial) := by
  intro state
  have meets := bodyKeeps (state, initial)
  unfold Prog.within
  generalize body (state, initial) = run at meets ⊢
  rcases run with ⟨final, out, outcome⟩
  cases outcome with
  | value result => exact meets
  | error exception => exact meets
  | halt reason => exact meets

/-- A view that a program leaves as it is, however the program ends. -/
theorem viewing_iff {γ : Type} {view : σ → γ} {program : Prog σ ε ω α} :
    Keeps (Contract.viewing view) program ↔
      ∀ state, view (program state).state = view state := by
  apply forall_congr'
  intro state
  unfold Run.Meets
  cases (program state).outcome <;> exact Iff.rfl

end Keeps

end Effect
