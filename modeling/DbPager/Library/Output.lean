import DbPager.Library.Guard
import Mathlib.Data.List.Forall2

/-!
# What programs write

A silent program writes nothing.  The output of a captured sequence is put
together from the outputs of its parts, in order.
-/

namespace Effect

namespace Prog

variable {σ τ ε ω α β : Type}

/-- The program writes nothing, however it ends. -/
def Silent (program : Prog σ ε ω α) : Prop :=
  ∀ state, (program state).out = []

namespace Silent

theorem pure (result : α) : Silent (Pure.pure result : Prog σ ε ω α) :=
  fun _ => rfl

theorem read (view : σ → α) : Silent (Prog.read view : Prog σ ε ω α) :=
  fun _ => rfl

theorem modify (change : σ → σ) :
    Silent (Prog.modify change : Prog σ ε ω Unit) :=
  fun _ => rfl

theorem act (step : σ → σ × Outcome ε α) :
    Silent (Prog.act step : Prog σ ε ω α) :=
  fun _ => rfl

theorem throw (exception : ε) : Silent (Prog.throw exception : Prog σ ε ω α) :=
  fun _ => rfl

theorem halt (reason : Halt) : Silent (Prog.halt reason : Prog σ ε ω α) :=
  fun _ => rfl

theorem orThrow (exception : ε) (result : Option α) :
    Silent (Prog.orThrow exception result : Prog σ ε ω α) := by
  intro state
  cases result <;> rfl

theorem bind {first : Prog σ ε ω α} {next : α → Prog σ ε ω β}
    (firstSilent : Silent first) (nextSilent : ∀ result, Silent (next result)) :
    Silent (first >>= next) := by
  intro state
  have quiet := firstSilent state
  cases ran : first state with
  | mk middle out outcome =>
      rw [ran] at quiet
      simp only at quiet
      subst quiet
      cases outcome with
      | value result =>
          rw [bind_silent ran]
          exact nextSilent result middle
      | error exception => rw [bind_error ran]
      | halt reason => rw [bind_halt ran]

theorem tryCatch {body : Prog σ ε ω α} {handler : ε → Prog σ ε ω α}
    (bodySilent : Silent body)
    (handlerSilent : ∀ exception, Silent (handler exception)) :
    Silent (body.tryCatch handler) := by
  intro state
  have quiet := bodySilent state
  cases ran : body state with
  | mk middle out outcome =>
      rw [ran] at quiet
      simp only at quiet
      subst quiet
      cases outcome with
      | value result => rw [tryCatch_eq ran]
      | error exception =>
          rw [tryCatch_error ran]
          exact handlerSilent exception middle
      | halt reason => rw [tryCatch_halt ran]

theorem capture (body : Prog σ ε ω Unit) : Silent body.capture := by
  intro state
  unfold Prog.capture
  split <;> rfl

theorem lift {body : Prog σ ε ω α} (silent : Silent body) :
    Silent (body.lift : Prog (σ × τ) ε ω α) :=
  fun state => silent state.1

theorem within {initial : τ} {body : Prog (σ × τ) ε ω α}
    (silent : Silent body) : Silent (body.within initial) :=
  fun state => silent (state, initial)

theorem when {condition : Bool} {body : Prog σ ε ω Unit}
    (silent : Silent body) : Silent (Prog.when condition body) := by
  cases condition with
  | true => exact silent
  | false => exact pure ()

end Silent

/-- A silent continuation adds nothing to the output. -/
theorem out_bind_silent {first : Prog σ ε ω α} {next : α → Prog σ ε ω β}
    (silent : ∀ result, Silent (next result)) (state : σ) :
    ((first >>= next) state).out = (first state).out := by
  cases ran : first state with
  | mk middle out outcome =>
      cases outcome with
      | value result =>
          rw [bind_eq ran, silent result middle]
          exact List.append_nil out
      | error exception => rw [bind_error ran]
      | halt reason => rw [bind_halt ran]

theorem capture_emit (out : List ω) :
    (emit out : Prog σ ε ω Unit).capture = pure out := rfl

theorem capture_error {body : Prog σ ε ω Unit} {state middle : σ}
    {out : List ω} {exception : ε}
    (ran : body state = ⟨middle, out, .error exception⟩) :
    body.capture state = ⟨middle, [], .error exception⟩ := by
  unfold capture
  rw [ran]

theorem capture_halt {body : Prog σ ε ω Unit} {state middle : σ}
    {out : List ω} {reason : Halt}
    (ran : body state = ⟨middle, out, .halt reason⟩) :
    body.capture state = ⟨middle, [], .halt reason⟩ := by
  unfold capture
  rw [ran]

/-- Only the run of the body matters to the capture. -/
theorem capture_congr {body other : Prog σ ε ω Unit} {state start : σ}
    (same : body state = other start) :
    body.capture state = other.capture start := by
  unfold capture
  rw [same]

/-- Only the run of the first program matters to the second. -/
theorem bind_congr {first other : Prog σ ε ω α} {state start : σ}
    (same : first state = other start) (next : α → Prog σ ε ω β) :
    (first >>= next) state = (other >>= next) start := by
  change Prog.bind first next state = Prog.bind other next start
  unfold Prog.bind
  rw [same]

/-- What comes before is put in front. -/
theorem capture_seq (first next : Prog σ ε ω Unit) :
    (first >>= fun _ => next).capture =
      first.capture >>= fun before => next.capture >>= fun after =>
        pure (before ++ after) := by
  funext state
  cases ran : first state with
  | mk middle out outcome =>
      cases outcome with
      | value result =>
          rw [bind_silent (capture_eq ran)]
          have whole := bind_eq ran fun _ => next
          cases later : next middle with
          | mk final rest ending =>
              rw [later] at whole
              cases ending with
              | value result =>
                  rw [capture_eq whole, bind_silent (capture_eq later)]
                  rfl
              | error exception =>
                  rw [capture_error whole, bind_error (capture_error later)]
              | halt reason =>
                  rw [capture_halt whole, bind_halt (capture_halt later)]
      | error exception =>
          rw [bind_error (capture_error ran)]
          exact capture_error (bind_error ran _)
      | halt reason =>
          rw [bind_halt (capture_halt ran)]
          exact capture_halt (bind_halt ran _)

/-- A silent program in front of a captured one is not captured. -/
theorem capture_bind {first : Prog σ ε ω α} (silent : Silent first)
    (next : α → Prog σ ε ω Unit) :
    (first >>= next).capture = first >>= fun result => (next result).capture := by
  funext state
  have quiet := silent state
  cases ran : first state with
  | mk middle out outcome =>
      rw [ran] at quiet
      simp only at quiet
      subst quiet
      cases outcome with
      | value result =>
          rw [bind_silent ran]
          exact capture_congr (bind_silent ran next)
      | error exception =>
          rw [bind_error ran]
          exact capture_error (bind_error ran next)
      | halt reason =>
          rw [bind_halt ran]
          exact capture_halt (bind_halt ran next)

/-- Run a program for each item and collect the results. -/
def traverse (program : α → Prog σ ε ω β) : List α → Prog σ ε ω (List β)
  | [] => pure []
  | item :: items => program item >>= fun result =>
      traverse program items >>= fun results => pure (result :: results)

/-- Every result comes from its item. -/
theorem of_traverse_value {program : α → Prog σ ε ω β} {rel : α → β → Prop}
    (each : ∀ item state final out result,
      program item state = ⟨final, out, .value result⟩ → rel item result)
    {items : List α} {state final : σ} {out : List ω} {results : List β}
    (ran : traverse program items state = ⟨final, out, .value results⟩) :
    List.Forall₂ rel items results := by
  induction items generalizing state out results with
  | nil =>
      cases ran
      exact .nil
  | cons item items induction =>
      obtain ⟨_, result, _, _, first, ran, -⟩ := of_bind_value ran
      obtain ⟨_, rest, _, _, later, ran, -⟩ := of_bind_value ran
      cases ran
      exact .cons (each item _ _ _ _ first) (induction later)

theorem Guards.onError {guarded program : Prog σ ε ω α}
    (guards : Guards guarded program) (cleanup : Prog σ ε ω Unit) :
    Guards (guarded.onError cleanup) (program.onError cleanup) :=
  guards.tryCatch fun _ => .refl _

/-- A program that returns inside a capture has written what was captured. -/
theorem of_capture_value {body : Prog σ ε ω Unit} {state final : σ}
    {out : List ω} (ran : body.capture state = ⟨final, [], .value out⟩) :
    body state = ⟨final, out, .value ()⟩ := by
  cases whole : body state with
  | mk middle written outcome =>
      cases outcome with
      | value result =>
          rw [capture_eq whole] at ran
          cases ran
          rfl
      | error exception =>
          rw [capture_error whole] at ran
          cases ran
      | halt reason =>
          rw [capture_halt whole] at ran
          cases ran

/-- The run, with something written before it. -/
def behind (written : List ω) (run : Run σ ε ω α) : Run σ ε ω α :=
  ⟨run.state, written ++ run.out, run.outcome⟩

theorem behind_append (first second : List ω) (run : Run σ ε ω α) :
    behind (first ++ second) run = behind first (behind second run) := by
  unfold behind
  rw [List.append_assoc]

/-- The rest of a sequence runs behind what its beginning has written. -/
theorem bind_behind {first other : Prog σ ε ω α} {state start : σ}
    {written : List ω} (same : first state = behind written (other start))
    (next : α → Prog σ ε ω β) :
    (first >>= next) state = behind written ((other >>= next) start) := by
  cases whole : other start with
  | mk middle out outcome =>
      rw [whole] at same
      cases outcome with
      | value result =>
          rw [bind_eq same, bind_eq whole]
          unfold behind
          rw [List.append_assoc]
      | error exception => rw [bind_error same, bind_error whole]; rfl
      | halt reason => rw [bind_halt same, bind_halt whole]; rfl

theorem tryCatch_behind {body other : Prog σ ε ω α} {state start : σ}
    {written : List ω} (same : body state = behind written (other start))
    (handler : ε → Prog σ ε ω α) :
    body.tryCatch handler state =
      behind written (other.tryCatch handler start) := by
  cases whole : other start with
  | mk middle out outcome =>
      rw [whole] at same
      cases outcome with
      | value result => rw [tryCatch_eq same, tryCatch_eq whole]; rfl
      | error exception =>
          rw [tryCatch_error same, tryCatch_error whole]
          unfold behind
          rw [List.append_assoc]
      | halt reason => rw [tryCatch_halt same, tryCatch_halt whole]; rfl

theorem onError_behind {body other : Prog σ ε ω α} {state start : σ}
    {written : List ω} (same : body state = behind written (other start))
    (cleanup : Prog σ ε ω Unit) :
    body.onError cleanup state =
      behind written (other.onError cleanup start) :=
  tryCatch_behind same _

theorem of_onError_value {body : Prog σ ε ω α} {cleanup : Prog σ ε ω Unit}
    {state final : σ} {out : List ω} {result : α}
    (ran : body.onError cleanup state = ⟨final, out, .value result⟩) :
    body state = ⟨final, out, .value result⟩ := by
  cases whole : body state with
  | mk middle written outcome =>
      cases outcome with
      | value value =>
          rw [onError_eq whole] at ran
          exact ran
      | error exception =>
          have ended := congrArg Run.outcome ran
          rw [onError_error whole] at ended
          cases cleaned : (cleanup middle).outcome <;>
            simp [cleaned, Outcome.bind] at ended
      | halt reason =>
          have ended : body.onError cleanup state =
              ⟨middle, written, .halt reason⟩ := tryCatch_halt whole _
          rw [ended] at ran
          cases ran

/-- A sequence that comes to an end: its first program raises, or it returns
and the rest comes to an end. -/
theorem of_bind_finished {first : Prog σ ε ω α} {next : α → Prog σ ε ω β}
    {state final : σ} {out : List ω} {outcome : Outcome ε β}
    (ran : (first >>= next) state = ⟨final, out, outcome⟩)
    (finished : outcome.Finished) :
    (∃ exception, first state = ⟨final, out, .error exception⟩ ∧
        outcome = .error exception) ∨
      ∃ middle value written rest,
        first state = ⟨middle, written, .value value⟩ ∧
          next value middle = ⟨final, rest, outcome⟩ := by
  cases whole : first state with
  | mk middle written ending =>
      cases ending with
      | value value =>
          rw [bind_eq whole] at ran
          cases later : next value middle with
          | mk last rest ending =>
              rw [later] at ran
              cases ran
              exact .inr ⟨middle, value, written, rest, rfl, later⟩
      | error exception =>
          rw [bind_error whole] at ran
          cases ran
          exact .inl ⟨exception, rfl, rfl⟩
      | halt reason =>
          rw [bind_halt whole] at ran
          cases ran
          exact finished.elim

/-- A program with a cleanup that comes to an end: it returns, or it raises
and the cleanup comes to an end. -/
theorem of_onError_finished {body : Prog σ ε ω α}
    {cleanup : Prog σ ε ω Unit} {state final : σ} {out : List ω}
    {outcome : Outcome ε α}
    (ran : body.onError cleanup state = ⟨final, out, outcome⟩)
    (finished : outcome.Finished) :
    (∃ result, body state = ⟨final, out, .value result⟩) ∨
      ∃ middle written exception rest ending,
        body state = ⟨middle, written, .error exception⟩ ∧
          cleanup middle = ⟨final, rest, ending⟩ ∧ ending.Finished := by
  cases whole : body state with
  | mk middle written ending =>
      cases ending with
      | value result =>
          rw [onError_eq whole] at ran
          cases ran
          exact .inl ⟨result, rfl⟩
      | error exception =>
          rw [onError_error whole] at ran
          cases cleaned : cleanup middle with
          | mk last rest ending =>
              rw [cleaned] at ran
              cases ran
              apply Or.inr
              refine ⟨middle, written, exception, rest, ending, rfl, cleaned, ?_⟩
              cases ending with
              | value result => trivial
              | error raised => trivial
              | halt reason => exact finished.elim
      | halt reason =>
          have ended : body.onError cleanup state =
              ⟨middle, written, .halt reason⟩ := tryCatch_halt whole _
          rw [ended] at ran
          cases ran
          exact finished.elim

theorem bind_pure (program : Prog σ ε ω α) :
    (program >>= fun result => pure result) = program := by
  funext state
  cases ran : program state with
  | mk middle out outcome =>
      cases outcome with
      | value result =>
          rw [bind_eq ran]
          change (⟨middle, out ++ [], .value result⟩ : Run σ ε ω α) = _
          rw [List.append_nil]
      | error exception => exact bind_error ran _
      | halt reason => exact bind_halt ran _

/-- Two cleanups, the first of which always returns. -/
theorem onError_onError {first : Prog σ ε ω Unit}
    (returns : ∀ state, ∃ final, first state = ⟨final, [], .value ()⟩)
    (second : Prog σ ε ω Unit) (body : Prog σ ε ω α) :
    (body.onError first).onError second =
      body.onError (first >>= fun _ => second) := by
  funext state
  cases ran : body state with
  | mk middle out outcome =>
      cases outcome with
      | value result =>
          rw [onError_eq ran]
          exact onError_eq (onError_eq ran first) second
      | error exception =>
          obtain ⟨final, cleaned⟩ := returns middle
          have inner : body.onError first state =
              ⟨final, out, .error exception⟩ := by
            rw [onError_error ran, cleaned, List.append_nil]
            rfl
          rw [onError_error ran, onError_error inner, bind_silent cleaned]
      | halt reason =>
          have inner : body.onError first state =
              ⟨middle, out, .halt reason⟩ := tryCatch_halt ran _
          have outer : body.onError (first >>= fun _ => second) state =
              ⟨middle, out, .halt reason⟩ := tryCatch_halt ran _
          rw [outer]
          exact tryCatch_halt inner _

/-- A silent cleanup commutes with the capture. -/
theorem capture_onError {cleanup : Prog σ ε ω Unit} (silent : Silent cleanup)
    (body : Prog σ ε ω Unit) :
    (body.onError cleanup).capture = body.capture.onError cleanup := by
  funext state
  cases ran : body state with
  | mk middle out outcome =>
      cases outcome with
      | value result =>
          rw [onError_eq (capture_eq ran)]
          exact capture_eq (onError_eq ran cleanup)
      | error exception =>
          have inside := onError_error ran cleanup
          rw [onError_error (capture_error ran), silent middle]
          cases ending : (cleanup middle).outcome with
          | value result =>
              rw [ending] at inside
              exact capture_error inside
          | error raised =>
              rw [ending] at inside
              exact capture_error inside
          | halt reason =>
              rw [ending] at inside
              exact capture_halt inside
      | halt reason =>
          have handed : body.onError cleanup state =
              ⟨middle, out, .halt reason⟩ := tryCatch_halt ran _
          rw [capture_halt handed]
          exact (tryCatch_halt (capture_halt ran) _).symm

theorem onError_map (source : Prog σ ε ω α) (change : α → β)
    (cleanup : Prog σ ε ω Unit) :
    (source >>= fun value => pure (change value)).onError cleanup =
      source.onError cleanup >>= fun value => pure (change value) := by
  funext state
  cases ran : source state with
  | mk middle out outcome =>
      cases outcome with
      | value result =>
          rw [bind_eq (onError_eq ran cleanup)]
          exact onError_eq (bind_eq ran _) cleanup
      | error exception =>
          have inside := onError_error ran cleanup
          rw [onError_error (bind_error ran _)]
          cases ending : (cleanup middle).outcome with
          | value result =>
              rw [ending] at inside
              exact (bind_error inside _).symm
          | error raised =>
              rw [ending] at inside
              exact (bind_error inside _).symm
          | halt reason =>
              rw [ending] at inside
              exact (bind_halt inside _).symm
      | halt reason =>
          have handed : source.onError cleanup state =
              ⟨middle, out, .halt reason⟩ := tryCatch_halt ran _
          rw [bind_halt handed]
          exact tryCatch_halt (bind_halt ran _) _

/-- What the program writes is the text of the value the source computes. -/
def Writes (program : Prog σ ε ω Unit) (source : Prog σ ε ω α)
    (text : α → List ω) : Prop :=
  Guards (source >>= fun value => pure (text value)) program.capture

namespace Writes

variable {program next : Prog σ ε ω Unit} {source : Prog σ ε ω α}
  {text : α → List ω}

theorem resolve (writes : Writes program source text) {state final : σ}
    {value : α} (ran : source state = ⟨final, [], .value value⟩) :
    program state = ⟨final, text value, .value ()⟩ := by
  have computed : (source >>= fun value => (pure (text value) :
      Prog σ ε ω (List ω))) state = ⟨final, [], .value (text value)⟩ :=
    bind_silent ran _
  apply of_capture_value
  rw [← computed]
  apply Guards.resolve writes
  rw [computed]
  intro same
  cases same

theorem emit (out : List ω) :
    Writes (Prog.emit out : Prog σ ε ω Unit) (pure ()) fun _ => out :=
  Guards.refl _

theorem halt (reason : Halt) :
    Writes (Prog.halt reason : Prog σ ε ω Unit) (Prog.halt reason) text :=
  Guards.refl _

theorem fault (program : Prog σ ε ω Unit) :
    Writes program (Prog.halt .fault) text :=
  Guards.fault _

theorem of_silent {first : Prog σ ε ω β} {next : β → Prog σ ε ω Unit}
    {source : β → Prog σ ε ω α} (silent : Silent first)
    (writes : ∀ result, Writes (next result) (source result) text) :
    Writes (first >>= next) (first >>= source) text := by
  unfold Writes
  rw [capture_bind silent, bind_assoc]
  exact (Guards.refl first).bind writes

/-- Two programs one after the other, and the two values joined. -/
theorem seq {γ : Type} {second : Prog σ ε ω β} {rest : β → List ω}
    {join : α → β → γ} {whole : γ → List ω}
    (first : Writes program source text) (later : Writes next second rest)
    (same : ∀ value result, whole (join value result) =
      text value ++ rest result) :
    Writes (program >>= fun _ => next)
      (source >>= fun value => second >>= fun result =>
        pure (join value result)) whole := by
  have parts := Guards.bind first fun before =>
    Guards.bind later fun after => .refl (pure (before ++ after))
  rw [bind_assoc] at parts
  unfold Writes
  rw [capture_seq, bind_assoc]
  have step : (fun value => (pure (text value) : Prog σ ε ω (List ω)) >>=
      fun before =>
        (second >>= fun result => (pure (rest result) :
          Prog σ ε ω (List ω))) >>= fun after => pure (before ++ after)) =
      fun value => (second >>= fun result => pure (join value result)) >>=
        fun both => (pure (whole both) : Prog σ ε ω (List ω)) := by
    funext value
    rw [bind_assoc]
    have written : (fun result => (pure (join value result) :
        Prog σ ε ω γ) >>= fun both => (pure (whole both) :
          Prog σ ε ω (List ω))) =
        fun result => pure (text value ++ rest result) := by
      funext result
      rw [← same]
      rfl
    rw [written]
    exact bind_assoc second _ _
  rw [← step]
  exact parts

theorem before (out : List ω) (writes : Writes program source text) :
    Writes (Prog.emit out >>= fun _ => program) source fun value =>
      out ++ text value := by
  have parts := Guards.bind writes fun after =>
    Guards.refl (pure (out ++ after) : Prog σ ε ω (List ω))
  rw [bind_assoc] at parts
  unfold Writes
  rw [capture_seq, capture_emit]
  exact parts

theorem after (writes : Writes program source text) (out : List ω) :
    Writes (program >>= fun _ => Prog.emit out) source fun value =>
      text value ++ out := by
  have parts := Guards.bind writes fun before =>
    Guards.refl (pure (before ++ out) : Prog σ ε ω (List ω))
  rw [bind_assoc] at parts
  unfold Writes
  rw [capture_seq, capture_emit]
  exact parts

/-- What was captured is written again, changed. -/
theorem capture (writes : Writes program source text)
    (change : List ω → List ω) :
    Writes (program.capture >>= fun out => Prog.emit (change out)) source
      fun value => change (text value) := by
  unfold Writes
  rw [capture_bind (Silent.capture program)]
  have parts := writes.bind fun out =>
    Guards.refl (pure (change out) : Prog σ ε ω (List ω))
  rw [bind_assoc] at parts
  exact parts

theorem forEach {body : β → Prog σ ε ω Unit} {source : β → Prog σ ε ω α}
    (items : List β) (writes : ∀ item, Writes (body item) (source item) text) :
    Writes (Prog.forEach body items) (traverse source items) fun values =>
      values.flatMap text := by
  induction items with
  | nil => exact Guards.refl _
  | cons item items induction =>
      apply (writes item).seq induction
      intro value values
      rfl

theorem onError {cleanup : Prog σ ε ω Unit} (silent : Silent cleanup)
    (writes : Writes program source text) :
    Writes (program.onError cleanup) (source.onError cleanup) text := by
  unfold Writes
  rw [capture_onError silent, ← onError_map]
  exact Guards.onError writes cleanup

end Writes

end Prog

end Effect
