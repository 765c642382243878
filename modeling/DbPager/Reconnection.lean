import DbPager.Library.Output
import DbPager.Tags.Database
import DbPager.Plain

/-!
# Attempts of the pgsql database tag

When the connection breaks while the children of the tag are executed, the tag
connects and executes them again, three times at most.  The children write to
the output of the page, and nothing takes back what an attempt has written
before its connection broke.
-/

namespace DbPager.Pgsql.TagDatabase

open Effect

variable {W : Type}

/-- The number of layers of each context. -/
def layers (state : St W) : List Nat :=
  state.contexts.map fun context => context.stack.length

/-- One round of the loop: the state it starts in, the attempt, and how the
announcement of another one ended, if it was made. -/
structure Round (W : Type) where
  start : St W
  run : Run (St W) Exc Char Unit
  announced : Option (Outcome Exc Unit)

namespace Round

/-- The attempt ended with a broken connection. -/
def Broken (round : Round W) : Prop :=
  ∃ exception, round.run.outcome = .error exception ∧
    exception.cls = .brokenConnection

/-- The logger raised when the next attempt was announced. -/
def Refused (round : Round W) : Prop :=
  ∃ exception, round.announced = some (.error exception)

/-- The attempt and the announcement came to an end, and the attempt kept the
layers. -/
structure Proper (round : Round W) : Prop where
  finished : round.run.outcome.Finished
  announces : ∀ outcome, round.announced = some outcome → outcome.Finished
  kept : layers round.run.state = layers round.start

end Round

/-- A run that ends with the only round made. -/
structure Ends (made : List (Round W)) (whole : Run (St W) Exc Char Unit)
    (state : St W) (round : Round W) : Prop where
  rounds_eq : made = [round]
  out_eq : whole.out = round.run.out
  start_eq : round.start = state
  balances : round.Proper → ∀ depth parents,
    layers state = (depth + 1) :: parents →
    (layers whole.state = depth :: parents ↔ ¬ round.Refused)

/-- A run that goes on after its first round, with another one. -/
structure GoesOn (made rest : List (Round W))
    (whole further : Run (St W) Exc Char Unit) (state later : St W)
    (round : Round W) : Prop where
  rounds_eq : made = round :: rest
  out_eq : whole.out = round.run.out ++ further.out
  state_eq : whole.state = further.state
  start_eq : round.start = state
  layers_eq : layers later = layers round.run.state
  broken : round.Broken
  announced : ¬ round.Refused

section Loop

variable (interp : Interp W) (self : Loc) (caller : Option Loc) (dsn : Str)
  (item : Nat)

/-- What the handler does before another attempt. -/
def announce (exception : Exc) : M W Unit := do
  M.change (interp.outside.pgsql.reset item)
  (logMessage interp .warning
    (interp.dcl.trim exception.what ++ ", reconnecting...".toList)).onError
    (M.record (.leak .pgsqlLogger))

/-- What the handler does after the last attempt. -/
def giveUp (exception : Exc) : M W Unit := do
  M.change (interp.outside.pgsql.reset item)
  M.leave
  logMessage interp .error (interp.dcl.trim exception.what)
  Prog.throw (.dbp exception.what)

/-- The rounds of the loop, with the given number of attempts left. -/
def rounds : Nat → St W → List (Round W)
  | 0, _ => []
  | attempts + 1, state =>
      let run := attempt interp self caller dsn item state
      match run.outcome with
      | .error exception =>
          if exception.cls = .brokenConnection ∧ attempts ≠ 0 then
            let answer := announce interp item exception run.state
            ⟨state, run, some answer.outcome⟩ ::
              match answer.outcome with
              | .value _ => rounds attempts answer.state
              | _ => []
          else [⟨state, run, none⟩]
      | _ => [⟨state, run, none⟩]

theorem loop_succ (attempts : Nat) :
    loop interp self caller dsn item (attempts + 1) =
      Prog.tryCatch
        (attempt interp self caller dsn item >>= fun _ => M.leave)
        (fun exception =>
          if exception.cls == .brokenConnection then
            if attempts = 0 then giveUp interp item exception
            else announce interp item exception >>= fun _ =>
              loop interp self caller dsn item attempts
          else M.leave >>= fun _ => Prog.throw exception) := by
  conv_lhs => unfold loop
  apply congrArg
  funext exception
  split
  · split
    · rfl
    · unfold announce
      rw [Prog.bind_assoc]
  · rfl

theorem logMessage_silent (level : LogLevel) (message : Str) :
    Prog.Silent (logMessage interp level message) := by
  apply Prog.Silent.bind (Prog.Silent.read _)
  intro services
  cases services with
  | true => exact Prog.Silent.act _
  | false => exact Prog.Silent.halt _

theorem leave_silent : Prog.Silent (M.leave : M W Unit) :=
  Prog.Silent.act _

theorem logMessage_contexts (level : LogLevel) (message : Str)
    (state : St W) :
    (logMessage interp level message state).state.contexts =
      state.contexts := by
  have asked : (Prog.read fun state : St W =>
      state.contexts.head?.any Context.services : M W Bool) state =
      ⟨state, [], .value (state.contexts.head?.any Context.services)⟩ := rfl
  unfold logMessage
  rw [Prog.bind_silent asked]
  cases state.contexts.head?.any Context.services with
  | true => rfl
  | false => rfl

theorem announce_silent (exception : Exc) :
    Prog.Silent (announce interp item exception) := by
  apply Prog.Silent.bind (Prog.Silent.act _)
  intro _
  apply Prog.Silent.tryCatch (logMessage_silent interp _ _)
  intro raised
  apply Prog.Silent.bind (Prog.Silent.modify _)
  intro _
  exact Prog.Silent.throw raised

theorem announce_contexts (exception : Exc) (state : St W) :
    (announce interp item exception state).state.contexts =
      state.contexts := by
  unfold announce
  rw [Prog.bind_silent (M.change_eq _ state)]
  exact (Prog.view_onError (fun _ => rfl) _ _).trans
    (logMessage_contexts interp _ _ _)

theorem giveUp_silent (exception : Exc) :
    Prog.Silent (giveUp interp item exception) := by
  apply Prog.Silent.bind (Prog.Silent.act _)
  intro _
  apply Prog.Silent.bind leave_silent
  intro _
  apply Prog.Silent.bind (logMessage_silent interp _ _)
  intro _
  exact Prog.Silent.throw _

theorem layers_of_contexts {first second : St W}
    (same : second.contexts = first.contexts) :
    layers second = layers first := by
  unfold layers
  rw [same]

/-- Leaving takes one layer off the context at hand. -/
theorem leave_layers {state : St W} {depth : Nat} {parents : List Nat}
    (entered : layers state = (depth + 1) :: parents) :
    layers (M.leave state).state = depth :: parents := by
  obtain ⟨context, contexts, chain, length, rfl⟩ :=
    List.map_eq_cons_iff.mp entered
  have layered : state.Layered := by
    refine ⟨context, contexts, chain, ?_⟩
    intro empty
    rw [empty] at length
    cases length
  rw [M.leave_eq layered]
  unfold layers St.dropLayer St.mapHead
  rw [chain]
  change (context.stack.tail.length :: _) = _
  rw [List.length_tail, length]
  rfl

theorem giveUp_layers (exception : Exc) {state : St W} {depth : Nat}
    {parents : List Nat} (entered : layers state = (depth + 1) :: parents) :
    layers (giveUp interp item exception state).state = depth :: parents := by
  have logs : ∀ (result : Unit) (state : St W),
      layers ((logMessage interp .error (interp.dcl.trim exception.what) >>=
        fun _ => Prog.throw (.dbp exception.what) : M W Unit)
        state).state = layers state := by
    intro _ state
    apply layers_of_contexts
    exact (Prog.view_bind (fun _ _ => rfl) _ state).trans
      (logMessage_contexts interp _ _ state)
  unfold giveUp
  rw [Prog.bind_silent (M.change_eq _ state)]
  apply (Prog.view_bind logs _ _).trans
  exact leave_layers entered

theorem not_refused_none {round : Round W} (none : round.announced = none) :
    ¬ round.Refused := by
  rintro ⟨exception, same⟩
  rw [none] at same
  cases same

/-- The attempt returns. -/
theorem ends_of_value (attempts : Nat) {state middle : St W} {out : Str}
    (ran : attempt interp self caller dsn item state =
      ⟨middle, out, .value ()⟩) :
    Ends (rounds interp self caller dsn item (attempts + 1) state)
      (loop interp self caller dsn item (attempts + 1) state) state
      ⟨state, ⟨middle, out, .value ()⟩, none⟩ := by
  have body : (attempt interp self caller dsn item >>= fun _ => M.leave)
      state = ⟨(M.leave middle).state, out, (M.leave middle).outcome⟩ := by
    rw [Prog.bind_eq ran, leave_silent middle, List.append_nil]
  have whole : loop interp self caller dsn item (attempts + 1) state =
      ⟨(M.leave middle).state, out, (M.leave middle).outcome⟩ := by
    rw [loop_succ]
    cases left : (M.leave middle).outcome with
    | value result =>
        rw [left] at body
        exact Prog.tryCatch_eq body _
    | halt reason =>
        rw [left] at body
        exact Prog.tryCatch_halt body _
    | error exception =>
        exact absurd left (M.leave_raises_nothing middle exception)
  constructor
  · unfold rounds
    simp only [ran]
  · rw [whole]
  · rfl
  · intro proper depth parents entered
    rw [whole]
    exact iff_of_true (leave_layers (proper.kept.trans entered))
      (not_refused_none rfl)

theorem ends_of_halt (attempts : Nat) {state middle : St W} {out : Str}
    {reason : Halt} (ran : attempt interp self caller dsn item state =
      ⟨middle, out, .halt reason⟩) :
    Ends (rounds interp self caller dsn item (attempts + 1) state)
      (loop interp self caller dsn item (attempts + 1) state) state
      ⟨state, ⟨middle, out, .halt reason⟩, none⟩ := by
  have whole : loop interp self caller dsn item (attempts + 1) state =
      ⟨middle, out, .halt reason⟩ := by
    rw [loop_succ]
    exact Prog.tryCatch_halt (Prog.bind_halt ran _) _
  constructor
  · unfold rounds
    simp only [ran]
  · rw [whole]
  · rfl
  · intro proper
    exact proper.finished.elim

section Raised

variable {state middle : St W} {out : Str} {exception : Exc}

/-- The attempt raises an exception of another kind. -/
theorem ends_of_other (attempts : Nat)
    (ran : attempt interp self caller dsn item state =
      ⟨middle, out, .error exception⟩)
    (other : exception.cls ≠ .brokenConnection) :
    Ends (rounds interp self caller dsn item (attempts + 1) state)
      (loop interp self caller dsn item (attempts + 1) state) state
      ⟨state, ⟨middle, out, .error exception⟩, none⟩ := by
  have raises := loop_succ interp self caller dsn item attempts
  have silent : Prog.Silent
      (M.leave >>= fun _ => Prog.throw exception : M W Unit) :=
    Prog.Silent.bind leave_silent fun _ => Prog.Silent.throw exception
  have whole : loop interp self caller dsn item (attempts + 1) state =
      ⟨((M.leave >>= fun _ => Prog.throw exception : M W Unit) middle).state,
        out, ((M.leave >>= fun _ => Prog.throw exception : M W Unit)
          middle).outcome⟩ := by
    rw [raises, Prog.tryCatch_error (Prog.bind_error ran _),
      if_neg (by simpa using other), silent middle, List.append_nil]
  constructor
  · unfold rounds
    simp only [ran, if_neg (fun both : _ ∧ _ => other both.1)]
  · rw [whole]
  · rfl
  · intro proper depth parents entered
    rw [whole]
    apply iff_of_true _ (not_refused_none rfl)
    have left := leave_layers (proper.kept.trans entered)
    exact (Prog.view_bind (fun _ _ => rfl) M.leave middle).trans left

/-- The connection breaks in the last attempt. -/
theorem ends_of_last (ran : attempt interp self caller dsn item state =
      ⟨middle, out, .error exception⟩)
    (broken : exception.cls = .brokenConnection) :
    Ends (rounds interp self caller dsn item 1 state)
      (loop interp self caller dsn item 1 state) state
      ⟨state, ⟨middle, out, .error exception⟩, none⟩ := by
  have whole : loop interp self caller dsn item 1 state =
      ⟨(giveUp interp item exception middle).state, out,
        (giveUp interp item exception middle).outcome⟩ := by
    rw [loop_succ, Prog.tryCatch_error (Prog.bind_error ran _),
      if_pos (by simpa using broken), if_pos rfl,
      giveUp_silent interp item exception middle, List.append_nil]
  constructor
  · unfold rounds
    simp only [ran, ne_eq, not_true_eq_false, and_false, if_false]
  · rw [whole]
  · rfl
  · intro proper depth parents entered
    rw [whole]
    exact iff_of_true
      (giveUp_layers interp item exception (proper.kept.trans entered))
      (not_refused_none rfl)

/-- The connection breaks, and another attempt is announced. -/
theorem step_of_broken {attempts : Nat}
    (ran : attempt interp self caller dsn item state =
      ⟨middle, out, .error exception⟩)
    (broken : exception.cls = .brokenConnection) (left : attempts ≠ 0) :
    (∃ round, Ends (rounds interp self caller dsn item (attempts + 1) state)
        (loop interp self caller dsn item (attempts + 1) state) state round) ∨
      attempts ≠ 0 ∧ ∃ round later,
        GoesOn (rounds interp self caller dsn item (attempts + 1) state)
          (rounds interp self caller dsn item attempts later)
          (loop interp self caller dsn item (attempts + 1) state)
          (loop interp self caller dsn item attempts later) state later
          round := by
  have handled : loop interp self caller dsn item (attempts + 1) state =
      ⟨((announce interp item exception >>= fun _ =>
          loop interp self caller dsn item attempts) middle).state,
        out ++ ((announce interp item exception >>= fun _ =>
          loop interp self caller dsn item attempts) middle).out,
        ((announce interp item exception >>= fun _ =>
          loop interp self caller dsn item attempts) middle).outcome⟩ := by
    rw [loop_succ, Prog.tryCatch_error (Prog.bind_error ran _),
      if_pos (by simpa using broken), if_neg left]
  have unrolled : rounds interp self caller dsn item (attempts + 1) state =
      ⟨state, ⟨middle, out, .error exception⟩,
          some (announce interp item exception middle).outcome⟩ ::
        match (announce interp item exception middle).outcome with
        | .value _ => rounds interp self caller dsn item attempts
            (announce interp item exception middle).state
        | _ => [] := by
    conv_lhs => unfold rounds
    simp only [ran, if_pos (And.intro broken left)]
  have silent := announce_silent interp item exception middle
  have same := announce_contexts interp item exception middle
  cases answer : announce interp item exception middle with
  | mk later written outcome =>
      rw [answer] at silent same unrolled
      simp only at silent
      subst silent
      cases outcome with
      | value result =>
          rw [Prog.bind_silent answer] at handled
          apply Or.inr
          refine ⟨left, ⟨state, ⟨middle, out, .error exception⟩,
            some (.value result)⟩, later, ?_⟩
          constructor
          · exact unrolled
          · rw [handled]
          · rw [handled]
          · rfl
          · exact layers_of_contexts same
          · exact ⟨exception, rfl, broken⟩
          · rintro ⟨raised, same⟩
            cases same
      | error raised =>
          rw [Prog.bind_error answer] at handled
          apply Or.inl
          refine ⟨⟨state, ⟨middle, out, .error exception⟩,
            some (.error raised)⟩, ?_⟩
          constructor
          · exact unrolled
          · rw [handled]
            exact List.append_nil out
          · rfl
          · intro proper depth parents entered
            rw [handled]
            apply iff_of_false
            · rw [layers_of_contexts same, proper.kept.trans entered]
              simp
            · intro told
              exact told ⟨raised, rfl⟩
      | halt reason =>
          rw [Prog.bind_halt answer] at handled
          apply Or.inl
          refine ⟨⟨state, ⟨middle, out, .error exception⟩,
            some (.halt reason)⟩, ?_⟩
          constructor
          · exact unrolled
          · rw [handled]
            exact List.append_nil out
          · rfl
          · intro proper
            exact (proper.announces _ rfl).elim

end Raised

/-- One step of the loop. -/
theorem loop_step (attempts : Nat) (state : St W) :
    (∃ round, Ends (rounds interp self caller dsn item (attempts + 1) state)
        (loop interp self caller dsn item (attempts + 1) state) state round) ∨
      attempts ≠ 0 ∧ ∃ round later,
        GoesOn (rounds interp self caller dsn item (attempts + 1) state)
          (rounds interp self caller dsn item attempts later)
          (loop interp self caller dsn item (attempts + 1) state)
          (loop interp self caller dsn item attempts later) state later
          round := by
  cases ran : attempt interp self caller dsn item state with
  | mk middle out outcome =>
      cases outcome with
      | value result =>
          exact .inl ⟨_, ends_of_value interp self caller dsn item attempts ran⟩
      | halt reason =>
          exact .inl ⟨_, ends_of_halt interp self caller dsn item attempts ran⟩
      | error exception =>
          by_cases broken : exception.cls = .brokenConnection
          · cases attempts with
            | zero =>
                exact .inl
                  ⟨_, ends_of_last interp self caller dsn item ran broken⟩
            | succ attempts =>
                exact step_of_broken interp self caller dsn item ran broken
                  (Nat.succ_ne_zero attempts)
          · exact .inl
              ⟨_, ends_of_other interp self caller dsn item attempts ran broken⟩

/-- All rounds but the last ended with a broken connection. -/
theorem rounds_split (attempts : Nat) (state : St W) :
    ∃ earlier last, rounds interp self caller dsn item (attempts + 1) state =
        earlier ++ [last] ∧
      (∀ round ∈ earlier, round.Broken) ∧
      (loop interp self caller dsn item (attempts + 1) state).out =
        earlier.flatMap (fun round => round.run.out) ++ last.run.out := by
  induction attempts generalizing state with
  | zero =>
      rcases loop_step interp self caller dsn item 0 state with
        ⟨round, ends⟩ | ⟨left, round, later, goesOn⟩
      · refine ⟨[], round, ends.rounds_eq, ?_, ends.out_eq⟩
        intro other member
        cases member
      · exact absurd rfl left
  | succ attempts induction =>
      rcases loop_step interp self caller dsn item (attempts + 1) state with
        ⟨round, ends⟩ | ⟨left, round, later, goesOn⟩
      · refine ⟨[], round, ends.rounds_eq, ?_, ends.out_eq⟩
        intro other member
        cases member
      · obtain ⟨earlier, last, split, broken, written⟩ := induction later
        refine ⟨round :: earlier, last, ?_, ?_, ?_⟩
        · rw [goesOn.rounds_eq, split]
          rfl
        · intro other member
          rcases List.mem_cons.mp member with rfl | member
          · exact goesOn.broken
          · exact broken other member
        · rw [goesOn.out_eq, written, List.flatMap_cons, List.append_assoc]

/-- With proper rounds, the loop leaves the layer it was entered with unless
the logger raised. -/
theorem loop_layers (attempts : Nat) {state : St W}
    (proper : ∀ round ∈
      rounds interp self caller dsn item (attempts + 1) state, round.Proper)
    {depth : Nat} {parents : List Nat}
    (entered : layers state = (depth + 1) :: parents) :
    layers (loop interp self caller dsn item (attempts + 1) state).state =
        depth :: parents ↔
      ∀ round ∈ rounds interp self caller dsn item (attempts + 1) state,
        ¬ round.Refused := by
  induction attempts generalizing state with
  | zero =>
      rcases loop_step interp self caller dsn item 0 state with
        ⟨round, ends⟩ | ⟨left, round, later, goesOn⟩
      · rw [ends.rounds_eq, List.forall_mem_singleton] at proper ⊢
        exact ends.balances proper depth parents entered
      · exact absurd rfl left
  | succ attempts induction =>
      rcases loop_step interp self caller dsn item (attempts + 1) state with
        ⟨round, ends⟩ | ⟨left, round, later, goesOn⟩
      · rw [ends.rounds_eq, List.forall_mem_singleton] at proper ⊢
        exact ends.balances proper depth parents entered
      · rw [goesOn.rounds_eq, List.forall_mem_cons] at proper ⊢
        have kept : layers later = (depth + 1) :: parents := by
          rw [goesOn.layers_eq, proper.1.kept, goesOn.start_eq, entered]
        rw [goesOn.state_eq, induction proper.2 kept]
        constructor
        · intro rest
          exact ⟨goesOn.announced, rest⟩
        · rintro ⟨-, rest⟩
          exact rest

/-- The output of a run with these rounds: what the attempt that ends it has
written, unless its connection broke. -/
def WrittenOnce (made : List (Round W)) (out : Str) : Prop :=
  ∃ earlier last, made = earlier ++ [last] ∧
    (last.Broken → out = []) ∧ (¬ last.Broken → out = last.run.out)

/-- The output is right exactly when the attempts with a broken connection
have written nothing. -/
theorem writtenOnce_iff (attempts : Nat) (state : St W) :
    WrittenOnce (rounds interp self caller dsn item (attempts + 1) state)
        (loop interp self caller dsn item (attempts + 1) state).out ↔
      ∀ round ∈ rounds interp self caller dsn item (attempts + 1) state,
        round.Broken → round.run.out = [] := by
  obtain ⟨earlier, last, split, broken, written⟩ :=
    rounds_split interp self caller dsn item attempts state
  rw [split, written]
  constructor
  · rintro ⟨others, ending, same, nothing, all⟩
    obtain ⟨rfl, single⟩ := List.append_inj' same rfl
    cases single
    by_cases breaks : last.Broken
    · obtain ⟨before, behind⟩ := List.append_eq_nil_iff.mp (nothing breaks)
      have silent := List.flatMap_eq_nil_iff.mp before
      intro round member _
      rcases List.mem_append.mp member with early | late
      · exact silent round early
      · rw [List.mem_singleton.mp late]
        exact behind
    · have silent := List.flatMap_eq_nil_iff.mp
        (List.append_left_eq_self.mp (all breaks))
      intro round member still
      rcases List.mem_append.mp member with early | late
      · exact silent round early
      · rw [List.mem_singleton.mp late] at still
        exact absurd still breaks
  · intro silent
    have before : earlier.flatMap (fun round => round.run.out) = [] := by
      apply List.flatMap_eq_nil_iff.mpr
      intro round member
      exact silent round (List.mem_append_left _ member) (broken round member)
    rw [before, List.nil_append]
    refine ⟨earlier, last, rfl, ?_, fun _ => rfl⟩
    exact silent last (List.mem_append_right _ (List.mem_singleton_self last))

/-- A layer, and up to three attempts in it. -/
def connected : M W Unit := do
  M.enter
  loop interp self caller dsn item 3

/-- Everything before the layer; without a result, the database is published
already. -/
def pooled : M W (Option (Str × Nat)) := do
  let dsn ← interp.getParameter self "dsn"
  let database ← interp.getParameter self "id"
  Prog.when dsn.isEmpty
    (Prog.throw (interp.dcl.exception
      "data source name (dsn) is not defined" []))
  let pointer ← M.getValue (databaseHandle.toList ++ database)
  if !pointer.isEmpty then pure none
  else do
    let item ← M.io (interp.outside.pgsql.acquire dsn)
    pure (some (dsn, item))

theorem execute_eq :
    execute interp self caller =
      pooled interp self >>= fun
        | none => interp.executeChilds self caller
        | some (dsn, item) => connected interp self caller dsn item := by
  unfold execute pooled
  simp only [Prog.bind_assoc]
  apply congrArg
  funext dsn
  apply congrArg
  funext database
  apply congrArg
  funext _
  apply congrArg
  funext pointer
  split
  · rfl
  · rw [Prog.bind_assoc]
    rfl

/-- The run starts with one more layer of the context at hand. -/
theorem connected_eq (state : St W) :
    connected interp self caller dsn item state =
      loop interp self caller dsn item 3 (state.mapHead Context.enter) := by
  have entered : (M.enter : M W Unit) state =
      ⟨state.mapHead Context.enter, [], .value ()⟩ := rfl
  exact Prog.bind_silent entered _

end Loop

/-- The tag makes its attempts in a layer of its own.  It writes what the last
of them has written, and nothing more, exactly when those whose connection
broke have written nothing; and if the attempts keep the layers, the tag does,
exactly when the logger does not raise while another attempt is announced. -/
theorem reconnecting_writes_once_iff (interp : Interp W) (self : Loc)
    (caller : Option Loc) :
    (execute interp self caller =
      pooled interp self >>= fun
        | none => interp.executeChilds self caller
        | some (dsn, item) => connected interp self caller dsn item) ∧
    ∀ dsn item (before : St W),
      (WrittenOnce
          (rounds interp self caller dsn item 3
            (before.mapHead Context.enter))
          (connected interp self caller dsn item before).out ↔
        ∀ round ∈ rounds interp self caller dsn item 3
            (before.mapHead Context.enter),
          round.Broken → round.run.out = []) ∧
      (before.contexts ≠ [] →
        (∀ round ∈ rounds interp self caller dsn item 3
          (before.mapHead Context.enter), round.Proper) →
        (layers (connected interp self caller dsn item before).state =
            layers before ↔
          ∀ round ∈ rounds interp self caller dsn item 3
            (before.mapHead Context.enter), ¬ round.Refused)) := by
  constructor
  · exact execute_eq interp self caller
  intro dsn item before
  rw [connected_eq]
  constructor
  · exact writtenOnce_iff interp self caller dsn item 2 _
  · intro chain proper
    obtain ⟨context, parents, here⟩ := List.exists_cons_of_ne_nil chain
    have outside : layers before = context.stack.length ::
        parents.map fun context => context.stack.length := by
      unfold layers
      rw [here]
      rfl
    have inside : layers (before.mapHead Context.enter) =
        (context.stack.length + 1) ::
          parents.map fun context => context.stack.length := by
      unfold layers St.mapHead
      rw [here]
      rfl
    rw [outside]
    exact loop_layers interp self caller dsn item 2 proper inside

/-! ## A commit that fails -/

/-- An interpreter in which the children write a text and then commit.  The
world says how often the connection breaks in between. -/
def committing : Interp Nat :=
  let closed := Outside.closed Nat
  { outside := { closed with
      pgsql := { closed.pgsql with
        connection := fun _ world => (world, .value (some 0))
        reset := fun _ => id }
      system := { closed.system with
        log := fun _ _ world => (world, .value ()) } }
    budget := 0
    run := fun _ _ => do
      Prog.emit "x".toList
      M.io fun world =>
        match world with
        | 0 => (0, .value ())
        | left + 1 => (left, .error ⟨.brokenConnection, [], 0⟩)
    evaluate := fun _ _ => pure [] }

/-- A database tag around a transaction. -/
def databaseTag : Loc :=
  ⟨.mk 0 .pgsqlDatabase [] [.mk 1 .pgsqlTransaction [] [] []] [], []⟩

def started (breaks : Nat) : St Nat :=
  { contexts := [{ Context.newLocal with services := true }]
    vectors := ∅
    maps := ∅
    nextAddr := 1
    world := breaks
    trace := [] }

theorem unbroken_written_once :
    (started 0).contexts ≠ [] ∧
      (∀ round ∈ rounds committing databaseTag none [] 0 3
        ((started 0).mapHead Context.enter), round.Proper) ∧
      layers (connected committing databaseTag none [] 0 (started 0)).state =
        layers (started 0) := by
  have made : rounds committing databaseTag none [] 0 3
      ((started 0).mapHead Context.enter) =
      [⟨(started 0).mapHead Context.enter, attempt committing databaseTag none
        [] 0 ((started 0).mapHead Context.enter), none⟩] := rfl
  have chain : (started 0).contexts ≠ [] := List.cons_ne_nil _ _
  have proper : ∀ round ∈ rounds committing databaseTag none [] 0 3
      ((started 0).mapHead Context.enter), round.Proper := by
    rw [made, List.forall_mem_singleton]
    constructor
    · exact trivial
    · intro outcome same
      cases same
    · rfl
  refine ⟨chain, proper, ?_⟩
  apply (((reconnecting_writes_once_iff committing databaseTag none).2 [] 0
    (started 0)).2 chain proper).mpr
  rw [made, List.forall_mem_singleton]
  exact not_refused_none rfl

/-- The connection breaks at the first commit: the text is written twice. -/
theorem broken_commit_repeats_output :
    (connected committing databaseTag none [] 0 (started 1)).out =
        "xx".toList ∧
      ¬ WrittenOnce (rounds committing databaseTag none [] 0 3
          ((started 1).mapHead Context.enter))
        (connected committing databaseTag none [] 0 (started 1)).out := by
  constructor
  · rfl
  · rw [connected_eq, writtenOnce_iff]
    intro silent
    have member : (⟨(started 1).mapHead Context.enter,
        attempt committing databaseTag none [] 0
          ((started 1).mapHead Context.enter), some (.value ())⟩ : Round Nat) ∈
        rounds committing databaseTag none [] 0 3
          ((started 1).mapHead Context.enter) := List.mem_cons_self
    have written := silent _ member ⟨⟨.brokenConnection, [], 0⟩, rfl, rfl⟩
    cases written

end DbPager.Pgsql.TagDatabase
