import DbPager.Library.Effect

/-!
# Limits and guarded programs

A family of programs, one for each bound on its resources, tends to a program
that either stops or is what the members of the family do from some bound on.
A guarded program is the special case of a family that does not depend on the
bound: a copy of a program that stops at certain places and is otherwise the
same.  What is proved about the runs of the limit that do not stop holds of
the programs themselves.
-/

namespace Effect

namespace Prog

variable {σ τ ε ω α β : Type} {stop : Halt → Prop}

/-- `limit` stops, or does what the family does from some bound on. -/
def Tends (stop : Halt → Prop) (family : Nat → Prog σ ε ω α)
    (limit : Prog σ ε ω α) : Prop :=
  ∀ state, (∃ reason, stop reason ∧ (limit state).outcome = .halt reason) ∨
    ∃ enough, ∀ bound, enough ≤ bound → family bound state = limit state

namespace Tends

theorem refl (program : Prog σ ε ω α) : Tends stop (fun _ => program) program :=
  fun _ => .inr ⟨0, fun _ _ => rfl⟩

theorem stopped {reason : Halt} (stops : stop reason)
    (family : Nat → Prog σ ε ω α) : Tends stop family (halt reason) :=
  fun _ => .inl ⟨reason, stops, rfl⟩

/-- Only large bounds matter. -/
theorem shift {family : Nat → Prog σ ε ω α} {limit : Prog σ ε ω α}
    (tends : Tends stop (fun bound => family (bound + 1)) limit) :
    Tends stop family limit := by
  intro state
  rcases tends state with halted | ⟨enough, same⟩
  · exact .inl halted
  · refine .inr ⟨enough + 1, ?_⟩
    intro bound large
    cases bound with
    | zero => exact absurd large (Nat.not_succ_le_zero enough)
    | succ bound => exact same bound (Nat.le_of_succ_le_succ large)

/-- Only what the limit can return has to be looked at. -/
theorem bind_of {family : Nat → Prog σ ε ω α} {limit : Prog σ ε ω α}
    {next : Nat → α → Prog σ ε ω β} {limitNext : α → Prog σ ε ω β}
    (first : Tends stop family limit)
    (rest : ∀ state result, (limit state).outcome = .value result →
      Tends stop (fun bound => next bound result) (limitNext result)) :
    Tends stop (fun bound => family bound >>= next bound)
      (limit >>= limitNext) := by
  intro state
  rcases first state with ⟨reason, stops, halted⟩ | ⟨enough, same⟩
  · exact .inl ⟨reason, stops, outcome_bind_halt halted limitNext⟩
  · cases ran : limit state with
    | mk middle out outcome =>
        rw [ran] at same
        cases outcome with
        | value result =>
            rw [bind_eq ran]
            rcases rest state result (by rw [ran]) middle with halted | ⟨further, later⟩
            · exact .inl halted
            · refine .inr ⟨max enough further, ?_⟩
              intro bound large
              have after : next bound result middle =
                  limitNext result middle := later bound (by omega)
              have whole := bind_eq (same bound (by omega)) (next bound)
              rw [after] at whole
              exact whole
        | error exception =>
            rw [bind_error ran]
            refine .inr ⟨enough, ?_⟩
            intro bound large
            exact bind_error (same bound large) (next bound)
        | halt reason =>
            rw [bind_halt ran]
            refine .inr ⟨enough, ?_⟩
            intro bound large
            exact bind_halt (same bound large) (next bound)

theorem bind {family : Nat → Prog σ ε ω α} {limit : Prog σ ε ω α}
    {next : Nat → α → Prog σ ε ω β} {limitNext : α → Prog σ ε ω β}
    (first : Tends stop family limit)
    (rest : ∀ result, Tends stop (fun bound => next bound result)
      (limitNext result)) :
    Tends stop (fun bound => family bound >>= next bound)
      (limit >>= limitNext) :=
  first.bind_of fun _ result _ => rest result

/-- A limit that stops at the end in one case more. -/
theorem check {family : Nat → Prog σ ε ω α} {limit : Prog σ ε ω α}
    (tends : Tends stop family limit) (stops : stop .fault) (stopped : Bool) :
    Tends stop family
      (limit >>= fun result => if stopped then halt .fault else pure result) := by
  intro state
  cases ran : limit state with
  | mk middle out outcome =>
      cases outcome with
      | value result =>
          rw [bind_eq ran]
          cases stopped with
          | true => exact .inl ⟨.fault, stops, rfl⟩
          | false =>
              have same := tends state
              rw [ran] at same
              simpa [Pure.pure, Prog.pure] using same
      | error exception =>
          rw [bind_error ran, ← ran]
          exact tends state
      | halt reason =>
          rw [bind_halt ran, ← ran]
          exact tends state

theorem ite {condition : Prop} [Decidable condition]
    {first second : Nat → Prog σ ε ω α} {limit other : Prog σ ε ω α}
    (holds : Tends stop first limit) (fails : Tends stop second other) :
    Tends stop (fun bound => if condition then first bound else second bound)
      (if condition then limit else other) := by
  by_cases decided : condition
  · simp only [if_pos decided]
    exact holds
  · simp only [if_neg decided]
    exact fails

theorem tryCatch {family : Nat → Prog σ ε ω α} {limit : Prog σ ε ω α}
    {handler : Nat → ε → Prog σ ε ω α} {limitHandler : ε → Prog σ ε ω α}
    (body : Tends stop family limit)
    (handled : ∀ exception, Tends stop (fun bound => handler bound exception)
      (limitHandler exception)) :
    Tends stop (fun bound => (family bound).tryCatch (handler bound))
      (limit.tryCatch limitHandler) := by
  intro state
  rcases body state with ⟨reason, stops, halted⟩ | ⟨enough, same⟩
  · refine .inl ⟨reason, stops, ?_⟩
    cases ran : limit state with
    | mk middle out outcome =>
        rw [ran] at halted
        cases halted
        rw [tryCatch_halt ran]
  · cases ran : limit state with
    | mk middle out outcome =>
        rw [ran] at same
        cases outcome with
        | value result =>
            rw [tryCatch_eq ran]
            refine .inr ⟨enough, ?_⟩
            intro bound large
            exact tryCatch_eq (same bound large) (handler bound)
        | halt reason =>
            rw [tryCatch_halt ran]
            refine .inr ⟨enough, ?_⟩
            intro bound large
            exact tryCatch_halt (same bound large) (handler bound)
        | error exception =>
            rw [tryCatch_error ran]
            rcases handled exception middle with halted | ⟨further, later⟩
            · exact .inl halted
            · refine .inr ⟨max enough further, ?_⟩
              intro bound large
              have after : handler bound exception middle =
                  limitHandler exception middle := later bound (by omega)
              have whole := tryCatch_error (same bound (by omega))
                (handler bound)
              rw [after] at whole
              exact whole

/-- An operation on programs that only looks at the run of the program, at
one state, and hands a stop on. -/
theorem map {τ' : Type} {family : Nat → Prog σ ε ω α}
    {limit : Prog σ ε ω α} (body : Tends stop family limit)
    (operation : Prog σ ε ω α → Prog τ' ε ω β) (start : τ' → σ)
    (local_ : ∀ first second state, first (start state) =
      second (start state) → operation first state = operation second state)
    (stops : ∀ program state reason,
      (program (start state)).outcome = .halt reason →
      (operation program state).outcome = .halt reason) :
    Tends stop (fun bound => operation (family bound)) (operation limit) := by
  intro state
  rcases body (start state) with ⟨reason, stopped, halted⟩ | ⟨enough, same⟩
  · exact .inl ⟨reason, stopped, stops limit state reason halted⟩
  · refine .inr ⟨enough, ?_⟩
    intro bound large
    exact local_ _ _ state (same bound large)

theorem capture {family : Nat → Prog σ ε ω Unit} {limit : Prog σ ε ω Unit}
    (body : Tends stop family limit) :
    Tends stop (fun bound => (family bound).capture) limit.capture := by
  apply body.map Prog.capture id
  · intro first second state same
    unfold Prog.capture
    simp only [id] at same
    rw [same]
  · intro program state reason halted
    unfold Prog.capture
    cases ran : program state with
    | mk middle out outcome =>
        simp only [id, ran] at halted
        cases halted
        rfl

theorem lift {family : Nat → Prog σ ε ω α} {limit : Prog σ ε ω α}
    (body : Tends stop family limit) :
    Tends stop (fun bound => (family bound).lift)
      (limit.lift : Prog (σ × τ) ε ω α) := by
  apply body.map Prog.lift Prod.fst
  · intro first second state same
    unfold Prog.lift
    rw [same]
  · intro program state reason halted
    exact halted

theorem within {family : Nat → Prog (σ × τ) ε ω α}
    {limit : Prog (σ × τ) ε ω α} (body : Tends stop family limit)
    (initial : τ) :
    Tends stop (fun bound => (family bound).within initial)
      (limit.within initial) := by
  apply body.map (Prog.within initial) fun state => (state, initial)
  · intro first second state same
    unfold Prog.within
    rw [same]
  · intro program state reason halted
    exact halted

theorem forEach {body : Nat → α → Prog σ ε ω Unit}
    {limit : α → Prog σ ε ω Unit} {items : List α}
    (tends : ∀ item, item ∈ items →
      Tends stop (fun bound => body bound item) (limit item)) :
    Tends stop (fun bound => Prog.forEach (body bound) items)
      (Prog.forEach limit items) := by
  induction items with
  | nil => exact refl _
  | cons item items induction =>
      apply bind (tends item List.mem_cons_self)
      intro _
      apply induction
      intro other member
      exact tends other (List.mem_cons_of_mem item member)

end Tends

/-- `guarded` stops with a fault or does what `program` does. -/
def Guards (guarded program : Prog σ ε ω α) : Prop :=
  Tends (fun reason => reason = .fault) (fun _ => program) guarded

namespace Guards

theorem resolve {guarded program : Prog σ ε ω α}
    (guards : Guards guarded program) {state : σ}
    (runs : (guarded state).outcome ≠ .halt .fault) :
    program state = guarded state := by
  rcases guards state with ⟨reason, stops, halted⟩ | ⟨enough, same⟩
  · rw [stops] at halted
    exact absurd halted runs
  · exact same enough (Nat.le_refl enough)

theorem of_eq {guarded program : Prog σ ε ω α}
    (same : ∀ state, (guarded state).outcome = .halt .fault ∨
      guarded state = program state) : Guards guarded program := by
  intro state
  rcases same state with halted | same
  · exact .inl ⟨.fault, rfl, halted⟩
  · exact .inr ⟨0, fun _ _ => same.symm⟩

theorem refl (program : Prog σ ε ω α) : Guards program program :=
  Tends.refl program

theorem fault (program : Prog σ ε ω α) : Guards (halt .fault) program :=
  fun _ => .inl ⟨.fault, rfl, rfl⟩

theorem bind {guarded program : Prog σ ε ω α}
    {guardedNext next : α → Prog σ ε ω β} (first : Guards guarded program)
    (rest : ∀ result, Guards (guardedNext result) (next result)) :
    Guards (guarded >>= guardedNext) (program >>= next) :=
  Tends.bind first rest

theorem tryCatch {guarded program : Prog σ ε ω α}
    {guardedHandler handler : ε → Prog σ ε ω α}
    (body : Guards guarded program)
    (handled : ∀ exception,
      Guards (guardedHandler exception) (handler exception)) :
    Guards (guarded.tryCatch guardedHandler) (program.tryCatch handler) :=
  Tends.tryCatch body handled

end Guards

/-- A loop stops where its body stops after the items before. -/
theorem forEach_halts_iff {body : α → Prog σ ε ω Unit} {items : List α}
    {state : σ} {reason : Halt} :
    (Prog.forEach body items state).outcome = .halt reason ↔
      ∃ before item after middle out, items = before ++ item :: after ∧
        Prog.forEach body before state = ⟨middle, out, .value ()⟩ ∧
        (body item middle).outcome = .halt reason := by
  constructor
  · intro halted
    induction items generalizing state with
    | nil => cases halted
    | cons item items induction =>
        cases ran : body item state with
        | mk middle out outcome =>
            cases outcome with
            | halt stopped =>
                rw [Prog.forEach, bind_halt ran] at halted
                refine ⟨[], item, items, state, [], rfl, rfl, ?_⟩
                rw [ran]
                exact halted
            | error exception =>
                rw [Prog.forEach, bind_error ran] at halted
                cases halted
            | value result =>
                rw [Prog.forEach, bind_eq ran] at halted
                obtain ⟨before, last, after, final, more, rfl, passed, stops⟩ :=
                  induction halted
                refine ⟨item :: before, last, after, final, out ++ more, rfl,
                  ?_, stops⟩
                rw [Prog.forEach, bind_eq ran, passed]
  · rintro ⟨before, item, after, middle, out, rfl, passed, stops⟩
    rw [forEach_append_eq (item :: after) passed, Prog.forEach]
    exact outcome_bind_halt stops _

/-- A program that never runs out of its step budget. -/
def Ends (program : Prog σ ε ω α) : Prop :=
  ∀ state, (program state).outcome ≠ .halt .timeout

namespace Ends

theorem bind {first : Prog σ ε ω α} {next : α → Prog σ ε ω β}
    (firstEnds : Ends first) (nextEnds : ∀ result, Ends (next result)) :
    Ends (first >>= next) := by
  intro state
  have ended := firstEnds state
  cases ran : first state with
  | mk middle out outcome =>
      rw [ran] at ended
      cases outcome with
      | value result =>
          rw [bind_eq ran]
          exact nextEnds result middle
      | error exception =>
          rw [bind_error ran]
          exact nofun
      | halt reason =>
          rw [bind_halt ran]
          intro same
          cases same
          exact ended rfl

theorem capture {body : Prog σ ε ω Unit} (ends : Ends body) :
    Ends body.capture := by
  intro state
  have ended := ends state
  unfold Prog.capture
  cases ran : body state with
  | mk middle out outcome =>
      rw [ran] at ended
      cases outcome with
      | value result => exact nofun
      | error exception => exact nofun
      | halt reason =>
          intro same
          cases same
          exact ended rfl

theorem forEach {body : α → Prog σ ε ω Unit} {items : List α}
    (ends : ∀ item, item ∈ items → Ends (body item)) :
    Ends (Prog.forEach body items) := by
  induction items with
  | nil => exact fun _ => nofun
  | cons item items induction =>
      apply bind (ends item List.mem_cons_self)
      intro _
      apply induction
      intro other member
      exact ends other (List.mem_cons_of_mem item member)

theorem pure (result : α) : Ends (Pure.pure result : Prog σ ε ω α) :=
  fun _ => nofun

theorem throw (exception : ε) : Ends (Prog.throw exception : Prog σ ε ω α) :=
  fun _ => nofun

theorem emit (out : List ω) : Ends (Prog.emit out : Prog σ ε ω Unit) :=
  fun _ => nofun

theorem fault : Ends (Prog.halt .fault : Prog σ ε ω α) :=
  fun _ => nofun

theorem orThrow (exception : ε) (result : Option α) :
    Ends (Prog.orThrow exception result : Prog σ ε ω α) := by
  intro state
  cases result <;> exact nofun

end Ends

end Prog

end Effect
