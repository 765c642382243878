import DbPager.Library.Output
import DbPager.Plain

/-!
# The rows of a query

The query tag of `dbp_sqlite` executes its body for the rows of a result.  A
statement without rows is told apart from a change of the database by the
number of rows the connection has changed last.
-/

namespace DbPager

open Effect

variable {W : Type}

/-- The result of a program may be computed after its layer is left. -/
theorem M.withLayer_map {α β : Type} (body : M W α) (change : α → β) :
    M.withLayer (body >>= fun value => pure (change value)) =
      M.withLayer body >>= fun value => pure (change value) := by
  unfold M.withLayer
  rw [Prog.onError_map]
  simp only [Prog.bind_assoc, Prog.pure_bind]

namespace Sqlite

namespace TagQuery

abbrev Row := List (Option Str × Option Str)

/-- What the tag relies on while it executes a SELECT statement: `remaining`
are the rows of its result that `sqlite3_step` has not returned yet, and
`history` is, latest first, how many rows the INSERT, UPDATE and DELETE
statements on the connection have changed. -/
structure Select (api : SqliteApi W) (connection stmt : Nat) where
  remaining : W → List Row
  history : W → List Nat
  step_row : ∀ world row rest, remaining world = row :: rest →
    ∃ later, api.step stmt world = (later, .value (.row row)) ∧
      remaining later = rest ∧ history later = history world
  step_done : ∀ world, remaining world = [] →
    ∃ later, api.step stmt world = (later, .value .done) ∧
      remaining later = [] ∧ history later = history world
  changes : ∀ world, api.changes connection world =
    (world, .value ((history world).headD 0))

/-- The binding of the parameters. -/
def bindParameters (interp : Interp W) (self : Loc) (stmt : Nat) :
    M W Unit := do
  let passed ← interp.getParameter self "parameters"
  let names ← M.io (interp.outside.sqlite.parameterNames stmt)
  bindAll interp stmt 1 names (interp.dcl.tokens passed)

/-- The execution of the statement once its parameters are bound. -/
def fetch (interp : Interp W) (self : Loc) (caller : Option Loc)
    (connection stmt : Nat) : M W Unit := do
  match ← M.io (interp.outside.sqlite.step stmt) with
  | .done =>
      let changes ← M.io (interp.outside.sqlite.changes connection)
      if changes > 0 then do
        M.change (interp.outside.sqlite.reset stmt)
        M.withLayer (interp.executeChilds self caller)
      else rows interp self caller stmt interp.budget .done
  | code => rows interp self caller stmt interp.budget code

/-- The connection, and the statement prepared on it. -/
def prepared (interp : Interp W) (self : Loc) : M W (Nat × Nat) := do
  let connection ← databasePointer interp self databaseHandle
  let statement ← interp.getParameter self "statement"
  match ← M.io (interp.outside.sqlite.prepare connection statement) with
  | none => Prog.throw (.dbp (interp.outside.sqlite.errstr 1))
  | some stmt => pure (connection, stmt)

theorem run_eq (interp : Interp W) (self : Loc) (caller : Option Loc)
    (connection stmt : Nat) :
    run interp self caller connection stmt =
      bindParameters interp self stmt >>= fun _ =>
        fetch interp self caller connection stmt := by
  unfold run bindParameters
  simp only [Prog.bind_assoc]
  rfl

/-- The statement is finalized however its execution ends. -/
theorem execute_eq (interp : Interp W) (self : Loc) (caller : Option Loc) :
    execute interp self caller =
      prepared interp self >>= fun ready =>
        ((bindParameters interp self ready.2 >>= fun _ =>
            fetch interp self caller ready.1 ready.2).onError
          (M.change (interp.outside.sqlite.finalize ready.2))) >>= fun _ =>
            M.change (interp.outside.sqlite.finalize ready.2) := by
  unfold execute prepared
  simp only [Prog.bind_assoc, run_eq]
  apply congrArg
  funext connection
  apply congrArg
  funext statement
  apply congrArg
  funext found
  cases found with
  | none => rfl
  | some stmt => rfl

/-- A column of a row as a variable: it has the column's value, NULL becomes
the empty text.  A column without a name means that there is no memory. -/
def columnVariable (interp : Interp W) : Option Str × Option Str → M W Unit
  | (some name, some value) => M.addValue interp.dcl name value
  | (some name, none) => M.addValue interp.dcl name []
  | (none, _) =>
      Prog.throw (interp.dcl.exception
        "Can't allocate memory to fetch query results" [])

/-- The body once for a row, in a new layer that holds the row's columns;
then the next row is asked for. -/
def rowBody (interp : Interp W) (self : Loc) (caller : Option Loc)
    (stmt : Nat) (columns : Row) : M W SqliteStep := do
  M.enter
  let next ← Prog.onError
    (do
      Prog.forEach (columnVariable interp) columns
      Prog.forEach (fun tag => interp.run (self.child tag) caller)
        self.tag.childs
      Prog.emit self.tag.text
      M.io (interp.outside.sqlite.step stmt))
    M.leave
  M.leave
  pure next

/-- The body once for each row, in their order. -/
def oncePerRow (interp : Interp W) (self : Loc) (caller : Option Loc)
    (stmt : Nat) (result : List Row) : M W Unit := do
  Prog.forEach
    (fun columns => rowBody interp self caller stmt columns >>= fun _ => pure ())
    result
  M.withLayer (M.change (interp.outside.sqlite.reset stmt))

theorem bindColumn_eq (interp : Interp W) :
    bindColumn interp = columnVariable interp := by
  funext ⟨name, value⟩
  cases name with
  | none => rfl
  | some name => cases value <;> rfl

theorem rowBody_eq (interp : Interp W) (self : Loc) (caller : Option Loc)
    (stmt : Nat) (columns : Row) :
    rowBody interp self caller stmt columns =
      M.withLayer (do
        Prog.forEach (bindColumn interp) columns
        interp.executeChilds self caller
        M.io (interp.outside.sqlite.step stmt)) := by
  unfold rowBody Interp.executeChilds
  rw [bindColumn_eq]
  simp only [Prog.bind_assoc]
  rfl

theorem round_row (interp : Interp W) (self : Loc) (caller : Option Loc)
    (stmt : Nat) (columns : Row) :
    round interp self caller stmt (.row columns) =
      rowBody interp self caller stmt columns >>= fun next =>
        pure (some next) := by
  rw [rowBody_eq, ← M.withLayer_map]
  simp only [Prog.bind_assoc]
  rfl

theorem round_done (interp : Interp W) (self : Loc) (caller : Option Loc)
    (stmt : Nat) :
    round interp self caller stmt .done =
      M.withLayer (M.change (interp.outside.sqlite.reset stmt)) >>= fun _ =>
        pure none := by
  rw [← M.withLayer_map]
  rfl

section Rows

variable {interp : Interp W} {self : Loc} {caller : Option Loc}
  {connection stmt : Nat}

/-- Binding the columns leaves the outside world alone. -/
theorem bindColumns_world (columns : Row) (state : St W) :
    (Prog.forEach (bindColumn interp) columns state).state.world =
      state.world := by
  have keeps : Keeps (Contract.viewing St.world)
      (Prog.forEach (bindColumn interp) columns) := by
    apply Keeps.forEach
    intro column _
    unfold bindColumn
    cases column.1 with
    | none => exact Keeps.throw _
    | some name =>
        apply Keeps.viewing_iff.mpr
        intro state
        exact M.addValue_world interp.dcl name _ state
  exact Keeps.viewing_iff.mp keeps state

variable (select : Select interp.outside.sqlite connection stmt)
  (kept : ∀ state, select.remaining
    (interp.executeChilds self caller state).state.world =
      select.remaining state.world)

include kept in
/-- After the body, `sqlite3_step` goes on to the next row. -/
theorem rowBody_value {columns : Row} {state final : St W} {out : Str}
    {next : SqliteStep}
    (ran : rowBody interp self caller stmt columns state =
      ⟨final, out, .value next⟩) :
    ∃ before, select.remaining before = select.remaining state.world ∧
      interp.outside.sqlite.step stmt before = (final.world, .value next) := by
  rw [rowBody_eq] at ran
  unfold M.withLayer at ran
  obtain ⟨entered, _, _, _, enter, ran, -⟩ := Prog.of_bind_value ran
  obtain ⟨middle, result, _, _, body, ran, -⟩ := Prog.of_bind_value ran
  obtain ⟨left, _, _, _, leave, ran, -⟩ := Prog.of_bind_value ran
  obtain ⟨bound, _, _, _, bind, body, -⟩ :=
    Prog.of_bind_value (Prog.of_onError_value body)
  obtain ⟨executed, _, _, _, childs, step, -⟩ := Prog.of_bind_value body
  have entering : entered.world = state.world := by
    have same := congrArg (fun run => run.state.world) enter
    exact same.symm
  have binding : bound.world = entered.world := by
    have same := @bindColumns_world _ interp columns entered
    rw [bind] at same
    exact same
  have executing : select.remaining executed.world =
      select.remaining bound.world := by
    have same := kept bound
    rw [childs] at same
    exact same
  have leaving : left.world = middle.world := by
    have same := M.leave_world middle
    rw [leave] at same
    exact same
  have ending : final = left ∧ next = result := by
    cases ran
    exact ⟨rfl, rfl⟩
  refine ⟨executed.world, ?_, ?_⟩
  · rw [executing, binding, entering]
  · have world := congrArg (fun run => run.state.world) step
    have outcome := congrArg Run.outcome step
    rw [ending.1, ending.2, leaving]
    exact Prod.ext world outcome

theorem oncePerRow_cons (columns : Row) (result : List Row) :
    oncePerRow interp self caller stmt (columns :: result) =
      rowBody interp self caller stmt columns >>= fun _ =>
        oncePerRow interp self caller stmt result := by
  unfold oncePerRow
  rw [Prog.forEach, Prog.bind_assoc, Prog.bind_assoc]
  rfl

theorem rows_row (budget : Nat) (columns : Row) :
    rows interp self caller stmt (budget + 1) (.row columns) =
      rowBody interp self caller stmt columns >>= fun next =>
        rows interp self caller stmt budget next := by
  rw [rows, round_row, Prog.bind_assoc]
  rfl

theorem rows_done (budget : Nat) :
    rows interp self caller stmt (budget + 1) .done =
      M.withLayer (M.change (interp.outside.sqlite.reset stmt)) := by
  rw [rows, round_done, Prog.bind_assoc]
  exact Prog.bind_pure _

include kept in
/-- The loop executes the body for the row at hand and for all that remain. -/
theorem rows_eq {rest : List Row} (budget : Nat) (columns : Row)
    {state : St W} (remaining : select.remaining state.world = rest)
    (enough : rest.length + 1 < budget) :
    rows interp self caller stmt budget (.row columns) state =
      oncePerRow interp self caller stmt (columns :: rest) state := by
  induction rest generalizing budget columns state with
  | nil =>
      obtain ⟨budget, rfl⟩ : ∃ less, budget = less + 2 :=
        ⟨budget - 2, by simp at enough; omega⟩
      rw [rows_row, oncePerRow_cons]
      cases ran : rowBody interp self caller stmt columns state with
      | mk final out outcome =>
          cases outcome with
          | value next =>
              obtain ⟨before, same, step⟩ := rowBody_value select kept ran
              obtain ⟨later, done, -, -⟩ := select.step_done before
                (same.trans remaining)
              rw [step] at done
              cases done
              rw [Prog.bind_eq ran, Prog.bind_eq ran, rows_done]
              rfl
          | error exception => rw [Prog.bind_error ran, Prog.bind_error ran]
          | halt reason => rw [Prog.bind_halt ran, Prog.bind_halt ran]
  | cons row rest induction =>
      obtain ⟨budget, rfl⟩ : ∃ less, budget = less + 1 :=
        ⟨budget - 1, by omega⟩
      rw [rows_row, oncePerRow_cons]
      cases ran : rowBody interp self caller stmt columns state with
      | mk final out outcome =>
          cases outcome with
          | value next =>
              obtain ⟨before, same, step⟩ := rowBody_value select kept ran
              obtain ⟨later, found, left, -⟩ := select.step_row before row rest
                (same.trans remaining)
              rw [step] at found
              cases found
              have shorter : rest.length + 1 < budget := by
                simp only [List.length_cons] at enough
                omega
              have loop := induction budget row left shorter
              rw [Prog.bind_eq ran, Prog.bind_eq ran, loop]
          | error exception => rw [Prog.bind_error ran, Prog.bind_error ran]
          | halt reason => rw [Prog.bind_halt ran, Prog.bind_halt ran]

include kept in
theorem fetch_row {columns : Row} {rest : List Row} {state : St W}
    (remaining : select.remaining state.world = columns :: rest)
    (enough : (columns :: rest).length < interp.budget) :
    fetch interp self caller connection stmt state =
      (M.io (interp.outside.sqlite.step stmt) >>= fun _ =>
        oncePerRow interp self caller stmt (columns :: rest)) state := by
  obtain ⟨later, step, left, -⟩ := select.step_row _ _ _ remaining
  have ran : M.io (interp.outside.sqlite.step stmt) state =
      ⟨{ state with world := later }, [], .value (.row columns)⟩ := by
    simp [M.io, Prog.act, step]
  unfold fetch
  rw [Prog.bind_silent ran, Prog.bind_silent ran]
  exact rows_eq select kept interp.budget columns left enough

/-- What happens to a statement that has no rows. -/
theorem fetch_empty {state : St W}
    (remaining : select.remaining state.world = [])
    (enough : 0 < interp.budget) :
    fetch interp self caller connection stmt state =
      (M.io (interp.outside.sqlite.step stmt) >>= fun _ =>
        if (select.history state.world).headD 0 > 0 then
          M.change (interp.outside.sqlite.reset stmt) >>= fun _ =>
            M.withLayer (interp.executeChilds self caller)
        else oncePerRow interp self caller stmt []) state := by
  obtain ⟨later, step, -, history⟩ := select.step_done _ remaining
  have ran : M.io (interp.outside.sqlite.step stmt) state =
      ⟨{ state with world := later }, [], .value .done⟩ := by
    simp [M.io, Prog.act, step]
  have changed : M.io (interp.outside.sqlite.changes connection)
      { state with world := later } =
        ⟨{ state with world := later }, [],
          .value ((select.history state.world).headD 0)⟩ := by
    simp [M.io, Prog.act, select.changes, history]
  obtain ⟨budget, bound⟩ : ∃ less, interp.budget = less + 1 :=
    ⟨interp.budget - 1, by omega⟩
  unfold fetch
  rw [Prog.bind_silent ran, Prog.bind_silent ran]
  simp only
  rw [Prog.bind_silent changed]
  split
  · rfl
  · rw [bound, rows_done]
    rfl

end Rows

/-- Whatever its body is, the tag executes it exactly once for each row of
the result, in their order, with the row's columns in a new layer.  The body
leaves the rest of the result alone, and the bound on the loop is large
enough. -/
def DrivesBody {api : SqliteApi W} {connection stmt : Nat}
    (select : Select api connection stmt) (world : W) : Prop :=
  ∀ (interp : Interp W) (self : Loc) (caller : Option Loc) (state : St W),
    interp.outside.sqlite = api → state.world = world →
    (∀ state, select.remaining
        (interp.executeChilds self caller state).state.world =
      select.remaining state.world) →
    (select.remaining world).length < interp.budget →
    fetch interp self caller connection stmt state =
      (M.io (api.step stmt) >>= fun _ =>
        oncePerRow interp self caller stmt (select.remaining world)) state

/-- A query tag that writes a letter. -/
def writingQuery : Loc :=
  ⟨.mk 0 .sqliteQuery [] [] "x".toList, []⟩

/-- An interpreter that reaches nothing but the database. -/
def databaseInterp (api : SqliteApi W) : Interp W :=
  { outside := { Outside.closed W with sqlite := api }
    budget := 1
    run := fun _ _ => pure ()
    evaluate := fun _ _ => pure [] }

def freshState (world : W) : St W :=
  { contexts := [Context.newLocal], vectors := ∅, maps := ∅, nextAddr := 1
    world, trace := [] }

/-- The body of a statement without rows is executed after a change. -/
theorem not_drivesBody {api : SqliteApi W} {connection stmt : Nat}
    (select : Select api connection stmt) {world : W}
    (empty : select.remaining world = [])
    (changed : (select.history world).headD 0 > 0) :
    ¬ DrivesBody select world := by
  intro drives
  have ran := drives (databaseInterp api) writingQuery none (freshState world)
    rfl rfl (fun _ => rfl) (by rw [empty]; exact Nat.zero_lt_one)
  obtain ⟨later, step, -, -⟩ := select.step_done _ empty
  have stepped : M.io (api.step stmt) (freshState world) =
      ⟨freshState later, [], .value .done⟩ := by
    simp [M.io, Prog.act, freshState, step]
  have fetched := @fetch_empty _ (databaseInterp api) writingQuery none
    connection stmt select (freshState world) empty Nat.zero_lt_one
  have changedHere : (select.history (freshState world).world).headD 0 > 0 :=
    changed
  rw [if_pos changedHere] at fetched
  have executed := fetched.trans (Prog.bind_silent stepped _)
  rw [executed, Prog.bind_silent stepped, empty] at ran
  have written : "x".toList = [] := congrArg Run.out ran
  cases written

/-- The tag prepares its statement, binds the parameters and fetches.  From
any state of the connection, the body of a SELECT statement is executed once
per row exactly when there is a row, or when the last INSERT, UPDATE or DELETE
on the connection changed none. -/
theorem select_drives_body {api : SqliteApi W} {connection stmt : Nat}
    (select : Select api connection stmt) (world : W) :
    (∀ (interp : Interp W) (self : Loc) (caller : Option Loc),
      execute interp self caller =
        prepared interp self >>= fun ready =>
          ((bindParameters interp self ready.2 >>= fun _ =>
              fetch interp self caller ready.1 ready.2).onError
            (M.change (interp.outside.sqlite.finalize ready.2))) >>= fun _ =>
              M.change (interp.outside.sqlite.finalize ready.2)) ∧
    (DrivesBody select world ↔
      select.remaining world ≠ [] ∨ (select.history world).headD 0 = 0) := by
  constructor
  · intro interp self caller
    exact execute_eq interp self caller
  constructor
  · intro drives
    by_contra neither
    rw [not_or, not_not] at neither
    exact not_drivesBody select neither.1 (Nat.pos_of_ne_zero neither.2) drives
  · rintro condition interp self caller state rfl rfl kept enough
    cases remaining : select.remaining state.world with
    | nil =>
        have unchanged := condition.resolve_left (not_not.mpr remaining)
        rw [remaining] at enough
        rw [fetch_empty select remaining enough, unchanged]
        rfl
    | cons columns rest =>
        rw [remaining] at enough
        exact fetch_row select kept remaining enough

/-- A connection whose statement has the given rows, with its history. -/
def sampleApi : SqliteApi (List Row × List Nat) :=
  { (Outside.closed (List Row × List Nat)).sqlite with
    step := fun _ world =>
      match world.1 with
      | [] => (world, .value .done)
      | row :: rest => ((rest, world.2), .value (.row row))
    changes := fun _ world => (world, .value (world.2.headD 0)) }

def sampleSelect : Select sampleApi 1 2 where
  remaining := Prod.fst
  history := Prod.snd
  step_row := by
    rintro ⟨rows, history⟩ row rest rfl
    exact ⟨(rest, history), rfl, rfl, rfl⟩
  step_done := by
    rintro ⟨rows, history⟩ rfl
    exact ⟨([], history), rfl, rfl, rfl⟩
  changes := fun _ => rfl

/-- One row is fetched after an INSERT. -/
theorem select_drives_body_row :
    DrivesBody sampleSelect ([[(some "a".toList, some "1".toList)]], [1]) :=
  (select_drives_body sampleSelect _).2.mpr (.inl (List.cons_ne_nil _ _))

/-- After an INSERT of one row, the body of a SELECT without rows is
executed. -/
theorem body_without_row : ¬ DrivesBody sampleSelect ([], [1]) :=
  not_drivesBody sampleSelect rfl Nat.zero_lt_one

end TagQuery

end Sqlite

end DbPager
