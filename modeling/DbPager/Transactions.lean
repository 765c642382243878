import DbPager.Plain

/-!
# Transactions

A transaction tag begins a transaction, executes its children, and commits.
Everything else that can happen to the children arrives as an exception, and
then the transaction is rolled back: an error, but also the match of a
`dbp:case` whose `dbp:switch` stands around the transaction.
-/

namespace DbPager

open Effect

variable {W : Type}

namespace Transaction

/-- The modules with a transaction tag. -/
inductive Dbms where
  | pgsql
  | sqlite
  | odbc
  deriving DecidableEq

/-- What becomes of a transaction. -/
inductive Ending where
  | committed
  | rolledBack
  deriving DecidableEq

namespace Dbms

variable (interp : Interp W)

/-- The `execute` method of the transaction tag. -/
def execute (self : Loc) (caller : Option Loc) : Dbms → M W Unit
  | .pgsql => Pgsql.TagTransaction.execute interp self caller
  | .sqlite => Sqlite.TagTransaction.execute interp self caller
  | .odbc => Odbc.TagTransaction.execute interp self caller

/-- Everything before the body.  The result is the transaction or, where a
connection has only one, the connection. -/
def begin (self : Loc) : Dbms → M W Nat
  | .pgsql => do
      let connection ← databasePointer interp self Pgsql.databaseHandle
      rewrap (M.io (interp.outside.pgsql.work connection)) (pure ())
  | .sqlite => do
      let connection ← databasePointer interp self Sqlite.databaseHandle
      Sqlite.exec interp connection "BEGIN"
      pure connection
  | .odbc => do
      let connection ← databasePointer interp self Odbc.databaseHandle
      M.io (interp.outside.odbc.beginTransaction connection)
      pure connection

def body (self : Loc) (caller : Option Loc) (handle : Nat) : Dbms → M W Unit
  | .pgsql => do
      M.addValue interp.dcl Pgsql.workHandle (interp.dcl.toStringPtr handle)
      interp.executeChilds self caller
  | .sqlite | .odbc => interp.executeChilds self caller

def commit (handle : Nat) : Dbms → M W Unit
  | .pgsql => M.io (interp.outside.pgsql.commit handle)
  | .sqlite => Sqlite.exec interp handle "COMMIT"
  | .odbc => M.io (interp.outside.odbc.commit handle)

def rollback (handle : Nat) : Dbms → M W Unit
  | .pgsql => M.change (interp.outside.pgsql.abort handle)
  | .sqlite => Sqlite.exec interp handle "ROLLBACK"
  | .odbc => M.io (interp.outside.odbc.rollback handle)

/-- Only pgsql publishes its transaction in a layer of its own. -/
def layered (body : M W Unit) : Dbms → M W Unit
  | .pgsql => M.withLayer body
  | .sqlite | .odbc => body

/-- The state in which the body starts. -/
def entered (state : St W) : Dbms → St W
  | .pgsql => state.mapHead Context.enter
  | .sqlite | .odbc => state

/-- The three tags have one shape. -/
theorem execute_eq (dbms : Dbms) (self : Loc) (caller : Option Loc) :
    dbms.execute interp self caller =
      (dbms.begin interp self >>= fun handle =>
        dbms.layered (Prog.onError
          (dbms.body interp self caller handle >>= fun _ =>
            dbms.commit interp handle)
          (dbms.rollback interp handle))) := by
  cases dbms with
  | pgsql =>
      unfold begin body
      simp only [Prog.bind_assoc]
      rfl
  | sqlite =>
      unfold begin
      simp only [Prog.bind_assoc]
      rfl
  | odbc =>
      unfold begin
      simp only [Prog.bind_assoc]
      rfl

end Dbms

/-- The database layer honours commit and rollback: both return, and the
ledger of ended transactions says which of them it was. -/
structure Honours (interp : Interp W) (dbms : Dbms)
    (ledger : W → List (Nat × Ending)) : Prop where
  commit : ∀ handle state, ∃ world,
    dbms.commit interp handle state = ⟨{ state with world }, [], .value ()⟩ ∧
      ledger world = (handle, .committed) :: ledger state.world
  rollback : ∀ handle state, ∃ world,
    dbms.rollback interp handle state =
        ⟨{ state with world }, [], .value ()⟩ ∧
      ledger world = (handle, .rolledBack) :: ledger state.world

theorem layered_world (dbms : Dbms) (body : M W Unit) (state : St W) :
    (dbms.layered body state).state.world =
      (body (dbms.entered state)).state.world := by
  cases dbms with
  | pgsql => exact M.withLayer_view M.leave_world body state
  | sqlite => rfl
  | odbc => rfl

/-- A `dbp:switch` is active: its variable is bound. -/
def SwitchActive (state : St W) : Prop :=
  Chain.lookup switchVar state.contexts ≠ none

/-- The body was left by the match of a `dbp:case` of an enclosing
`dbp:switch`. -/
def LeftByCase (state : St W) (outcome : Outcome Exc Unit) : Prop :=
  SwitchActive state ∧
    ∃ exception, outcome = .error exception ∧ exception.cls = .tagCase

/-- A transaction ends as it should: committed unless an error leaves the
body. -/
def EndsRightly (ledger : W → List (Nat × Ending)) (handle : Nat)
    (state middle final : St W) (outcome : Outcome Exc Unit) : Prop :=
  ((∃ result, outcome = .value result) ∨ LeftByCase state outcome →
    ledger final.world = (handle, .committed) :: ledger middle.world) ∧
  ((∃ exception, outcome = .error exception) ∧ ¬ LeftByCase state outcome →
    ledger final.world = (handle, .rolledBack) :: ledger middle.world)

section Run

variable {interp : Interp W} {dbms : Dbms}
  {ledger : W → List (Nat × Ending)} (honours : Honours interp dbms ledger)
  {self : Loc} {caller : Option Loc} {state started middle : St W}
  {handle : Nat} {out : Str}

include honours

theorem commits {result : Unit}
    (begun : dbms.begin interp self state = ⟨started, [], .value handle⟩)
    (ran : dbms.body interp self caller handle (dbms.entered started) =
      ⟨middle, out, .value result⟩) :
    ledger (dbms.execute interp self caller state).state.world =
      (handle, .committed) :: ledger middle.world := by
  obtain ⟨world, committed, entry⟩ := honours.commit handle middle
  have inside : (dbms.body interp self caller handle >>= fun _ =>
      dbms.commit interp handle) (dbms.entered started) =
      ⟨{ middle with world }, out ++ [], .value ()⟩ := by
    rw [Prog.bind_eq ran, committed]
  rw [Dbms.execute_eq, Prog.bind_silent begun, layered_world,
    Prog.onError_eq inside]
  exact entry

theorem rollsBack {exception : Exc}
    (begun : dbms.begin interp self state = ⟨started, [], .value handle⟩)
    (ran : dbms.body interp self caller handle (dbms.entered started) =
      ⟨middle, out, .error exception⟩) :
    ledger (dbms.execute interp self caller state).state.world =
      (handle, .rolledBack) :: ledger middle.world := by
  obtain ⟨world, undone, entry⟩ := honours.rollback handle middle
  have inside : (dbms.body interp self caller handle >>= fun _ =>
      dbms.commit interp handle) (dbms.entered started) =
      ⟨middle, out, .error exception⟩ := Prog.bind_error ran _
  rw [Dbms.execute_eq, Prog.bind_silent begun, layered_world]
  unfold Prog.onError
  rw [Prog.tryCatch_error inside, Prog.bind_silent undone]
  exact entry

/-- A transaction ends as it should exactly when its body is not left by the
match of a case of an enclosing switch. -/
theorem transaction_ends_rightly {outcome : Outcome Exc Unit}
    (begun : dbms.begin interp self state = ⟨started, [], .value handle⟩)
    (ran : dbms.body interp self caller handle (dbms.entered started) =
      ⟨middle, out, outcome⟩) :
    EndsRightly ledger handle state middle
        (dbms.execute interp self caller state).state outcome ↔
      ¬ LeftByCase state outcome := by
  cases outcome with
  | value result =>
      have committed := commits honours begun ran
      have normal : ¬ LeftByCase state (.value result) := by
        rintro ⟨_, exception, same, _⟩
        cases same
      constructor
      · intro _
        exact normal
      · intro _
        constructor
        · intro _
          exact committed
        · rintro ⟨⟨exception, same⟩, _⟩
          cases same
  | error exception =>
      have undone := rollsBack honours begun ran
      constructor
      · intro rightly left
        have committed := rightly.1 (.inr left)
        rw [undone] at committed
        cases committed
      · intro other
        constructor
        · rintro (⟨result, same⟩ | left)
          · cases same
          · exact absurd left other
        · intro _
          exact undone
  | halt reason =>
      have stopped : ¬ LeftByCase state (.halt reason) := by
        rintro ⟨_, exception, same, _⟩
        cases same
      constructor
      · intro _
        exact stopped
      · intro _
        constructor
        · rintro (⟨result, same⟩ | left)
          · cases same
          · exact absurd left stopped
        · rintro ⟨⟨exception, same⟩, _⟩
          cases same

end Run

/-- A world that is nothing but the ledger of an odbc server. -/
def ledgerOutside : Outside (List (Nat × Ending)) :=
  let closed := Outside.closed (List (Nat × Ending))
  { closed with
    odbc := { closed.odbc with
      beginTransaction := fun _ world => (world, .value ())
      commit := fun handle world => ((handle, .committed) :: world, .value ())
      rollback := fun handle world =>
        ((handle, .rolledBack) :: world, .value ()) } }

theorem ledgerOutside_honours (budget : Nat)
    (run : Loc → Option Loc → M (List (Nat × Ending)) Unit) :
    Honours (Interp.ofRun ledgerOutside budget run) .odbc id := by
  constructor
  · intro handle state
    exact ⟨(handle, .committed) :: state.world, rfl, rfl⟩
  · intro handle state
    exact ⟨(handle, .rolledBack) :: state.world, rfl, rfl⟩

/-- A database is open. -/
def openState : St (List (Nat × Ending)) :=
  { contexts := [Context.newLocal.addValue "@ODBC:DATABASE@".toList
      "7".toList]
    vectors := ∅
    maps := ∅
    nextAddr := 1
    world := []
    trace := [] }

/-- A transaction around a text. -/
def textTransaction : Loc :=
  ⟨.mk 1 .odbcTransaction [] [.mk 2 .expression [] [] "done".toList] [], []⟩

theorem transaction_ends_rightly_text :
    EndsRightly id 7 openState openState
      (Dbms.odbc.execute (Interp.ofRun ledgerOutside 3
        (execute ledgerOutside 3)) textTransaction none openState).state
      (.value ()) := by
  have begun : Dbms.odbc.begin (Interp.ofRun ledgerOutside 3
      (execute ledgerOutside 3)) textTransaction openState =
      ⟨openState, [], .value 7⟩ := rfl
  have ran : Dbms.odbc.body (Interp.ofRun ledgerOutside 3
      (execute ledgerOutside 3)) textTransaction none 7
      (Dbms.odbc.entered openState) =
      ⟨openState, "done".toList, .value ()⟩ := rfl
  apply (transaction_ends_rightly (ledgerOutside_honours _ _) begun ran).mpr
  rintro ⟨_, exception, same, _⟩
  cases same

/-- A transaction that the matching case of a switch leaves. -/
def switchedTransaction : Loc :=
  ⟨.mk 1 .switch [("test".toList, "1".toList)]
    [.mk 2 .odbcTransaction []
      [.mk 3 .case [("match".toList, "1".toList)]
        [.mk 4 .expression [] [] "done".toList] []] []] [], []⟩

/-- The match of a case rolls the transaction around it back, although the
script goes on as if nothing had happened. -/
theorem case_rolls_back :
    (execute ledgerOutside 6 switchedTransaction none openState).outcome =
        .value () ∧
      (execute ledgerOutside 6 switchedTransaction none openState).out =
        "done".toList ∧
      (execute ledgerOutside 6 switchedTransaction none
        openState).state.world = [(7, .rolledBack)] := by
  constructor
  · rfl
  constructor
  · rfl
  · rfl

end Transaction

end DbPager
