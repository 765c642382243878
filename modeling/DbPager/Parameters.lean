import DbPager.Placeholders

/-!
# Positional parameters

An unnamed placeholder of a statement takes the next of the passed values.
The odbc query tag binds nothing once the values are used up; the pgsql query
tag reads on.  The number of unnamed placeholders is read off the roles of the
characters of the statement, the values are a list of their own.
-/

namespace DbPager

open Effect

variable {W : Type}

/-- The values for the placeholders with the given names, an empty name for an
unnamed one. -/
def positional (named : Str → Option Str) :
    List Str → List Str → List (Option Str)
  | [], _ => []
  | name :: names, passed =>
      if name.isEmpty then passed.head? :: positional named names passed.tail
      else named name :: positional named names passed

/-- The number of unnamed placeholders. -/
def unnamedNames (names : List Str) : Nat :=
  names.countP List.isEmpty

/-- The unnamed placeholders get the passed values in their order. -/
theorem positional_unnamed (named : Str → Option Str) {names passed : List Str}
    (enough : unnamedNames names ≤ passed.length) :
    ((names.zip (positional named names passed)).filter
        fun entry => entry.1.isEmpty).map Prod.snd =
      (passed.take (unnamedNames names)).map some := by
  induction names generalizing passed with
  | nil => rfl
  | cons name names induction =>
      by_cases unnamed : name.isEmpty = true
      · have count : unnamedNames (name :: names) = unnamedNames names + 1 := by
          simp [unnamedNames, unnamed]
        rw [count] at enough ⊢
        cases passed with
        | nil => exact absurd enough (Nat.not_succ_le_zero _)
        | cons value passed =>
            have rest := induction (Nat.le_of_succ_le_succ enough)
            simp only [positional, unnamed, ↓reduceIte, List.zip_cons_cons,
              List.filter_cons_of_pos, List.map_cons, List.head?_cons,
              List.tail_cons, List.take_succ_cons, rest]
      · have count : unnamedNames (name :: names) = unnamedNames names := by
          simp [unnamedNames, unnamed]
        rw [count] at enough ⊢
        have rest := induction enough
        simpa [positional, unnamed] using rest

/-- The odbc query tag binds for every list of values. -/
theorem Odbc.TagQuery.values_eq (names passed : List Str) (state : St W) :
    Odbc.TagQuery.values names passed state =
      ⟨state, [], .value (positional
        (fun name => some (Chain.getValue name state.contexts))
        names passed)⟩ := by
  induction names generalizing passed with
  | nil => rfl
  | cons name names induction =>
      unfold Odbc.TagQuery.values positional
      split
      · rw [Prog.bind_silent (induction passed.tail)]
        rfl
      · rw [Prog.bind_silent (M.getValue_eq name state),
          Prog.bind_silent (induction passed)]
        rfl

namespace Pgsql

namespace TagQuery

/-- The value of a named placeholder; an empty one is NULL. -/
def namedValue (state : St W) (name : Str) : Option Str :=
  let value := Chain.getValue name state.contexts
  if value.isEmpty then none else some value

theorem values_eq {names passed : List Str}
    (enough : unnamedNames names ≤ passed.length) (state : St W) :
    values names passed state =
      ⟨state, [], .value (positional (namedValue state) names passed)⟩ := by
  induction names generalizing passed with
  | nil => rfl
  | cons name names induction =>
      unfold values positional
      split
      · rename_i unnamed
        cases passed with
        | nil => simp [unnamedNames, unnamed] at enough
        | cons value passed =>
            have fewer : unnamedNames names ≤ passed.length := by
              simpa [unnamedNames, unnamed] using enough
            simp only
            rw [Prog.bind_silent (induction fewer)]
            rfl
      · rename_i named
        have same : unnamedNames names ≤ passed.length := by
          simpa [unnamedNames, named] using enough
        rw [Prog.bind_silent (M.getValue_eq name state),
          Prog.bind_silent (induction same)]
        rfl

/-- With more unnamed placeholders than values the list is read past its
end. -/
theorem values_fault {names passed : List Str}
    (short : passed.length < unnamedNames names) (state : St W) :
    (values names passed state).outcome = .halt .fault := by
  induction names generalizing passed with
  | nil => exact absurd short (Nat.not_lt_zero _)
  | cons name names induction =>
      unfold values
      split
      · rename_i unnamed
        cases passed with
        | nil => rfl
        | cons value passed =>
            have shorter : passed.length < unnamedNames names := by
              simpa [unnamedNames, unnamed] using short
            exact Prog.outcome_bind_halt (induction shorter) _
      · rename_i named
        have same : passed.length < unnamedNames names := by
          simpa [unnamedNames, named] using short
        rw [Prog.bind_silent (M.getValue_eq name state)]
        exact Prog.outcome_bind_halt (induction same) _

/-- The placeholders without a name among the characters of a statement. -/
def unnamedMarks : List (Char × Role) → Nat
  | [] => 0
  | (_, .mark) :: rest =>
      (if (rest.head?.map Prod.snd) = some .name then 0 else 1) +
        unnamedMarks rest
  | _ :: rest => unnamedMarks rest

theorem unnamedNames_render (dcl : Dcl) (n : Nat)
    (roles : List (Char × Role)) :
    unnamedNames (render dcl n roles).2 = unnamedMarks roles := by
  induction roles generalizing n with
  | nil => rfl
  | cons entry rest induction =>
      obtain ⟨c, role⟩ := entry
      cases role with
      | copied => exact induction n
      | name => exact induction n
      | mark =>
          have later := induction (n + 1)
          unfold unnamedNames at later ⊢
          cases rest with
          | nil => rfl
          | cons next rest =>
              obtain ⟨d, following⟩ := next
              rw [render, List.countP_cons, later, unnamedMarks]
              cases following <;> simp [Nat.add_comm]

/-- The number of unnamed placeholders of a statement. -/
def unnamed (statement : Str) : Nat :=
  unnamedMarks (Reading.start.roles statement)

/-- The names in the text and the values that are passed give the values that
are bound. -/
def binding (dcl : Dcl) (text : Str) (passed : List Str) :
    M W (List (Option Str)) :=
  match parse dcl text with
  | none => Prog.halt .timeout
  | some parsed => values parsed.2 passed

/-- What the query tag reads before it binds: the text of the statement, which
is prepared, and the passed values. -/
def reading (interp : Interp W) (self : Loc) (connection work : Nat) :
    M W (Str × List Str) := do
  let text ← interp.getParameter self "statement"
  match parse interp.dcl text with
  | none => Prog.halt .timeout
  | some (statement, _) => do
      M.io (interp.outside.pgsql.prepare connection work statement)
      let passed ← interp.getParameter self "parameters"
      pure (text, interp.dcl.tokens passed)

theorem run_eq (interp : Interp W) (self : Loc) (connection work : Nat) :
    run interp self connection work =
      reading interp self connection work >>= fun ready =>
        binding interp.dcl ready.1 ready.2 >>= fun bound =>
          M.io (interp.outside.pgsql.exec work bound) := by
  unfold run reading
  rw [Prog.bind_assoc]
  apply congrArg
  funext text
  rw [parse_eq]
  simp only [Prog.bind_assoc, Prog.pure_bind, binding, parse_eq]

/-- The number of unnamed placeholders decides how the binding ends. -/
theorem binding_eq (dcl : Dcl) {text : Str} {passed : List Str}
    (enough : unnamed text ≤ passed.length) (state : St W) :
    binding dcl text passed state =
      ⟨state, [], .value (positional (namedValue state)
        (render dcl 0 (Reading.start.roles text)).2 passed)⟩ := by
  unfold binding
  rw [parse_eq]
  apply values_eq
  rw [unnamedNames_render]
  exact enough

theorem binding_fault (dcl : Dcl) {text : Str} {passed : List Str}
    (short : passed.length < unnamed text) (state : St W) :
    (binding dcl text passed state).outcome = .halt .fault := by
  unfold binding
  rw [parse_eq]
  apply values_fault
  rw [unnamedNames_render]
  exact short

/-- The binding stays inside the passed list: it gives the values, or raises
an exception. -/
def InRange (dcl : Dcl) (text : Str) (passed : List Str) (state : St W) :
    Prop :=
  (binding dcl text passed state).outcome.Finished

theorem inRange_iff (dcl : Dcl) (text : Str) (passed : List Str)
    (state : St W) :
    InRange dcl text passed state ↔ unnamed text ≤ passed.length := by
  unfold InRange
  constructor
  · intro finished
    by_contra short
    rw [binding_fault dcl (Nat.lt_of_not_le short) state] at finished
    exact finished
  · intro enough
    rw [binding_eq dcl enough state]
    trivial

/-- The query tag binds what it has read and stays inside the passed list
exactly when the statement has at most as many unnamed placeholders as values
are passed.  They then get the first values in their order; otherwise the run
of the tag ends where the list does. -/
theorem parameters_in_range_iff (interp : Interp W) (self : Loc)
    (connection work : Nat) :
    (run interp self connection work =
      reading interp self connection work >>= fun ready =>
        binding interp.dcl ready.1 ready.2 >>= fun bound =>
          M.io (interp.outside.pgsql.exec work bound)) ∧
    ∀ (text : Str) (passed : List Str) (state : St W),
      (InRange interp.dcl text passed state ↔
        unnamed text ≤ passed.length) ∧
      (unnamed text ≤ passed.length →
        ∃ (query : Str) (names : List Str) (bound : List (Option Str)),
          parse interp.dcl text = some (query, names) ∧
          binding interp.dcl text passed state =
            ⟨state, [], .value bound⟩ ∧
          ((names.zip bound).filter fun entry => entry.1.isEmpty).map
            Prod.snd = (passed.take (unnamed text)).map some) ∧
      (passed.length < unnamed text → ∀ start out,
        reading interp self connection work start =
          ⟨state, out, .value (text, passed)⟩ →
        (run interp self connection work start).outcome = .halt .fault) := by
  refine ⟨run_eq interp self connection work, fun text passed state =>
    ⟨inRange_iff interp.dcl text passed state, ?_, ?_⟩⟩
  · intro enough
    refine ⟨_, _, _, parse_eq interp.dcl text,
      binding_eq interp.dcl enough state, ?_⟩
    have count := unnamedNames_render interp.dcl 0 (Reading.start.roles text)
    rw [positional_unnamed _ (by rw [count]; exact enough), count]
    rfl
  · intro short start out ran
    have stopped := binding_fault interp.dcl short state
    rw [run_eq, Prog.bind_eq ran]
    exact Prog.outcome_bind_halt stopped _

/-- A question mark and no value. -/
theorem missing_value_read :
    ¬ ∀ (text : Str) (passed : List Str) (state : St Unit),
      InRange Dcl.plain text passed state := by
  intro inRange
  have enough := (inRange_iff Dcl.plain "select ?".toList []
    ⟨[], ∅, ∅, 0, (), []⟩).mp (inRange _ _ _)
  exact absurd enough (by decide)

end TagQuery

end Pgsql

end DbPager
