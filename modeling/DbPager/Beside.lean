import DbPager.Assignment
import DbPager.Congruence
import DbPager.Families.Modules

/-!
# Inside and outside of markup

A script inside of an HTML element finds the variable of the renderer set and
is otherwise where it would be outside.  Two states that differ in nothing
else stay so through every tag that neither writes markup nor names that
variable, if the layers entered since have been entered in both.
-/

namespace DbPager

open Effect

open Effect.Prog (Guards Related Relates)

variable {W : Type}

theorem findVar_append (key : Str) (inner outer : List Vars) :
    findVar key (inner ++ outer) =
      (findVar key inner).or (findVar key outer) := by
  induction inner with
  | nil => rfl
  | cons layer inner induction =>
      simp only [List.cons_append, findVar, induction]
      cases layer.lookup key <;> rfl

theorem assignVar_append (key value : Str) (inner outer : List Vars) :
    assignVar key value (inner ++ outer) =
      match assignVar key value inner with
      | some changed => some (changed ++ outer)
      | none => (assignVar key value outer).map (inner ++ ·) := by
  induction inner with
  | nil => exact Option.map_id'.symm
  | cons layer inner induction =>
      simp only [List.cons_append, assignVar, induction]
      cases layer.lookup key with
      | some old => rfl
      | none =>
          cases assignVar key value inner with
          | some changed => rfl
          | none =>
              simp only [Option.map_none, Option.map_map]
              rfl

theorem findVar_insert (key other value : Str) (layer : Vars)
    (layers : List Vars) :
    findVar other (layer.insert key value :: layers) =
      if other = key then some value else findVar other (layer :: layers) := by
  unfold findVar
  by_cases same : other = key
  · subst same
    rw [AList.lookup_insert, if_pos rfl]
  · rw [AList.lookup_insert_ne same, if_neg same]

/-- Two layers of layers with the same variables, but for that of the
renderer. -/
structure SameBut (first second : List Vars) : Prop where
  empty : first = [] ↔ second = []
  values : ∀ key, key ≠ htmlFirst → findVar key first = findVar key second

namespace SameBut

variable {first second : List Vars} (same : SameBut first second)
include same

theorem assign {key : Str} (other : key ≠ htmlFirst) (value : Str) :
    (assignVar key value first = none ∧ assignVar key value second = none) ∨
      ∃ left right, assignVar key value first = some left ∧
        assignVar key value second = some right ∧ SameBut left right := by
  have found := same.values key other
  cases bound : findVar key first with
  | none =>
      rw [bound] at found
      exact .inl ⟨assignVar_unbound bound, assignVar_unbound found.symm⟩
  | some old =>
      rw [bound] at found
      obtain ⟨left, leftAssigned, leftHolds⟩ :
          ∃ left, assignVar key value first = some left ∧
            findVar key left = some value := assignVar_bound bound
      obtain ⟨right, rightAssigned, rightHolds⟩ :
          ∃ right, assignVar key value second = some right ∧
            findVar key right = some value := assignVar_bound found.symm
      refine .inr ⟨left, right, leftAssigned, rightAssigned, ?_, ?_⟩
      · constructor
        · rintro rfl
          cases leftHolds
        · rintro rfl
          cases rightHolds
      · intro name marked
        by_cases here : name = key
        · rw [here, leftHolds, rightHolds]
        · rw [findVar_assignVar leftAssigned here,
            findVar_assignVar rightAssigned here, same.values name marked]

theorem add {key : Str} (value : Str) :
    SameBut (first.modifyHead (·.insert key value))
      (second.modifyHead (·.insert key value)) := by
  have empty := same.empty
  have values := same.values
  cases first with
  | nil =>
      rw [empty.mp rfl]
      exact ⟨Iff.rfl, fun _ _ => rfl⟩
  | cons layer layers =>
      cases second with
      | nil => exact absurd (empty.mpr rfl) (List.cons_ne_nil _ _)
      | cons layer' layers' =>
          refine ⟨iff_of_false (List.cons_ne_nil _ _) (List.cons_ne_nil _ _),
            ?_⟩
          intro name marked
          rw [List.modifyHead_cons, List.modifyHead_cons, findVar_insert,
            findVar_insert, values name marked]

end SameBut

/-- Two contexts that differ in that variable only, below at least `depth`
layers that they have in common. -/
structure Parallel (depth : Nat) (first second : Context) : Prop where
  type : first.type = second.type
  exec : first.exec = second.exec
  services : first.services = second.services
  layers : ∃ shared below beyond, first.stack = shared ++ below ∧
    second.stack = shared ++ beyond ∧ depth ≤ shared.length ∧
    SameBut below beyond

namespace Parallel

variable {depth : Nat} {first second : Context}

theorem of_same (type : first.type = second.type)
    (exec : first.exec = second.exec)
    (services : first.services = second.services)
    (layers : SameBut first.stack second.stack) : Parallel 0 first second :=
  ⟨type, exec, services, [], _, _, rfl, rfl, Nat.zero_le _, layers⟩

theorem fresh (context : Context) : Parallel 0 context context :=
  of_same rfl rfl rfl ⟨Iff.rfl, fun _ _ => rfl⟩

theorem less (parallel : Parallel (depth + 1) first second) :
    Parallel depth first second := by
  obtain ⟨type, exec, services, shared, below, beyond, left, right, deep,
    same⟩ := parallel
  exact ⟨type, exec, services, shared, below, beyond, left, right,
    Nat.le_of_succ_le deep, same⟩

theorem empty_iff (parallel : Parallel depth first second) :
    first.stack = [] ↔ second.stack = [] := by
  obtain ⟨-, -, -, shared, below, beyond, left, right, -, same⟩ := parallel
  rw [left, right, List.append_eq_nil_iff, List.append_eq_nil_iff, same.empty]

theorem findVar (parallel : Parallel depth first second) {key : Str}
    (other : key ≠ htmlFirst) :
    findVar key first.stack = findVar key second.stack := by
  obtain ⟨-, -, -, shared, below, beyond, left, right, -, same⟩ := parallel
  rw [left, right, findVar_append, findVar_append, same.values key other]

theorem enter (parallel : Parallel depth first second) :
    Parallel (depth + 1) first.enter second.enter := by
  obtain ⟨type, exec, services, shared, below, beyond, left, right, deep,
    same⟩ := parallel
  exact ⟨type, exec, services, ∅ :: shared, below, beyond,
    congrArg (∅ :: ·) left, congrArg (∅ :: ·) right,
    Nat.succ_le_succ deep, same⟩

theorem leave (parallel : Parallel (depth + 1) first second) :
    first.stack ≠ [] ∧ second.stack ≠ [] ∧
      Parallel depth first.dropLayer second.dropLayer := by
  obtain ⟨type, exec, services, shared, below, beyond, left, right, deep,
    same⟩ := parallel
  cases shared with
  | nil => exact absurd deep (Nat.not_succ_le_zero depth)
  | cons layer shared =>
      refine ⟨?_, ?_, type, exec, services, shared, below, beyond, ?_, ?_,
        Nat.le_of_succ_le_succ deep, same⟩
      · rw [left]
        exact List.cons_ne_nil _ _
      · rw [right]
        exact List.cons_ne_nil _ _
      · exact congrArg List.tail left
      · exact congrArg List.tail right

theorem assign (parallel : Parallel depth first second) {key : Str}
    (other : key ≠ htmlFirst) (value : Str) :
    (assignVar key value first.stack = none ∧
      assignVar key value second.stack = none) ∨
    ∃ left right, assignVar key value first.stack = some left ∧
      assignVar key value second.stack = some right ∧
      Parallel depth { first with stack := left }
        { second with stack := right } := by
  obtain ⟨type, exec, services, shared, below, beyond, left, right, deep,
    same⟩ := parallel
  rw [left, right, assignVar_append, assignVar_append]
  cases assigned : assignVar key value shared with
  | some changed =>
      have long : depth ≤ changed.length := by
        rw [← assignVar_length assigned]
        exact deep
      exact .inr ⟨_, _, rfl, rfl, type, exec, services, changed, below, beyond,
        rfl, rfl, long, same⟩
  | none =>
      rcases same.assign other value with ⟨none, none'⟩ |
        ⟨left, right, some, some', same⟩
      · left
        rw [none, none']
        exact ⟨rfl, rfl⟩
      · right
        rw [some, some']
        exact ⟨_, _, rfl, rfl, type, exec, services, shared, left, right, rfl,
          rfl, deep, same⟩

theorem add (parallel : Parallel depth first second) (name value : Str) :
    Parallel depth (first.addValue name value)
      (second.addValue name value) := by
  obtain ⟨type, exec, services, shared, below, beyond, left, right, deep,
    same⟩ := parallel
  cases shared with
  | nil =>
      have added : SameBut (first.addValue name value).stack
          (second.addValue name value).stack := by
        unfold Context.addValue
        rw [left, right]
        exact same.add value
      exact ⟨type, exec, services, [], _, _, rfl, rfl, deep, added⟩
  | cons layer shared =>
      refine ⟨type, exec, services, layer.insert (upName name) value :: shared,
        below, beyond, ?_, ?_, deep, same⟩
      · exact congrArg (List.modifyHead _) left
      · exact congrArg (List.modifyHead _) right

end Parallel

/-- The chains of two states, context by context, with the number of layers
in common. -/
inductive Chains : List Nat → List Context → List Context → Prop where
  | nil : Chains [] [] []
  | cons {depth : Nat} {depths : List Nat} {first second : Context}
      {firsts seconds : List Context} :
      Parallel depth first second → Chains depths firsts seconds →
      Chains (depth :: depths) (first :: firsts) (second :: seconds)

namespace Chains

variable {depth : Nat} {depths : List Nat} {firsts seconds : List Context}

theorem tail (chains : Chains (depth :: depths) firsts seconds) :
    Chains depths firsts.tail seconds.tail := by
  cases chains with
  | cons parallel chains => exact chains

theorem getValue (chains : Chains depths firsts seconds) {name : Str}
    (other : upName name ≠ htmlFirst) :
    Chain.getValue name firsts = Chain.getValue name seconds := by
  refine congrArg (fun found => Option.getD found []) ?_
  induction chains with
  | nil => rfl
  | cons parallel chains induction =>
      simp only [Chain.lookup, parallel.findVar other, induction]

theorem setValue (chains : Chains depths firsts seconds) {name : Str}
    (other : upName name ≠ htmlFirst) (value : Str) :
    (Chain.setValue name value firsts = none ∧
      Chain.setValue name value seconds = none) ∨
    ∃ left right, Chain.setValue name value firsts = some left ∧
      Chain.setValue name value seconds = some right ∧
      Chains depths left right := by
  induction chains with
  | nil => exact .inl ⟨rfl, rfl⟩
  | cons parallel chains induction =>
      unfold Chain.setValue
      rcases parallel.assign other value with ⟨none, none'⟩ |
        ⟨left, right, some, some', changed⟩
      · rw [none, none']
        rcases induction with ⟨missing, missing'⟩ |
          ⟨left, right, found, found', changed⟩
        · left
          rw [missing, missing']
          exact ⟨rfl, rfl⟩
        · right
          rw [found, found']
          exact ⟨_, _, rfl, rfl, .cons parallel changed⟩
      · right
        rw [some, some']
        exact ⟨_, _, rfl, rfl, .cons changed chains⟩

theorem addValue (chains : Chains depths firsts seconds) (dcl : Dcl)
    (name value type : Str) :
    (∃ left right, Chain.addValue dcl name value type firsts = .value left ∧
      Chain.addValue dcl name value type seconds = .value right ∧
      Chains depths left right) ∨
    (∃ exception,
      Chain.addValue dcl name value type firsts = .error exception ∧
      Chain.addValue dcl name value type seconds = .error exception) ∨
    ∃ reason, Chain.addValue dcl name value type firsts = .halt reason ∧
      Chain.addValue dcl name value type seconds = .halt reason := by
  induction chains generalizing type with
  | nil => exact .inr (.inl ⟨_, rfl, rfl⟩)
  | @cons depth depths first second firsts seconds parallel chains induction =>
      unfold Chain.addValue
      simp only [← parallel.type]
      by_cases here : dcl.compare
          (if type.isEmpty then first.type else type) first.type = true
      · simp only [if_pos here]
        have added := parallel.add name value
        have empty := parallel.empty_iff
        cases top : first.stack with
        | nil =>
            rw [empty.mp top]
            exact .inr (.inr ⟨_, rfl, rfl⟩)
        | cons layer layers =>
            cases top' : second.stack with
            | nil =>
                exact absurd (top ▸ empty.mpr top') (List.cons_ne_nil _ _)
            | cons layer' layers' =>
                unfold Context.addValue at added
                rw [top, top', ← parallel.type] at added
                exact .inl ⟨_, _, rfl, rfl, .cons added chains⟩
      · simp only [if_neg here]
        rcases induction (if type.isEmpty then first.type else type) with
          ⟨left, right, found, found', changed⟩ | ⟨exception, raised, raised'⟩ |
          ⟨reason, halted, halted'⟩
        · rw [found, found']
          exact .inl ⟨_, _, rfl, rfl, .cons parallel changed⟩
        · rw [raised, raised']
          exact .inr (.inl ⟨_, rfl, rfl⟩)
        · rw [halted, halted']
          exact .inr (.inr ⟨_, rfl, rfl⟩)

end Chains

/-- Two states that differ in the variable of the renderer only, with what
the layers of each context have in common. -/
structure Framed (depths : List Nat) (first second : St W) : Prop where
  vectors : first.vectors = second.vectors
  maps : first.maps = second.maps
  nextAddr : first.nextAddr = second.nextAddr
  world : first.world = second.world
  trace : first.trace = second.trace
  contexts : Chains depths first.contexts second.contexts

namespace Framed

variable {depth : Nat} {depths : List Nat} {first second : St W}

theorem less (framed : Framed ((depth + 1) :: depths) first second) :
    Framed (depth :: depths) first second := by
  refine { framed with contexts := ?_ }
  have chains := framed.contexts
  generalize first.contexts = firsts, second.contexts = seconds at chains ⊢
  cases chains with
  | cons parallel chains => exact .cons parallel.less chains

theorem mapHead {deeper : Nat} {change : Context → Context}
    (changes : ∀ {left right}, Parallel depth left right →
      Parallel deeper (change left) (change right))
    (framed : Framed (depth :: depths) first second) :
    Framed (deeper :: depths) (first.mapHead change)
      (second.mapHead change) := by
  refine { framed with contexts := ?_ }
  have chains := framed.contexts
  unfold St.mapHead
  generalize first.contexts = firsts, second.contexts = seconds at chains
  cases chains with
  | cons parallel chains => exact .cons (changes parallel) chains

theorem exec (framed : Framed (depth :: depths) first second) :
    first.exec = second.exec := by
  have chains := framed.contexts
  unfold St.exec
  generalize first.contexts = firsts, second.contexts = seconds at chains ⊢
  cases chains with
  | cons parallel chains => exact parallel.exec

theorem services (framed : Framed (depth :: depths) first second) :
    first.contexts.head?.any Context.services =
      second.contexts.head?.any Context.services := by
  have chains := framed.contexts
  generalize first.contexts = firsts, second.contexts = seconds at chains ⊢
  cases chains with
  | cons parallel chains => exact parallel.services

end Framed

section Programs

variable {depth : Nat} {depths : List Nat}

theorem setValue_related (dcl : Dcl) {name : Str}
    (other : upName name ≠ htmlFirst) (value : Str) :
    Related (Framed depths) (M.setValue dcl name value : M W Unit)
      (M.setValue dcl name value) := by
  apply Related.act
  intro left right framed
  rcases framed.contexts.setValue other value with ⟨none, none'⟩ |
    ⟨first, second, some, some', chains⟩
  · rw [none, none']
    exact ⟨rfl, framed⟩
  · rw [some, some']
    exact ⟨rfl, { framed with contexts := chains }⟩

theorem addTyped_related (dcl : Dcl) (name value type : Str) :
    Related (Framed depths) (M.addTyped dcl name value type : M W Unit)
      (M.addTyped dcl name value type) := by
  apply Related.act
  intro left right framed
  rcases framed.contexts.addValue dcl name value type with
    ⟨first, second, found, found', chains⟩ | ⟨exception, raised, raised'⟩ |
    ⟨reason, halted, halted'⟩
  · rw [found, found']
    exact ⟨rfl, { framed with contexts := chains }⟩
  · rw [raised, raised']
    exact ⟨rfl, framed⟩
  · rw [halted, halted']
    exact ⟨rfl, framed⟩

theorem io_related {α : Type} (operation : Io W α) :
    Related (Framed depths) (M.io operation) (M.io operation) := by
  apply Related.act
  intro left right framed
  rw [framed.world]
  exact ⟨rfl, { framed with world := rfl }⟩

theorem record_related (event : Event) :
    Related (Framed depths) (M.record event : M W Unit) (M.record event) :=
  Related.modify fun framed =>
    { framed with trace := congrArg (event :: ·) framed.trace }

theorem push_related (loc : Loc) :
    Related (Framed (depth :: depths)) (M.push loc : M W Unit)
      (M.push loc) := by
  apply Related.modify
  intro left right framed
  apply framed.mapHead
  intro first second parallel
  exact { parallel with exec := congrArg (loc :: ·) parallel.exec }

theorem pop_related :
    Related (Framed (depth :: depths)) (M.pop : M W (Option Loc)) M.pop := by
  intro left right framed
  rw [M.pop_eq, M.pop_eq, framed.exec]
  refine ⟨rfl, rfl, framed.mapHead ?_⟩
  intro first second parallel
  exact { parallel with exec := congrArg List.tail parallel.exec }

theorem enter_relates {failed : St W → St W → Prop} :
    Relates (Framed (depth :: depths)) (Framed ((depth + 1) :: depths)) failed
      (M.enter : M W Unit) M.enter :=
  Relates.modify fun framed => framed.mapHead Parallel.enter

theorem leave_relates {failed : St W → St W → Prop} :
    Relates (Framed ((depth + 1) :: depths)) (Framed (depth :: depths)) failed
      (M.leave : M W Unit) M.leave := by
  intro left right framed
  obtain ⟨layered, layered'⟩ : left.Layered ∧ right.Layered := by
    have chains := framed.contexts
    unfold St.Layered
    generalize left.contexts = firsts, right.contexts = seconds at chains ⊢
    cases chains with
    | cons parallel chains =>
        obtain ⟨some, some', -⟩ := parallel.leave
        exact ⟨⟨_, _, rfl, some⟩, ⟨_, _, rfl, some'⟩⟩
  rw [M.leave_eq layered, M.leave_eq layered']
  exact ⟨rfl, rfl, framed.mapHead fun parallel => parallel.leave.2.2⟩

/-- A thread runs in a context of its own in front of the others. -/
theorem enterThread_relates {failed : St W → St W → Prop} :
    Relates (Framed depths) (Framed (0 :: depths)) failed
      (Prog.modify fun state : St W => { state with
        contexts := Context.newLocal :: state.contexts } : M W Unit)
      (Prog.modify fun state => { state with
        contexts := Context.newLocal :: state.contexts }) :=
  Relates.modify fun framed => { framed with
    contexts := .cons (.fresh _) framed.contexts }

theorem leaveThread_relates {failed : St W → St W → Prop} :
    Relates (Framed (depth :: depths)) (Framed depths) failed
      (Prog.modify fun state : St W => { state with
        contexts := state.contexts.tail } : M W Unit)
      (Prog.modify fun state => { state with
        contexts := state.contexts.tail }) :=
  Relates.modify fun framed => { framed with
    contexts := framed.contexts.tail }

end Programs

end DbPager
