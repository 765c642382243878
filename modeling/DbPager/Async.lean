import DbPager.Plain

/-!
# Asynchronous execution

`dbp:async` gives every child a fresh local context whose parent is the
context at hand.  Variables are looked up through the parent; the stack of
active calls and the services provider are members of the context itself, and
the fresh one has neither.
-/

namespace DbPager

open Effect

variable {W : Type}

/-- What a tag sees of the context it is executed in. -/
structure Observation where
  value : Str → Str
  calls : List Loc
  services : Bool

def observe (state : St W) : Observation :=
  { value := fun name => Chain.getValue name state.contexts
    calls := state.exec
    services := state.contexts.head?.any Context.services }

/-- The same without the members of the context itself. -/
def Observation.isolated (seen : Observation) : Observation :=
  { seen with calls := [], services := false }

/-- Children that write a text made from what they see and change nothing. -/
def observer (write : Loc → Observation → Str) :
    Loc → Option Loc → M W Unit :=
  fun self _ => do
    Prog.emit (write self (← Prog.read observe))

/-- A `dbp:async` writes what its children write in sequence, whatever they
make of the context. -/
def AgreesWithSequence (interp : Interp W) (self : Loc) (caller : Option Loc)
    (state : St W) : Prop :=
  ∀ write : Loc → Observation → Str,
    TagAsync.execute { interp with run := observer write } self caller state =
      Prog.forEach
        (fun tag => observer write (self.child tag) caller)
        self.tag.childs state

theorem forEach_observer (write : Loc → Observation → Str) (self : Loc)
    (caller : Option Loc) (tags : List Tag) (state : St W) :
    Prog.forEach (fun tag => observer write (self.child tag) caller) tags
        state =
      ⟨state, tags.flatMap fun tag => write (self.child tag) (observe state),
        .value ()⟩ := by
  induction tags with
  | nil => rfl
  | cons tag tags induction =>
      have first : observer write (self.child tag) caller state =
          ⟨state, write (self.child tag) (observe state), .value ()⟩ := rfl
      rw [Prog.forEach, Prog.bind_eq first, induction]
      rfl

section Threads

variable (interp : Interp W) (write : Loc → Observation → Str) (self : Loc)
  (caller : Option Loc) (state : St W)

/-- A thread sees the variables of the enclosing context and nothing of its
calls and services. -/
theorem thread_observer (tag : Tag) :
    TagAsync.thread { interp with run := observer write } self caller tag
        state =
      ⟨state, [], .value (write (self.child tag) (observe state).isolated)⟩ :=
  rfl

theorem threads_observer (numbers : List Nat) :
    TagAsync.threads { interp with run := observer write } self caller numbers
        state =
      ⟨state, [], .value (numbers.filterMap fun number =>
        self.tag.childs[number]?.map fun tag =>
          (number, write (self.child tag) (observe state).isolated))⟩ := by
  induction numbers with
  | nil => rfl
  | cons number numbers induction =>
      rw [TagAsync.threads]
      cases found : self.tag.childs[number]? with
      | none =>
          simp only [List.filterMap_cons, found]
          exact induction
      | some tag =>
          simp only [List.filterMap_cons, found]
          rw [Prog.bind_silent (thread_observer interp write self caller state
            tag), Prog.bind_silent induction]
          rfl

/-- Every child has its output under its own number. -/
theorem lookup_threads {numbers : List Nat} {number : Nat} {tag : Tag}
    (found : self.tag.childs[number]? = some tag)
    (listed : number ∈ numbers) :
    (numbers.filterMap fun number =>
      self.tag.childs[number]?.map fun tag =>
        (number, write (self.child tag) (observe state).isolated)).lookup
          number =
      some (write (self.child tag) (observe state).isolated) := by
  induction numbers with
  | nil => cases listed
  | cons first numbers induction =>
      by_cases same : first = number
      · subst same
        simp [found]
      · have later := induction (List.mem_of_ne_of_mem (Ne.symm same) listed)
        cases other : self.tag.childs[first]? with
        | none => simpa [List.filterMap_cons, other] using later
        | some tag =>
            simp only [List.filterMap_cons, other, Option.map_some,
              List.lookup_cons]
            have differs : (number == first) = false := by
              simpa using Ne.symm same
            rw [differs]
            exact later

/-- What a `dbp:async` writes, in whatever order its threads run. -/
theorem async_observer :
    TagAsync.execute { interp with run := observer write } self caller state =
      ⟨state, self.tag.childs.flatMap fun tag =>
        write (self.child tag) (observe state).isolated, .value ()⟩ := by
  let numbers := interp.outside.schedule self.tag.childs.length
  let outputs := numbers.filterMap fun number =>
    self.tag.childs[number]?.map fun tag =>
      (number, write (self.child tag) (observe state).isolated)
  have written : (Prog.forEach
      (fun number => Prog.emit ((outputs.lookup number).getD []))
      (List.range self.tag.childs.length) : M W Unit) state =
      ⟨state, (List.range self.tag.childs.length).flatMap fun number =>
        (outputs.lookup number).getD [], .value ()⟩ :=
    Prog.forEach_eq fun _ _ => rfl
  have inOrder : ((List.range self.tag.childs.length).flatMap fun number =>
      (outputs.lookup number).getD []) =
      self.tag.childs.flatMap fun tag =>
        write (self.child tag) (observe state).isolated := by
    rw [List.flatMap_def, List.flatMap_def]
    congr 1
    apply List.ext_getElem
    · simp
    · intro number left right
      have inside : number < self.tag.childs.length := by simpa using right
      have listed : number ∈ numbers :=
        (interp.outside.schedule_perm _).mem_iff.mpr
          (List.mem_range.mpr inside)
      have found := lookup_threads write self state
        (List.getElem?_eq_getElem inside) listed
      simp only [List.getElem_map, List.getElem_range]
      rw [found]
      rfl
  unfold TagAsync.execute
  rw [Prog.bind_silent (threads_observer interp write self caller state
    numbers)]
  rw [← inOrder]
  exact written

end Threads

/-- A `dbp:async` agrees with sequential execution exactly when it has no
children, or when there is nothing the threads could miss: no active call and
no services provider. -/
theorem async_agrees_with_sequence (interp : Interp W) (self : Loc)
    (caller : Option Loc) (state : St W) :
    AgreesWithSequence interp self caller state ↔
      self.tag.childs = [] ∨
        state.exec = [] ∧
          state.contexts.head?.any Context.services = false := by
  have runs (write : Loc → Observation → Str) :
      TagAsync.execute { interp with run := observer write } self caller
          state =
        Prog.forEach (fun tag => observer write (self.child tag) caller)
          self.tag.childs state ↔
        (self.tag.childs.flatMap fun tag =>
          write (self.child tag) (observe state).isolated) =
        self.tag.childs.flatMap fun tag =>
          write (self.child tag) (observe state) := by
    rw [async_observer, forEach_observer]
    simp
  constructor
  · intro agrees
    cases childs : self.tag.childs with
    | nil => exact .inl rfl
    | cons tag tags =>
        right
        -- a child that counts the calls, and one that reports the services
        have counted := (runs fun _ seen =>
          seen.calls.map fun _ => 'c').mp (agrees _)
        have reported := (runs fun _ seen =>
          if seen.services then ['s'] else []).mp (agrees _)
        rw [childs] at counted reported
        have silent (text : Str)
            (same : ((tag :: tags).flatMap fun _ => ([] : Str)) =
              (tag :: tags).flatMap fun _ => text) : text = [] := by
          have none : ((tag :: tags).flatMap fun _ => ([] : Str)) = [] := by
            simp
          rw [none] at same
          exact List.flatMap_eq_nil_iff.mp same.symm tag List.mem_cons_self
        constructor
        · have calls := silent (state.exec.map fun _ => 'c') counted
          simpa using calls
        · have services := silent
            (if state.contexts.head?.any Context.services then ['s'] else [])
            reported
          simpa using services
  · rintro (empty | ⟨calls, services⟩) write
    · apply (runs write).mpr
      rw [empty]
      rfl
    · apply (runs write).mpr
      have same : (observe state).isolated = observe state := by
        unfold Observation.isolated observe
        rw [calls, services]
      rw [same]

theorem tagName_plain : "f".toList.head? ≠ some '@' := by
  apply head_ne_at
  decide

/-- A custom tag that executes its call's body inside a tag of the given
class, and a call of it. -/
def callPage (kind : Kind) : Loc :=
  ⟨.mk 1 .module []
    [.mk 2 (.tag (some "f".toList)) []
      [.mk 3 kind [] [.mk 4 .execute [] [] []] []] [],
    .mk 5 (.usr ⟨"f".toList, tagName_plain⟩ (some 2)) []
      [.mk 6 .expression [] [] "hello".toList] []] [], []⟩

/-- A page with a services provider. -/
def servicedState : St Unit :=
  .fresh [{ Context.newLocal with services := true }]

/-- The body of a call is lost inside a `dbp:async`, and a `dbp:log` there
follows a null pointer. -/
theorem async_loses_call_and_services :
    (execute Outside.plain 8 (callPage .module) none servicedState).out =
        "hello".toList ∧
      (execute Outside.plain 8 (callPage .async) none servicedState).out =
        [] ∧
      (execute Outside.plain 8
        ⟨.mk 1 .async [] [.mk 2 .log [] [] []] [], []⟩ none
          servicedState).outcome = .halt .fault := by
  constructor
  · rfl
  constructor
  · rfl
  · rfl

end DbPager
