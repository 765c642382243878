import DbPager.Tags.Collections
import DbPager.Plain

/-!
# Positions of a list

`list-element` and `list-remove` take the same index, one with a check of its
range and one without.  `list-elements` keeps a position of the list while its
body runs.  The statements say for which indices and bodies only valid
positions are used.
-/

namespace DbPager

open Effect

variable {W : Type}

/-! ## One element -/

section Element

/-- The parameters of both tags: the name, the address of the list and the
text of the index. -/
def listNumber (interp : Interp W) (self : Loc) : M W (Str × Nat × Str) := do
  let name ← interp.getParameter self "name"
  let key ← interp.getParameter self "number"
  let addr ← listPointer interp name
  pure (name, addr, key)

/-- The element `list-element` shows. -/
def shown (interp : Interp W) (addr : Nat) (key : Str) : M W Str := do
  let index ← M.int interp.dcl key
  let vector ← M.getVector addr
  vector.at index

/-- What `list-remove` does to the list. -/
def removing (interp : Interp W) (addr : Nat) (key : Str) : M W Unit := do
  let vector ← M.getVector addr
  let index ← M.int interp.dcl key
  if 0 ≤ index ∧ index < vector.content.length then
    M.setVector addr
      (vector.change (vector.content.eraseIdx index.toNat)
        (.erased index.toNat))
  else Prog.halt .fault

theorem listRemove_eq (interp : Interp W) (self : Loc) :
    TagListRemove.execute interp self =
      listNumber interp self >>= fun ready =>
        removing interp ready.2.1 ready.2.2 := by
  unfold TagListRemove.execute listNumber
  simp only [Prog.bind_assoc, Prog.pure_bind]
  rfl

theorem listElement_eq (interp : Interp W) (self : Loc)
    (caller : Option Loc) :
    TagListElement.execute interp self caller =
      listNumber interp self >>= fun ready =>
        M.withLayer (shown interp ready.2.1 ready.2.2 >>= fun value =>
          M.addValue interp.dcl (ready.1 ++ "_value".toList) value >>= fun _ =>
            interp.executeChilds self caller) := by
  unfold TagListElement.execute listNumber shown
  simp only [Prog.bind_assoc, Prog.pure_bind]

variable {interp : Interp W} {addr : Nat} {key : Str} {vector : Vector}
variable {state : St W}

theorem getVector_live (live : state.vectors.lookup addr = some vector) :
    M.getVector addr state = ⟨state, [], .value vector⟩ := by
  simp [M.getVector, Prog.act, live]

theorem int_eq {index : Int}
    (converts : interp.dcl.fromStringInt key = some index) :
    (M.int interp.dcl key : M W Int) state = ⟨state, [], .value index⟩ := by
  simp [M.int, converts, Prog.orThrow, Prog.pure]

theorem int_error (fails : interp.dcl.fromStringInt key = none) :
    (M.int interp.dcl key : M W Int) state =
      ⟨state, [], .error (interp.dcl.conversionException key)⟩ := by
  simp [M.int, fails, Prog.orThrow, Prog.throw]

theorem shown_eq (live : state.vectors.lookup addr = some vector)
    {index : Int} (converts : interp.dcl.fromStringInt key = some index) :
    shown interp addr key state = vector.at index state := by
  unfold shown
  rw [Prog.bind_silent (int_eq converts), Prog.bind_silent (getVector_live live)]

/-- An index is accepted exactly when it is in the range of the list. -/
theorem at_cases (vector : Vector) (index : Int) (state : St W) :
    (∃ before value rest, vector.content = before ++ value :: rest ∧
        index = before.length ∧
        vector.at index state = ⟨state, [], .value value⟩) ∨
      ¬ (0 ≤ index ∧ index < vector.content.length) ∧
        ∃ exception, vector.at index state =
          ⟨state, [], .error exception⟩ := by
  cases index with
  | negSucc less => exact .inr ⟨by omega, _, rfl⟩
  | ofNat position =>
      cases found : vector.content[position]? with
      | none =>
          have beyond := List.getElem?_eq_none_iff.mp found
          refine .inr ⟨?_, ⟨.std, "vector::_M_range_check".toList, 0⟩, ?_⟩
          · intro inside
            have below := Int.ofNat_lt.mp inside.2
            omega
          · simp [Vector.at, found, Prog.orThrow, Prog.throw]
      | some value =>
          obtain ⟨inside, same⟩ := List.getElem?_eq_some_iff.mp found
          refine .inl ⟨vector.content.take position, value,
            vector.content.drop (position + 1), ?_, ?_, ?_⟩
          · rw [← same, ← List.drop_eq_getElem_cons inside, List.take_append_drop]
          · simp [Nat.min_eq_left (Nat.le_of_lt inside)]
          · simp [Vector.at, found, Prog.orThrow, Prog.pure]

/-- `list-remove` removes exactly the element that `list-element` shows for
the same index, and raises an exception for an index it rejects. -/
structure RemovesShown (interp : Interp W) (addr : Nat) (key : Str)
    (vector : Vector) (state : St W) : Prop where
  shown : ∀ value, DbPager.shown interp addr key state =
      ⟨state, [], .value value⟩ →
    ∃ before rest, vector.content = before ++ value :: rest ∧
      interp.dcl.fromStringInt key = some before.length ∧
      removing interp addr key state =
        M.setVector addr
          (vector.change (before ++ rest) (.erased before.length)) state
  rejected : ∀ exception, DbPager.shown interp addr key state =
      ⟨state, [], .error exception⟩ →
    ∃ raised, removing interp addr key state = ⟨state, [], .error raised⟩

theorem removing_inside (live : state.vectors.lookup addr = some vector)
    {before rest : List Str} {value : Str}
    (whole : vector.content = before ++ value :: rest)
    (converts : interp.dcl.fromStringInt key = some (before.length : Int)) :
    removing interp addr key state =
      M.setVector addr
        (vector.change (before ++ rest) (.erased before.length)) state := by
  have inside : 0 ≤ (before.length : Int) ∧
      (before.length : Int) < (before ++ value :: rest).length := by
    rw [List.length_append, List.length_cons]
    omega
  unfold removing
  rw [Prog.bind_silent (getVector_live live), Prog.bind_silent (int_eq converts),
    whole, if_pos inside]
  simp [List.eraseIdx_append_of_length_le]

theorem removing_outside (live : state.vectors.lookup addr = some vector)
    {index : Int} (converts : interp.dcl.fromStringInt key = some index)
    (outside : ¬ (0 ≤ index ∧ index < vector.content.length)) :
    removing interp addr key state = ⟨state, [], .halt .fault⟩ := by
  unfold removing
  rw [Prog.bind_silent (getVector_live live), Prog.bind_silent (int_eq converts),
    if_neg outside]
  rfl

theorem removesShown_iff (live : state.vectors.lookup addr = some vector) :
    RemovesShown interp addr key vector state ↔
      ∀ index, interp.dcl.fromStringInt key = some index →
        0 ≤ index ∧ index < vector.content.length := by
  cases converts : interp.dcl.fromStringInt key with
  | none =>
      have failed : shown interp addr key state =
          ⟨state, [], .error (interp.dcl.conversionException key)⟩ :=
        Prog.bind_error (int_error converts) _
      constructor
      · intro _ index same
        cases same
      · intro _
        constructor
        · intro value found
          rw [failed] at found
          cases found
        · intro exception _
          refine ⟨interp.dcl.conversionException key, ?_⟩
          unfold removing
          rw [Prog.bind_silent (getVector_live live)]
          exact Prog.bind_error (int_error converts) _
  | some index =>
      have same := shown_eq live converts
      rcases at_cases vector index state with
        ⟨before, value, rest, whole, position, found⟩ |
        ⟨outside, exception, rejected⟩
      · subst position
        constructor
        · intro _ other equal
          cases equal
          rw [whole, List.length_append, List.length_cons]
          omega
        · intro _
          constructor
          · intro other showing
            rw [same, found] at showing
            cases showing
            exact ⟨before, rest, whole, converts,
              removing_inside live whole converts⟩
          · intro exception showing
            rw [same, found] at showing
            cases showing
      · constructor
        · intro removes
          obtain ⟨raised, ended⟩ := removes.rejected exception
            (same.trans rejected)
          rw [removing_outside live converts outside] at ended
          cases ended
        · intro inside
          exact absurd (inside index rfl) outside

end Element

/-! ## Iterating -/

namespace TagListElements

section Rounds

variable (interp : Interp W) (self : Loc) (caller : Option Loc) (name : Str)
variable (addr : Nat)

/-- One round: the body in a layer with the element. -/
def round (value : Str) : M W Unit :=
  M.withLayer do
    M.addValue interp.dcl (name ++ "_value".toList) value
    interp.executeChilds self caller

/-- The list is still there and nothing has happened to it that invalidates
the position. -/
def Valid (vector : Vector) (position : Nat) (state : St W) : Prop :=
  ∃ later, state.vectors.lookup addr = some later ∧
    (later.changesSince vector).all (Vector.keepsPosition position) = true

/-- A round at a position that comes to its end. -/
structure Step (position : Nat) (state after : St W) (vector : Vector) :
    Prop where
  live : state.vectors.lookup addr = some vector
  ran : ∃ value out, vector.content[position]? = some value ∧
    round interp self caller name value state = ⟨after, out, .value ()⟩

/-- The rounds that are executed, as long as the position stays valid. -/
inductive Arrives (start : St W) : Nat → St W → Prop where
  | start : Arrives start 0 start
  | next {position : Nat} {state after : St W} {vector : Vector}
      (before : Arrives start position state)
      (step : Step interp self caller name addr position state after vector)
      (valid : Valid addr vector position after) :
      Arrives start (position + 1) after

/-- No round ends with a position that is not valid any more. -/
def KeepsPositions (start : St W) : Prop :=
  ∀ position state after vector,
    Arrives interp self caller name addr start position state →
    Step interp self caller name addr position state after vector →
    Valid addr vector position after

/-- Only a body may leave the defined behaviour, whatever the bound on the
loop is. -/
def UsesValidPositions (start : St W) : Prop :=
  ∀ budget, (loop interp self caller name addr budget 0 start).outcome =
      .halt .fault →
    ∃ position state vector value,
      Arrives interp self caller name addr start position state ∧
      state.vectors.lookup addr = some vector ∧
      vector.content[position]? = some value ∧
      (round interp self caller name value state).outcome = .halt .fault

variable {interp : Interp W} {self : Loc} {caller : Option Loc} {name : Str}
variable {addr : Nat} {start state after : St W} {vector : Vector}
variable {position : Nat}

/-- The list is there at the beginning of each round. -/
theorem Arrives.live (present : ∃ first, start.vectors.lookup addr = some first)
    (arrives : Arrives interp self caller name addr start position state) :
    ∃ vector, state.vectors.lookup addr = some vector := by
  cases arrives with
  | start => exact present
  | next before step valid =>
      obtain ⟨later, live, -⟩ := valid
      exact ⟨later, live⟩

theorem loop_step
    (step : Step interp self caller name addr position state after vector)
    (valid : Valid addr vector position after) (budget : Nat) :
    (loop interp self caller name addr (budget + 1) position state).outcome =
      (loop interp self caller name addr budget (position + 1)
        after).outcome := by
  obtain ⟨live, value, out, found, ran⟩ := step
  obtain ⟨later, still, keeps⟩ := valid
  unfold round at ran
  rw [loop, Prog.bind_silent (getVector_live live)]
  simp only [found]
  rw [Prog.bind_eq ran, Prog.bind_silent (getVector_live still), if_pos keeps]

/-- The position is used once more after the body. -/
theorem loop_invalid
    (step : Step interp self caller name addr position state after vector)
    (lost : ¬ Valid addr vector position after) (budget : Nat) :
    (loop interp self caller name addr (budget + 1) position state).outcome =
      .halt .fault := by
  obtain ⟨live, value, out, found, ran⟩ := step
  unfold round at ran
  rw [loop, Prog.bind_silent (getVector_live live)]
  simp only [found]
  rw [Prog.bind_eq ran]
  cases still : after.vectors.lookup addr with
  | none =>
      have dead : M.getVector addr after = ⟨after, [], .halt .fault⟩ := by
        simp [M.getVector, Prog.act, still]
      rw [Prog.bind_halt dead]
  | some later =>
      rw [Prog.bind_silent (getVector_live still), if_neg]
      · rfl
      · intro keeps
        exact lost ⟨later, still, keeps⟩

theorem loop_arrives
    (arrives : Arrives interp self caller name addr start position state)
    (budget : Nat) :
    (loop interp self caller name addr (position + budget) 0 start).outcome =
      (loop interp self caller name addr budget position state).outcome := by
  induction arrives generalizing budget with
  | start => rw [Nat.zero_add]
  | next before step valid induction =>
      rw [Nat.add_right_comm, Nat.add_assoc, induction, loop_step step valid]

theorem Step.unique {other : St W} {found : Vector}
    (first : Step interp self caller name addr position state after vector)
    (second : Step interp self caller name addr position state other found) :
    after = other ∧ vector = found := by
  obtain ⟨live, value, out, element, ran⟩ := first
  obtain ⟨again, text, written, same, rerun⟩ := second
  rw [live] at again
  cases again
  rw [element] at same
  cases same
  rw [ran] at rerun
  cases rerun
  exact ⟨rfl, rfl⟩

/-- The body of a round that comes to its end stays within the defined
behaviour. -/
theorem Step.not_fault {found : Vector} {value : Str}
    (step : Step interp self caller name addr position state after vector)
    (live : state.vectors.lookup addr = some found)
    (element : found.content[position]? = some value) :
    (round interp self caller name value state).outcome ≠ .halt .fault := by
  obtain ⟨again, text, out, same, ran⟩ := step
  rw [live] at again
  cases again
  rw [element] at same
  cases same
  rw [ran]
  intro halted
  cases halted

/-- The rounds follow one another in only one way. -/
theorem Arrives.unique {other : St W}
    (first : Arrives interp self caller name addr start position state)
    (second : Arrives interp self caller name addr start position other) :
    state = other := by
  induction first generalizing other with
  | start =>
      cases second with
      | start => rfl
  | next before step valid induction =>
      cases second with
      | next earlier again _ =>
          cases induction earlier
          exact (step.unique again).1

/-- A round that is not the last one has ended with a valid position. -/
theorem Arrives.passed {other : Nat} {later : St W}
    (first : Arrives interp self caller name addr start position state)
    (second : Arrives interp self caller name addr start other later)
    (earlier : position < other) :
    ∃ after vector,
      Step interp self caller name addr position state after vector ∧
        Valid addr vector position after := by
  induction second with
  | start => exact absurd earlier (Nat.not_lt_zero _)
  | next before step valid induction =>
      rcases Nat.lt_succ_iff_lt_or_eq.mp earlier with less | same
      · exact induction less
      · subst same
        cases first.unique before
        exact ⟨_, _, step, valid⟩

/-- As long as the positions stay valid, only a body can leave the defined
behaviour. -/
theorem fault_of_loop (keeps : KeepsPositions interp self caller name addr start)
    (present : ∃ first, start.vectors.lookup addr = some first)
    (arrives : Arrives interp self caller name addr start position state)
    {budget : Nat}
    (fault : (loop interp self caller name addr budget position
      state).outcome = .halt .fault) :
    ∃ position state vector value,
      Arrives interp self caller name addr start position state ∧
      state.vectors.lookup addr = some vector ∧
      vector.content[position]? = some value ∧
      (round interp self caller name value state).outcome = .halt .fault := by
  induction budget generalizing position state with
  | zero => cases fault
  | succ budget induction =>
      obtain ⟨vector, live⟩ := arrives.live present
      cases element : vector.content[position]? with
      | none =>
          rw [loop, Prog.bind_silent (getVector_live live)] at fault
          simp only [element] at fault
          cases fault
      | some value =>
          cases ran : round interp self caller name value state with
          | mk after out outcome =>
              cases outcome with
              | value result =>
                  have step : Step interp self caller name addr position state
                      after vector := ⟨live, value, out, element, ran⟩
                  have valid := keeps _ _ _ _ arrives step
                  rw [loop_step step valid] at fault
                  exact induction (arrives.next step valid) fault
              | error exception =>
                  unfold round at ran
                  rw [loop, Prog.bind_silent (getVector_live live)] at fault
                  simp only [element] at fault
                  rw [Prog.bind_error ran] at fault
                  cases fault
              | halt reason =>
                  have stopped := ran
                  unfold round at ran
                  rw [loop, Prog.bind_silent (getVector_live live)] at fault
                  simp only [element] at fault
                  rw [Prog.bind_halt ran] at fault
                  refine ⟨position, state, vector, value, arrives, live,
                    element, ?_⟩
                  rw [stopped]
                  exact fault

/-- The positions that are used are valid exactly when every round keeps the
position it stands at. -/
theorem usesValidPositions_iff
    (present : ∃ first, start.vectors.lookup addr = some first) :
    UsesValidPositions interp self caller name addr start ↔
      KeepsPositions interp self caller name addr start := by
  constructor
  · intro uses position state after vector arrives step
    by_contra lost
    have fault := (loop_arrives arrives 1).trans (loop_invalid step lost 0)
    obtain ⟨other, later, found, value, others, live, element, halted⟩ :=
      uses _ fault
    rcases Nat.lt_trichotomy other position with less | same | more
    · obtain ⟨next, seen, again, _⟩ := others.passed arrives less
      exact again.not_fault live element halted
    · subst same
      cases arrives.unique others
      exact step.not_fault live element halted
    · obtain ⟨next, seen, again, valid⟩ := arrives.passed others more
      obtain ⟨rfl, rfl⟩ := step.unique again
      exact lost valid
  · intro keeps budget fault
    exact fault_of_loop keeps present .start fault

end Rounds

end TagListElements

/-- The tags use only valid positions of a list: `list-remove` exactly when an
index that converts is in the range of the list, `list-elements` exactly when
every round keeps the position it stands at.  The equations say what the tags
do with the list they have found by its name. -/
theorem list_positions_valid_iff (interp : Interp W) :
    (∀ self, TagListRemove.execute interp self =
      listNumber interp self >>= fun ready =>
        removing interp ready.2.1 ready.2.2) ∧
    (∀ self caller, TagListElement.execute interp self caller =
      listNumber interp self >>= fun ready =>
        M.withLayer (shown interp ready.2.1 ready.2.2 >>= fun value =>
          M.addValue interp.dcl (ready.1 ++ "_value".toList) value >>= fun _ =>
            interp.executeChilds self caller)) ∧
    (∀ self caller, TagListElements.execute interp self caller =
      interp.getParameter self "name" >>= fun name =>
        listPointer interp name >>= fun addr =>
          TagListElements.loop interp self caller name addr interp.budget 0) ∧
    ∀ (addr : Nat) (vector : Vector) (state : St W),
      state.vectors.lookup addr = some vector →
      (∀ key, RemovesShown interp addr key vector state ↔
        ∀ index, interp.dcl.fromStringInt key = some index →
          0 ≤ index ∧ index < vector.content.length) ∧
      ∀ self caller name,
        TagListElements.UsesValidPositions interp self caller name addr
            state ↔
          TagListElements.KeepsPositions interp self caller name addr
            state := by
  refine ⟨listRemove_eq interp, listElement_eq interp, fun _ _ => rfl, ?_⟩
  intro addr vector state live
  constructor
  · intro key
    exact removesShown_iff live
  · intro self caller name
    exact TagListElements.usesValidPositions_iff ⟨vector, live⟩

/-- A list `l` of one element at the address 1. -/
def singleList : St Unit :=
  { contexts := [{ Context.newLocal with
      stack := [AList.insert (upName (listHandle "l".toList)) "1".toList ∅] }]
    vectors := (∅ : AList fun _ : Nat => Vector).insert 1 ⟨["a".toList], []⟩
    maps := ∅
    nextAddr := 2
    world := ()
    trace := [] }

/-- `list-elements` over a list whose body removes the first element. -/
def removingElements : Loc :=
  ⟨.mk 1 .listElements [("name".toList, "l".toList)]
    [.mk 2 .listRemove
      [("name".toList, "l".toList), ("number".toList, "0".toList)] [] []] [],
    []⟩

abbrev listInterp : Interp Unit :=
  Interp.ofRun (Outside.closed Unit) 2 (execute (Outside.closed Unit) 2)

/-- Nothing checks the index of `list-remove`, and `list-elements` goes on from
an element its body has removed. -/
theorem list_positions_lost :
    (¬ ∀ key, RemovesShown listInterp 1 key ⟨["a".toList], []⟩ singleList) ∧
    ¬ TagListElements.UsesValidPositions listInterp removingElements none
      "l".toList 1 singleList := by
  have live : singleList.vectors.lookup 1 = some ⟨["a".toList], []⟩ := rfl
  constructor
  · intro removes
    have inside := (removesShown_iff live).mp (removes "1".toList) 1 rfl
    exact absurd inside (by decide)
  · intro uses
    have keeps := (TagListElements.usesValidPositions_iff ⟨_, live⟩).mp uses
    obtain ⟨later, still, valid⟩ :=
      keeps 0 singleList _ _ .start ⟨live, "a".toList, [], rfl, rfl⟩
    cases still
    exact absurd valid (by decide)

end DbPager
