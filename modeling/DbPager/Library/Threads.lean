import DbPager.Library.Memo

/-!
# Threads that share a table

The threads of a program run a procedure that looks keys up in a shared table,
takes and gives back the lock of the table, loads values and inserts them.
The rules below say when the code of a procedure respects the lock.  Then
every interleaving of the threads is a run of a memo table, the threads never
block each other for good, and they meet at the table only where the code
looks a key up without the lock.
-/

namespace Threads

open Memo

/-- The rest of a call of the procedure. -/
inductive Code (κ ν ε : Type) where
  | find (key : κ) (hit : Made ν → Code κ ν ε) (miss : Code κ ν ε)
  | lock (next : Code κ ν ε)
  | unlock (next : Code κ ν ε)
  | load (key : κ) (loaded : Made ν → Code κ ν ε) (failed : ε → Code κ ν ε)
  | insert (key : κ) (made : Made ν) (next : Code κ ν ε)
  | result (answer : Except ε (Made ν))

inductive Thread (κ ν ε : Type) where
  | idle
  | running (key : κ) (code : Code κ ν ε)

structure Shared (τ κ ν ε : Type) where
  table : κ → Option (Made ν)
  owner : Option τ
  count : Nat
  threads : τ → Thread κ ν ε

/-- `go` is a step of the procedure; how the loading of a value ends is not
up to the procedure. -/
inductive Action (τ κ ν ε : Type) where
  | call (thread : τ) (key : κ)
  | go (thread : τ)
  | load (thread : τ) (result : Except ε ν)

variable {τ κ ν ε : Type}

def Shared.start : Shared τ κ ν ε :=
  { table := fun _ => none, owner := none, count := 0
    threads := fun _ => .idle }

section Machine

variable [DecidableEq τ]

def Shared.set (shared : Shared τ κ ν ε) (thread : τ) (place : Thread κ ν ε) :
    Shared τ κ ν ε :=
  { shared with threads := Function.update shared.threads thread place }

theorem Shared.set_threads (shared : Shared τ κ ν ε) (thread other : τ)
    (place : Thread κ ν ε) :
    (shared.set thread place).threads other =
      if other = thread then place else shared.threads other :=
  Function.update_apply ..

variable [DecidableEq κ]

/-- An entry that is there stays. -/
def Shared.insert (shared : Shared τ κ ν ε) (key : κ) (made : Made ν) :
    Shared τ κ ν ε :=
  { shared with
    table := if (shared.table key).isSome then shared.table
      else Function.update shared.table key (some made) }

def machine (procedure : κ → Code κ ν ε) :
    Machine (Shared τ κ ν ε) (Action τ κ ν ε) (Event τ κ ν ε)
  | shared, .call thread key =>
      match shared.threads thread with
      | .idle =>
          some (shared.set thread (.running key (procedure key)),
            [.asked thread key])
      | .running _ _ => none
  | shared, .go thread =>
      match shared.threads thread with
      | .idle => none
      | .running key (.find sought hit miss) =>
          some (shared.set thread (.running key
            (match shared.table sought with
              | some made => hit made
              | none => miss)), [])
      | .running key (.lock next) =>
          match shared.owner with
          | none =>
              some ({ shared with owner := some thread }.set thread
                (.running key next), [])
          | some _ => none
      | .running key (.unlock next) =>
          some ({ shared with owner := none }.set thread (.running key next),
            [])
      | .running _ (.load _ _ _) => none
      | .running key (.insert sought made next) =>
          some ((shared.insert sought made).set thread (.running key next), [])
      | .running key (.result answer) =>
          some (shared.set thread .idle, [.answered thread key answer])
  | shared, .load thread result =>
      match shared.threads thread with
      | .running key (.load sought loaded failed) =>
          match result with
          | .ok value =>
              some ({ shared with count := shared.count + 1 }.set thread
                (.running key (loaded ⟨shared.count, value⟩)),
                [.loaded thread sought (.ok value)])
          | .error failure =>
              some (shared.set thread (.running key (failed failure)),
                [.loaded thread sought (.error failure)])
      | _ => none

end Machine

/-! ## The rules -/

/-- How far a thread has come with the request for a key: whether it holds
the lock, and what it knows. -/
inductive Place (κ ν ε : Type) where
  | idle
  | asking (key : κ)
  | inside (key : κ)
  | sure (key : κ)
  | storing (key : κ) (made : Made ν)
  | leaving (key : κ) (result : Except ε (Made ν))
  | answering (key : κ) (result : Except ε (Made ν))

/-- The thread holds the lock. -/
def Place.Locked : Place κ ν ε → Prop
  | .idle | .asking _ | .answering _ _ => False
  | .inside _ | .sure _ | .storing _ _ | .leaving _ _ => True

/-- What the request looks like from outside. -/
def Place.client : Place κ ν ε → Client κ ν ε
  | .idle => .idle
  | .asking key | .inside key | .sure key => .waiting key
  | .storing key made => .served key (.ok made)
  | .leaving key result | .answering key result => .served key result

/-- Code that suits a place.  `keeps` tells whether values are inserted in
the table, `probes` whether it may be read without the lock. -/
inductive Fits (keeps probes : Bool) : Place κ ν ε → Code κ ν ε → Prop
  | probe {key : κ} {hit : Made ν → Code κ ν ε} {miss : Code κ ν ε} :
      probes = true →
      (∀ made, Fits keeps probes (.answering key (.ok made)) (hit made)) →
      Fits keeps probes (.asking key) miss →
      Fits keeps probes (.asking key) (.find key hit miss)
  | lock {key : κ} {next : Code κ ν ε} :
      Fits keeps probes (.inside key) next →
      Fits keeps probes (.asking key) (.lock next)
  | check {key : κ} {hit : Made ν → Code κ ν ε} {miss : Code κ ν ε} :
      (∀ made, Fits keeps probes (.leaving key (.ok made)) (hit made)) →
      Fits keeps probes (.sure key) miss →
      Fits keeps probes (.inside key) (.find key hit miss)
  | load {key : κ} {loaded : Made ν → Code κ ν ε} {failed : ε → Code κ ν ε} :
      keeps = true →
      (∀ made, Fits keeps probes (.storing key made) (loaded made)) →
      (∀ failure,
        Fits keeps probes (.leaving key (.error failure)) (failed failure)) →
      Fits keeps probes (.sure key) (.load key loaded failed)
  | insert {key : κ} {made : Made ν} {next : Code κ ν ε} :
      Fits keeps probes (.leaving key (.ok made)) next →
      Fits keeps probes (.storing key made) (.insert key made next)
  | unlock {key : κ} {result : Except ε (Made ν)} {next : Code κ ν ε} :
      Fits keeps probes (.answering key result) next →
      Fits keeps probes (.leaving key result) (.unlock next)
  | result {key : κ} {result : Except ε (Made ν)} :
      Fits keeps probes (.answering key result) (.result result)
  | bare {key : κ} {loaded : Made ν → Code κ ν ε} {failed : ε → Code κ ν ε} :
      keeps = false →
      (∀ made, Fits keeps probes (.answering key (.ok made)) (loaded made)) →
      (∀ failure,
        Fits keeps probes (.answering key (.error failure)) (failed failure)) →
      Fits keeps probes (.asking key) (.load key loaded failed)

/-- The place is one of a request for the key. -/
def Place.About (key : κ) : Place κ ν ε → Prop
  | .idle => False
  | .asking own | .inside own | .sure own | .storing own _ | .leaving own _ |
      .answering own _ => own = key

/-- A thread that respects the lock. -/
def Sits (keeps probes : Bool) (place : Place κ ν ε) :
    Thread κ ν ε → Prop
  | .idle => place = .idle
  | .running key code => place.About key ∧ Fits keeps probes place code

/-! ## The memo table behind the threads -/

/-- The memo table is ahead of the shared one by the entry that is being
stored. -/
structure Follows (keeps probes : Bool) (shared : Shared τ κ ν ε)
    (model : State τ κ ν ε) (places : τ → Place κ ν ε) : Prop where
  count : model.count = shared.count
  sits : ∀ thread, Sits keeps probes (places thread) (shared.threads thread)
  clients : ∀ thread, model.clients thread = (places thread).client
  owner : ∀ thread, (places thread).Locked ↔ shared.owner = some thread
  kept : ∀ {key made}, shared.table key = some made →
    model.table key = some made
  new : ∀ {key made}, model.table key = some made →
    shared.table key = some made ∨
      ∃ thread, places thread = .storing key made
  storing : ∀ {thread key made}, places thread = .storing key made →
    model.table key = some made ∧ shared.table key = none
  sure : ∀ {thread key}, places thread = .sure key → shared.table key = none
  empty : keeps = false → ∀ key, model.table key = none

namespace Follows

variable {keeps probes : Bool} {shared : Shared τ κ ν ε}
  {model : State τ κ ν ε} {places : τ → Place κ ν ε}

theorem start :
    Follows keeps probes (Shared.start : Shared τ κ ν ε) State.start
      fun _ => .idle where
  count := rfl
  sits _ := rfl
  clients _ := rfl
  owner _ := ⟨fun locked => locked.elim, fun owned => by cases owned⟩
  kept there := by cases there
  new there := by cases there
  storing there := by cases there
  sure there := by cases there
  empty _ _ := rfl

/-- Only one thread is in a place where the lock is held. -/
theorem one (follows : Follows keeps probes shared model places)
    {thread other : τ} (first : (places thread).Locked)
    (second : (places other).Locked) : thread = other := by
  have one := (follows.owner thread).mp first
  have two := (follows.owner other).mp second
  rw [one] at two
  exact Option.some.inj two

/-- A thread that is sure that there is no entry is right about the memo
table too. -/
theorem absent (follows : Follows keeps probes shared model places)
    {thread : τ} {key : κ} (sure : places thread = .sure key) :
    model.table key = none := by
  cases there : model.table key with
  | none => rfl
  | some made =>
      rcases follows.new there with here | ⟨other, storing⟩
      · rw [follows.sure sure] at here
        cases here
      · have same : thread = other :=
          follows.one (sure ▸ trivial) (storing ▸ trivial)
        rw [← same, sure] at storing
        cases storing

section Moves

variable [DecidableEq τ]

theorem locked_update {thread : τ} {place : Place κ ν ε} {owner : Option τ}
    (here : place.Locked ↔ owner = some thread)
    (elsewhere : ∀ other, other ≠ thread →
      ((places other).Locked ↔ owner = some other)) (other : τ) :
    (Function.update places thread place other).Locked ↔
      owner = some other := by
  by_cases same : other = thread
  · rw [same, Function.update_self]
    exact here
  · rw [Function.update_of_ne same]
    exact elsewhere other same

/-- A step that neither holds the lock afterwards where it did not before,
nor the other way round. -/
theorem owner_same (follows : Follows keeps probes shared model places)
    {thread : τ} {place : Place κ ν ε}
    (same : place.Locked ↔ (places thread).Locked) (other : τ) :
    (Function.update places thread place other).Locked ↔
      shared.owner = some other :=
  locked_update (same.trans (follows.owner thread))
    (fun other _ => follows.owner other) other

/-- A step of one thread that leaves the tables as they are. -/
theorem move (follows : Follows keeps probes shared model places)
    {thread : τ} (place : Place κ ν ε) {moved : Thread κ ν ε}
    {next : Shared τ κ ν ε} {after : State τ κ ν ε}
    (threads : next.threads = Function.update shared.threads thread moved)
    (clients : after.clients =
      Function.update model.clients thread place.client)
    (table : next.table = shared.table) (modelled : after.table = model.table)
    (count : after.count = next.count)
    (sits : Sits keeps probes place moved)
    (owner : ∀ other, (Function.update places thread place other).Locked ↔
      next.owner = some other)
    (sure : ∀ {key}, place = .sure key → shared.table key = none)
    (before : ∀ {key made}, places thread ≠ .storing key made)
    (later : ∀ {key made}, place ≠ .storing key made) :
    Follows keeps probes next after (Function.update places thread place) where
  count := count
  sits other := by
    rw [threads]
    by_cases same : other = thread
    · rw [same, Function.update_self, Function.update_self]
      exact sits
    · rw [Function.update_of_ne same, Function.update_of_ne same]
      exact follows.sits other
  clients other := by
    rw [clients]
    by_cases same : other = thread
    · rw [same, Function.update_self, Function.update_self]
    · rw [Function.update_of_ne same, Function.update_of_ne same]
      exact follows.clients other
  owner := owner
  kept := by
    rw [table, modelled]
    exact follows.kept
  new := by
    intro key made there
    rw [modelled] at there
    rw [table]
    rcases follows.new there with here | ⟨other, storing⟩
    · exact .inl here
    · refine .inr ⟨other, ?_⟩
      rw [Function.update_of_ne, storing]
      rintro rfl
      exact before storing
  storing := by
    intro other key made storing
    rw [table, modelled]
    by_cases same : other = thread
    · rw [same, Function.update_self] at storing
      exact absurd storing later
    · rw [Function.update_of_ne same] at storing
      exact follows.storing storing
  sure := by
    intro other key there
    rw [table]
    by_cases same : other = thread
    · rw [same, Function.update_self] at there
      exact sure there
    · rw [Function.update_of_ne same] at there
      exact follows.sure there
  empty := by
    rw [modelled]
    exact follows.empty

/-- A step of one thread that leaves the tables and the lock as they are. -/
theorem shift (follows : Follows keeps probes shared model places)
    {thread : τ} {before : Place κ ν ε} (place : Place κ ν ε)
    {moved : Thread κ ν ε} (there : places thread = before)
    (sits : Sits keeps probes place moved)
    (locked : place.Locked ↔ before.Locked)
    (sure : ∀ {key}, place = .sure key → shared.table key = none)
    (stored : ∀ {key made}, before ≠ .storing key made)
    (later : ∀ {key made}, place ≠ .storing key made) :
    Follows keeps probes (shared.set thread moved)
      (model.set thread place.client)
      (Function.update places thread place) := by
  cases there
  exact follows.move place rfl rfl rfl rfl follows.count sits
    (follows.owner_same locked) sure stored later

/-- The client is where it was before. -/
theorem set_same (follows : Follows keeps probes shared model places)
    {thread : τ} {before place : Place κ ν ε} (there : places thread = before)
    (same : place.client = before.client) :
    model.set thread place.client = model := by
  unfold State.set
  rw [same, ← there, ← follows.clients, Function.update_eq_self]

variable [DecidableEq κ]

/-- A value has been loaded under the lock: the memo table has it at once. -/
theorem loaded (follows : Follows true probes shared model places)
    {thread : τ} {key : κ} {value : ν} {code : Code κ ν ε}
    (there : places thread = .sure key)
    (fits : Fits true probes (.storing key ⟨shared.count, value⟩) code) :
    Follows true probes
      ({ shared with count := shared.count + 1 }.set thread
        (.running key code))
      ((model.make true key value).set thread
        (.served key (.ok (model.next value))))
      (Function.update places thread
        (.storing key ⟨shared.count, value⟩)) := by
  have absent := follows.absent there
  have next : model.next value = ⟨shared.count, value⟩ := by
    unfold State.next
    rw [follows.count]
  have others : ∀ {other : τ} {place : Place κ ν ε}, places other = place →
      place.Locked → place ≠ .sure key → other ≠ thread := by
    rintro other place here locked different rfl
    rw [there] at here
    exact different here.symm
  constructor
  case count => exact congrArg Nat.succ follows.count
  case sits =>
    intro other
    rw [Shared.set_threads]
    by_cases same : other = thread
    · rw [same, if_pos rfl, Function.update_self]
      exact ⟨rfl, fits⟩
    · rw [if_neg same, Function.update_of_ne same]
      exact follows.sits other
  case clients =>
    intro other
    rw [State.set_clients]
    by_cases same : other = thread
    · rw [same, if_pos rfl, Function.update_self, next]
      rfl
    · rw [if_neg same, Function.update_of_ne same]
      exact follows.clients other
  case owner =>
    apply follows.owner_same
    rw [there]
    exact Iff.rfl
  case kept =>
    intro other made here
    rw [State.set_table, State.make_table, if_neg]
    · exact follows.kept here
    · rintro rfl
      have here : model.table other = some made := follows.kept here
      rw [absent] at here
      cases here
  case new =>
    intro other made here
    rw [State.set_table, State.make_table] at here
    by_cases same : other = key
    · rw [if_pos same, next] at here
      cases here
      exact .inr ⟨thread, by rw [same, Function.update_self]⟩
    · rw [if_neg same] at here
      rcases follows.new here with table | ⟨writer, storing⟩
      · exact .inl table
      · refine .inr ⟨writer, ?_⟩
        rw [Function.update_of_ne, storing]
        exact others storing trivial (by rintro ⟨⟩)
  case storing =>
    intro other others_ made storing
    by_cases same : other = thread
    · rw [same, Function.update_self] at storing
      cases storing
      rw [State.set_table, State.make_table, if_pos rfl, next]
      exact ⟨rfl, follows.sure there⟩
    · rw [Function.update_of_ne same] at storing
      exact absurd (follows.one (storing ▸ trivial) (there ▸ trivial)) same
  case sure =>
    intro other others_ sure
    by_cases same : other = thread
    · rw [same, Function.update_self] at sure
      cases sure
    · rw [Function.update_of_ne same] at sure
      exact follows.sure sure
  case empty =>
    intro impossible
    cases impossible

/-- The shared table catches up with the memo table. -/
theorem inserted (follows : Follows keeps probes shared model places)
    {thread : τ} {key : κ} {made : Made ν} {code : Code κ ν ε}
    (there : places thread = .storing key made)
    (fits : Fits keeps probes (.leaving key (.ok made)) code) :
    Follows keeps probes
      ((shared.insert key made).set thread (.running key code)) model
      (Function.update places thread (.leaving key (.ok made))) := by
  obtain ⟨has, absent⟩ := follows.storing there
  have table : (shared.insert key made).table =
      Function.update shared.table key (some made) := by
    unfold Shared.insert
    rw [absent]
    rfl
  constructor
  case count => exact follows.count
  case sits =>
    intro other
    rw [Shared.set_threads]
    by_cases same : other = thread
    · rw [same, if_pos rfl, Function.update_self]
      exact ⟨rfl, fits⟩
    · rw [if_neg same, Function.update_of_ne same]
      exact follows.sits other
  case clients =>
    intro other
    by_cases same : other = thread
    · rw [same, Function.update_self, follows.clients, there]
      rfl
    · rw [Function.update_of_ne same]
      exact follows.clients other
  case owner =>
    apply follows.owner_same
    rw [there]
    exact Iff.rfl
  case kept =>
    intro other found here
    change (shared.insert key made).table other = some found at here
    rw [table] at here
    by_cases same : other = key
    · rw [same, Function.update_self] at here
      rw [same, has, here]
    · rw [Function.update_of_ne same] at here
      exact follows.kept here
  case new =>
    intro other found here
    change (shared.insert key made).table other = some found ∨ _
    rw [table]
    by_cases same : other = key
    · rw [same, has] at here
      rw [same, Function.update_self]
      exact .inl here
    · rw [Function.update_of_ne same]
      rcases follows.new here with before | ⟨writer, storing⟩
      · exact .inl before
      · have alone : writer = thread :=
          follows.one (storing ▸ trivial) (there ▸ trivial)
        rw [alone, there] at storing
        cases storing
        exact absurd rfl same
  case storing =>
    intro other others_ found storing
    by_cases same : other = thread
    · rw [same, Function.update_self] at storing
      cases storing
    · rw [Function.update_of_ne same] at storing
      exact absurd (follows.one (storing ▸ trivial) (there ▸ trivial)) same
  case sure =>
    intro other others_ sure
    by_cases same : other = thread
    · rw [same, Function.update_self] at sure
      cases sure
    · rw [Function.update_of_ne same] at sure
      exact absurd (follows.one (sure ▸ trivial) (there ▸ trivial)) same
  case empty => exact follows.empty

end Moves

end Follows

/-! ## Every step of a thread -/

section Steps

variable [DecidableEq τ] [DecidableEq κ] {keeps probes : Bool}
  {procedure : κ → Code κ ν ε} {shared next : Shared τ κ ν ε}
  {model : State τ κ ν ε} {places : τ → Place κ ν ε} {thread : τ}
  {seen : List (Event τ κ ν ε)}

/-- The memo table answers a step, and follows the threads. -/
def Answers (keeps probes : Bool) (next : Shared τ κ ν ε)
    (model : State τ κ ν ε) (seen : List (Event τ κ ν ε)) : Prop :=
  ∃ actions after, (Memo.machine keeps).run actions model =
    some (after, seen) ∧ ∃ places, Follows keeps probes next after places

theorem Answers.silent (follows : Follows keeps probes next model places) :
    Answers keeps probes next model [] :=
  ⟨[], model, rfl, places, follows⟩

theorem Answers.single (action : Memo.Action τ κ ν ε)
    {after : State τ κ ν ε}
    (stepped : Memo.machine keeps model action = some (after, seen))
    (follows : Follows keeps probes next after places) :
    Answers keeps probes next model seen :=
  ⟨[action], after, Machine.run_single stepped, places, follows⟩

theorem call_answers (fits : ∀ key, Fits keeps probes (.asking key)
      (procedure key))
    (follows : Follows keeps probes shared model places) {key : κ}
    (stepped : machine procedure shared (.call thread key) =
      some (next, seen)) :
    Answers keeps probes next model seen := by
  cases running : shared.threads thread with
  | running own code => simp [machine, running] at stepped
  | idle =>
      simp only [machine, running] at stepped
      cases stepped
      have there : places thread = .idle := by
        have sits := follows.sits thread
        rwa [running] at sits
      have idle : model.clients thread = .idle := by
        rw [follows.clients, there]
        rfl
      have asked : Memo.machine keeps model (.ask thread key) =
          some (model.set thread (.waiting key), [.asked thread key]) := by
        simp only [Memo.machine, idle]
      apply Answers.single _ asked
      exact follows.shift (.asking key) there ⟨rfl, fits key⟩ Iff.rfl
        (by rintro _ ⟨⟩) (by rintro _ _ ⟨⟩) (by rintro _ _ ⟨⟩)

/-- The thread finds the value of the key. -/
theorem hit_answers (follows : Follows keeps probes shared model places)
    {key : κ} {made : Made ν} {before : Place κ ν ε} (place : Place κ ν ε)
    {moved : Thread κ ν ε} (there : places thread = before)
    (waiting : before.client = .waiting key)
    (found : shared.table key = some made)
    (served : place.client = .served key (.ok made))
    (sits : Sits keeps probes place moved)
    (locked : place.Locked ↔ before.Locked)
    (stored : ∀ {key made}, before ≠ .storing key made)
    (sure : ∀ {key}, place ≠ .sure key)
    (later : ∀ {key made}, place ≠ .storing key made) :
    Answers keeps probes (shared.set thread moved) model [] := by
  have asks : model.clients thread = .waiting key := by
    rw [follows.clients, there, waiting]
  have finds : Memo.machine keeps model (.find thread) =
      some (model.set thread place.client, []) := by
    simp only [Memo.machine, asks, follows.kept found, served]
    rfl
  apply Answers.single _ finds
  exact follows.shift place there sits locked (fun same => absurd same sure)
    stored later

/-- The thread goes on without news for its client. -/
theorem quiet_answers (follows : Follows keeps probes shared model places)
    {before : Place κ ν ε} (place : Place κ ν ε) {moved : Thread κ ν ε}
    (there : places thread = before) (same : place.client = before.client)
    (sits : Sits keeps probes place moved)
    (locked : place.Locked ↔ before.Locked)
    (sure : ∀ {key}, place = .sure key → shared.table key = none)
    (stored : ∀ {key made}, before ≠ .storing key made)
    (later : ∀ {key made}, place ≠ .storing key made) :
    Answers keeps probes (shared.set thread moved) model [] := by
  have shifted := follows.shift place there sits locked sure stored later
  rw [follows.set_same there same] at shifted
  exact .silent shifted

/-- The thread takes the free lock. -/
theorem lock_answers (follows : Follows keeps probes shared model places)
    {key : κ} {code : Code κ ν ε} (there : places thread = .asking key)
    (free : shared.owner = none) (fits : Fits keeps probes (.inside key) code) :
    Answers keeps probes
      ({ shared with owner := some thread }.set thread (.running key code))
      model [] := by
  have same : model.set thread (Place.inside key).client = model :=
    follows.set_same there rfl
  have clients : model.clients = Function.update model.clients thread
      (Place.inside key).client :=
    (congrArg State.clients same).symm
  refine .silent (follows.move (.inside key) rfl clients rfl rfl
    follows.count ⟨rfl, fits⟩ (Follows.locked_update ?_ ?_) ?_ ?_ ?_)
  · exact ⟨fun _ => rfl, fun _ => trivial⟩
  · intro other different
    rw [follows.owner, free]
    constructor
    · rintro ⟨⟩
    · intro owns
      exact absurd (Option.some.inj owns).symm different
  · rintro _ ⟨⟩
  · rw [there]
    rintro _ _ ⟨⟩
  · rintro _ _ ⟨⟩

/-- The thread gives the lock back. -/
theorem unlock_answers (follows : Follows keeps probes shared model places)
    {key : κ} {result : Except ε (Made ν)} {code : Code κ ν ε}
    (there : places thread = .leaving key result)
    (fits : Fits keeps probes (.answering key result) code) :
    Answers keeps probes
      ({ shared with owner := none }.set thread (.running key code))
      model [] := by
  have same : model.set thread (Place.answering key result).client = model :=
    follows.set_same there rfl
  have clients : model.clients = Function.update model.clients thread
      (Place.answering key result).client :=
    (congrArg State.clients same).symm
  refine .silent (follows.move (.answering key result) rfl clients
    rfl rfl follows.count ⟨rfl, fits⟩ (Follows.locked_update ?_ ?_) ?_ ?_ ?_)
  · exact ⟨False.elim, fun owns => by cases owns⟩
  · intro other different
    constructor
    · intro locked
      exact absurd (follows.one locked (there ▸ trivial)) different
    · rintro ⟨⟩
  · rintro _ ⟨⟩
  · rw [there]
    rintro _ _ ⟨⟩
  · rintro _ _ ⟨⟩

/-- The thread returns what it has got. -/
theorem result_answers (follows : Follows keeps probes shared model places)
    {key : κ} {result : Except ε (Made ν)}
    (there : places thread = .answering key result) :
    Answers keeps probes (shared.set thread .idle) model
      [.answered thread key result] := by
  have served : model.clients thread = .served key result := by
    rw [follows.clients, there]
    rfl
  have answers : Memo.machine keeps model (.answer thread) =
      some (model.set thread .idle, [.answered thread key result]) := by
    simp only [Memo.machine, served]
  apply Answers.single _ answers
  exact follows.shift .idle there rfl Iff.rfl (by rintro _ ⟨⟩)
    (by rintro _ _ ⟨⟩) (by rintro _ _ ⟨⟩)

/-- The thread has loaded a value that is not kept. -/
theorem bare_answers (follows : Follows false probes shared model places)
    {key : κ} {value : ν} {code : Code κ ν ε}
    (there : places thread = .asking key)
    (waiting : model.clients thread = .waiting key)
    (fits : Fits false probes (.answering key (.ok ⟨shared.count, value⟩))
      code) :
    Answers false probes
      ({ shared with count := shared.count + 1 }.set thread
        (.running key code))
      model [.loaded thread key (.ok value)] := by
  have same : model.next value = ⟨shared.count, value⟩ := by
    unfold State.next
    rw [follows.count]
  have loads : Memo.machine false model (.load thread (.ok value)) =
      some ((model.make false key value).set thread
        (.served key (.ok (model.next value))),
        [.loaded thread key (.ok value)]) := by
    simp only [Memo.machine, waiting, follows.empty rfl key]
    rfl
  apply Answers.single _ loads
  rw [same]
  refine follows.move (.answering key (.ok ⟨shared.count, value⟩)) rfl rfl rfl
    rfl (congrArg Nat.succ follows.count) ⟨rfl, fits⟩ ?_ ?_ ?_ ?_
  · apply follows.owner_same
    rw [there]
    exact Iff.rfl
  · rintro _ ⟨⟩
  · rw [there]
    rintro _ _ ⟨⟩
  · rintro _ _ ⟨⟩

theorem go_answers (follows : Follows keeps probes shared model places)
    (stepped : machine procedure shared (.go thread) = some (next, seen)) :
    Answers keeps probes next model seen := by
  have sits := follows.sits thread
  cases running : shared.threads thread with
  | idle => simp [machine, running] at stepped
  | running key code =>
      rw [running] at sits
      obtain ⟨about, fits⟩ := sits
      generalize there : places thread = place at about fits
      simp only [machine, running] at stepped
      cases fits with
      | probe allowed hit miss =>
          cases about
          cases found : shared.table key with
          | none =>
              simp only [found] at stepped
              cases stepped
              exact quiet_answers follows (.asking key) there rfl ⟨rfl, miss⟩
                Iff.rfl (by rintro _ ⟨⟩) (by rintro _ _ ⟨⟩) (by rintro _ _ ⟨⟩)
          | some made =>
              simp only [found] at stepped
              cases stepped
              exact hit_answers follows (.answering key (.ok made)) there rfl
                found rfl ⟨rfl, hit made⟩ Iff.rfl (by rintro _ _ ⟨⟩)
                (by rintro _ ⟨⟩) (by rintro _ _ ⟨⟩)
      | lock inside =>
          cases about
          cases free : shared.owner with
          | some _ => simp [free] at stepped
          | none =>
              simp only [free] at stepped
              cases stepped
              exact lock_answers follows there free inside
      | check hit miss =>
          cases about
          cases found : shared.table key with
          | none =>
              simp only [found] at stepped
              cases stepped
              refine quiet_answers follows (.sure key) there rfl ⟨rfl, miss⟩
                Iff.rfl ?_ (by rintro _ _ ⟨⟩) (by rintro _ _ ⟨⟩)
              rintro _ ⟨⟩
              exact found
          | some made =>
              simp only [found] at stepped
              cases stepped
              exact hit_answers follows (.leaving key (.ok made)) there rfl
                found rfl ⟨rfl, hit made⟩ Iff.rfl (by rintro _ _ ⟨⟩)
                (by rintro _ ⟨⟩) (by rintro _ _ ⟨⟩)
      | load _ _ _ => cases stepped
      | insert leaves =>
          cases about
          cases stepped
          exact .silent (follows.inserted there leaves)
      | unlock answers =>
          cases about
          cases stepped
          exact unlock_answers follows there answers
      | result =>
          cases about
          cases stepped
          exact result_answers follows there
      | bare _ _ _ => cases stepped

theorem load_answers (follows : Follows keeps probes shared model places)
    {result : Except ε ν}
    (stepped : machine procedure shared (.load thread result) =
      some (next, seen)) :
    Answers keeps probes next model seen := by
  have sits := follows.sits thread
  cases running : shared.threads thread with
  | idle => simp [machine, running] at stepped
  | running key code =>
      rw [running] at sits
      obtain ⟨about, fits⟩ := sits
      generalize there : places thread = place at about fits
      simp only [machine, running] at stepped
      have asks : place.client = .waiting key →
          model.clients thread = .waiting key := by
        intro waiting
        rw [follows.clients, there, waiting]
      cases fits with
      | load keeping stores leaves =>
          cases about
          cases keeping
          have absent := follows.absent there
          cases result with
          | ok value =>
              cases stepped
              apply Answers.single (.load thread (.ok value))
              · simp only [Memo.machine, asks rfl, absent]
                rfl
              · exact follows.loaded there (stores _)
          | error failure =>
              cases stepped
              apply Answers.single (.load thread (.error failure))
              · simp only [Memo.machine, asks rfl, absent]
                rfl
              · exact follows.shift (.leaving key (.error failure)) there
                  ⟨rfl, leaves failure⟩ Iff.rfl (by rintro _ ⟨⟩)
                  (by rintro _ _ ⟨⟩) (by rintro _ _ ⟨⟩)
      | bare alone answers fails =>
          cases about
          cases alone
          have absent := follows.empty rfl key
          cases result with
          | ok value =>
              cases stepped
              exact bare_answers follows there (asks rfl) (answers _)
          | error failure =>
              cases stepped
              apply Answers.single (.load thread (.error failure))
              · simp only [Memo.machine, asks rfl, absent]
                rfl
              · exact follows.shift (.answering key (.error failure)) there
                  ⟨rfl, fails failure⟩ Iff.rfl (by rintro _ ⟨⟩)
                  (by rintro _ _ ⟨⟩) (by rintro _ _ ⟨⟩)
      | _ => cases stepped

/-- The memo table follows every interleaving of the threads. -/
theorem simulates
    (fits : ∀ key, Fits keeps probes (.asking key) (procedure key)) :
    (machine (τ := τ) procedure).Simulates (Memo.machine keeps)
      fun shared model => ∃ places, Follows keeps probes shared model places := by
  rintro shared action next seen model ⟨places, follows⟩ stepped
  cases action with
  | call thread key => exact call_answers fits follows stepped
  | go thread => exact go_answers follows stepped
  | load thread result => exact load_answers follows stepped

/-- Whatever the threads do, they are seen to do what the clients of a memo
table do. -/
theorem reached (fits : ∀ key, Fits keeps probes (.asking key)
      (procedure key))
    {actions : List (Action τ κ ν ε)} {final : Shared τ κ ν ε}
    {trace : List (Event τ κ ν ε)}
    (ran : (machine procedure).run actions Shared.start =
      some (final, trace)) :
    ∃ answers model places, (Memo.machine keeps).run answers State.start =
        some (model, trace) ∧ Follows keeps probes final model places := by
  obtain ⟨answers, model, same, places, follows⟩ :=
    (simulates fits).run ⟨_, .start⟩ ran
  exact ⟨answers, model, places, same, follows⟩

/-! ## Threads that go on -/

/-- The thread can take a step; if it is loading a value, it can go on however
that ends. -/
def CanGo (procedure : κ → Code κ ν ε) (shared : Shared τ κ ν ε)
    (thread : τ) : Prop :=
  (machine procedure shared (.go thread)).isSome ∨
    ∀ result, (machine procedure shared (.load thread result)).isSome

/-- The thread waits for the lock, which another thread holds that can go
on. -/
def Waits (procedure : κ → Code κ ν ε) (shared : Shared τ κ ν ε)
    (thread : τ) : Prop :=
  ∃ key next owner, shared.threads thread = .running key (.lock next) ∧
    shared.owner = some owner ∧ owner ≠ thread ∧
    CanGo procedure shared owner

/-- Only the lock can keep a thread from going on. -/
theorem canGo_of_running {key : κ} {code : Code κ ν ε}
    (running : shared.threads thread = .running key code)
    (open_ : ∀ next, code = .lock next → shared.owner = none) :
    CanGo procedure shared thread := by
  cases code with
  | lock next =>
      left
      simp [machine, running, open_ next rfl]
  | load sought loaded failed =>
      right
      rintro (failure | value) <;> simp [machine, running]
  | _ =>
      left
      simp [machine, running]

/-- A thread in the middle of a call goes on, or waits for one that does. -/
theorem goes_or_waits (follows : Follows keeps probes shared model places)
    (busy : shared.threads thread ≠ .idle) :
    CanGo procedure shared thread ∨ Waits procedure shared thread := by
  cases running : shared.threads thread with
  | idle => exact absurd running busy
  | running key code =>
      by_cases closed : ∃ next, code = .lock next ∧ shared.owner ≠ none
      · obtain ⟨next, rfl, taken⟩ := closed
        obtain ⟨owner, owned⟩ := Option.ne_none_iff_exists'.mp taken
        have outside : ¬ (places thread).Locked := by
          have sits := follows.sits thread
          rw [running] at sits
          obtain ⟨-, fits⟩ := sits
          generalize places thread = place at fits
          cases fits
          exact not_false
        have locked := (follows.owner owner).mpr owned
        have different : owner ≠ thread := by
          rintro rfl
          exact outside locked
        refine .inr ⟨key, next, owner, running, owned, different, ?_⟩
        have sits := follows.sits owner
        cases other : shared.threads owner with
        | idle =>
            rw [other] at sits
            rw [show places owner = .idle from sits] at locked
            exact locked.elim
        | running own code =>
            rw [other] at sits
            obtain ⟨-, fits⟩ := sits
            apply canGo_of_running other
            rintro next rfl
            generalize places owner = place at fits locked
            cases fits
            exact locked.elim
      · left
        apply canGo_of_running running
        intro next same
        by_contra taken
        exact closed ⟨next, same, taken⟩

/-! ## How long a call takes -/

/-- Code that returns after so many steps at most. -/
inductive Bounded : Nat → Code κ ν ε → Prop
  | find {limit : Nat} {key : κ} {hit : Made ν → Code κ ν ε}
      {miss : Code κ ν ε} : (∀ made, Bounded limit (hit made)) →
      Bounded limit miss → Bounded (limit + 1) (.find key hit miss)
  | lock {limit : Nat} {next : Code κ ν ε} : Bounded limit next →
      Bounded (limit + 1) (.lock next)
  | unlock {limit : Nat} {next : Code κ ν ε} : Bounded limit next →
      Bounded (limit + 1) (.unlock next)
  | load {limit : Nat} {key : κ} {loaded : Made ν → Code κ ν ε}
      {failed : ε → Code κ ν ε} : (∀ made, Bounded limit (loaded made)) →
      (∀ failure, Bounded limit (failed failure)) →
      Bounded (limit + 1) (.load key loaded failed)
  | insert {limit : Nat} {key : κ} {made : Made ν} {next : Code κ ν ε} :
      Bounded limit next → Bounded (limit + 1) (.insert key made next)
  | result {limit : Nat} {answer : Except ε (Made ν)} :
      Bounded (limit + 1) (.result answer)

/-- The steps a thread still takes in its call. -/
def Left (thread : τ) (shared : Shared τ κ ν ε) (limit : Nat) : Prop :=
  match shared.threads thread with
  | .idle => True
  | .running _ code => Bounded limit code

/-- A step the thread takes in a call. -/
def Action.works (thread : τ) : Action τ κ ν ε → Bool
  | .call _ _ => false
  | .go other | .load other _ => other = thread

/-- The thread calls the procedure. -/
def Action.calls (thread : τ) : Action τ κ ν ε → Bool
  | .call other _ => other = thread
  | .go _ | .load _ _ => false

/-- The thread that acts. -/
def Action.actor : Action τ κ ν ε → τ
  | .call thread _ | .go thread | .load thread _ => thread

/-- A step leaves the other threads where they are. -/
theorem threads_of_ne {action : Action τ κ ν ε} {other : τ}
    (stepped : machine procedure shared action = some (next, seen))
    (different : other ≠ action.actor) :
    next.threads other = shared.threads other := by
  cases action with
  | call thread key =>
      cases running : shared.threads thread with
      | idle =>
          simp only [machine, running] at stepped
          cases stepped
          exact Function.update_of_ne different ..
      | running own code => simp [machine, running] at stepped
  | go thread =>
      cases running : shared.threads thread with
      | idle => simp [machine, running] at stepped
      | running key code =>
          cases code with
          | lock rest =>
              cases free : shared.owner with
              | none =>
                  simp only [machine, running, free] at stepped
                  cases stepped
                  exact Function.update_of_ne different ..
              | some _ => simp [machine, running, free] at stepped
          | load _ _ _ => simp [machine, running] at stepped
          | _ =>
              simp only [machine, running] at stepped
              cases stepped
              exact Function.update_of_ne different ..
  | load thread result =>
      cases running : shared.threads thread with
      | idle => simp [machine, running] at stepped
      | running key code =>
          cases code with
          | load _ _ _ =>
              cases result <;> simp only [machine, running] at stepped <;>
                cases stepped <;> exact Function.update_of_ne different ..
          | _ => simp [machine, running] at stepped

omit [DecidableEq κ] in
/-- A thread that has come so far has as many steps left. -/
theorem left_set {place : Thread κ ν ε} {limit : Nat}
    (left : match place with
      | .idle => True
      | .running _ code => Bounded limit code) :
    Left thread (shared.set thread place) limit := by
  unfold Left
  rw [Shared.set_threads, if_pos rfl]
  exact left

/-- A step of a call is one step less. -/
theorem left_go {before : Nat} {key : κ} {code : Code κ ν ε}
    (running : shared.threads thread = .running key code)
    (bounded : Bounded before code)
    (stepped : machine procedure shared (.go thread) = some (next, seen)) :
    ∃ after, Left thread next after ∧ after + 1 ≤ before := by
  simp only [machine, running] at stepped
  cases bounded with
  | @find limit sought hit miss found absent =>
      cases stepped
      refine ⟨limit, left_set ?_, Nat.le_refl _⟩
      cases shared.table sought with
      | none => exact absent
      | some made => exact found made
  | @lock limit rest bounded =>
      cases free : shared.owner with
      | none =>
          simp only [free] at stepped
          cases stepped
          exact ⟨limit, left_set bounded, Nat.le_refl _⟩
      | some _ => simp [free] at stepped
  | @unlock limit rest bounded =>
      cases stepped
      exact ⟨limit, left_set bounded, Nat.le_refl _⟩
  | load _ _ => cases stepped
  | @insert limit sought made rest bounded =>
      cases stepped
      exact ⟨limit, left_set bounded, Nat.le_refl _⟩
  | @result limit answer =>
      cases stepped
      exact ⟨limit, left_set trivial, Nat.le_refl _⟩

theorem left_load {before : Nat} {key : κ} {code : Code κ ν ε}
    {result : Except ε ν} (running : shared.threads thread = .running key code)
    (bounded : Bounded before code)
    (stepped : machine procedure shared (.load thread result) =
      some (next, seen)) :
    ∃ after, Left thread next after ∧ after + 1 ≤ before := by
  simp only [machine, running] at stepped
  cases bounded with
  | @load limit sought loaded failed succeeds fails =>
      cases result with
      | ok value =>
          cases stepped
          exact ⟨limit, left_set (succeeds _), Nat.le_refl _⟩
      | error failure =>
          cases stepped
          exact ⟨limit, left_set (fails _), Nat.le_refl _⟩
  | _ => cases stepped

/-- The steps of a thread are paid for by its calls. -/
theorem pays {limit : Nat} (bounded : ∀ key, Bounded limit (procedure key))
    (thread : τ) :
    (machine procedure).Pays (Left thread) (Action.works thread)
      (Action.calls thread) limit := by
  intro shared action next seen before left stepped
  by_cases own : action.actor = thread
  · cases own
    cases action with
    | call thread key =>
        cases running : shared.threads thread with
        | running _ _ => simp [machine, running] at stepped
        | idle =>
            simp only [machine, running] at stepped
            cases stepped
            refine ⟨limit, left_set (bounded key), ?_⟩
            simp [Action.works, Action.calls, Action.actor]
    | go thread =>
        cases running : shared.threads thread with
        | idle => simp [machine, running] at stepped
        | running key code =>
            simp only [Left, Action.actor, running] at left
            obtain ⟨after, remains, less⟩ := left_go running left stepped
            refine ⟨after, remains, ?_⟩
            simp only [Action.works, Action.calls, Action.actor, decide_true,
              Bool.toNat_true, Bool.toNat_false]
            omega
    | load thread result =>
        cases running : shared.threads thread with
        | idle => simp [machine, running] at stepped
        | running key code =>
            simp only [Left, Action.actor, running] at left
            obtain ⟨after, remains, less⟩ := left_load running left stepped
            refine ⟨after, remains, ?_⟩
            simp only [Action.works, Action.calls, Action.actor, decide_true,
              Bool.toNat_true, Bool.toNat_false]
            omega
  · have same := threads_of_ne stepped (Ne.symm own)
    refine ⟨before, ?_, ?_⟩
    · unfold Left
      rw [same]
      exact left
    · have idle : action.works thread = false := by
        cases action <;> simp_all [Action.works, Action.actor]
      rw [idle]
      exact Nat.le_add_right ..

/-- A thread takes at most so many steps for each of its calls. -/
theorem works_le {limit : Nat} (bounded : ∀ key, Bounded limit (procedure key))
    {actions : List (Action τ κ ν ε)} {final : Shared τ κ ν ε}
    {trace : List (Event τ κ ν ε)}
    (ran : (machine procedure).run actions Shared.start = some (final, trace))
    (thread : τ) :
    actions.countP (Action.works thread) ≤
      limit * actions.countP (Action.calls thread) := by
  have idle : Left thread (Shared.start : Shared τ κ ν ε) 0 := trivial
  obtain ⟨after, -, paid⟩ := (pays bounded thread).run idle ran
  omega

/-- From a call on, until the thread calls again, it takes at most so many
steps. -/
theorem works_in_call_le {limit : Nat}
    (bounded : ∀ key, Bounded limit (procedure key))
    {before within : List (Action τ κ ν ε)} {thread : τ} {key : κ}
    {start final : Shared τ κ ν ε} {trace : List (Event τ κ ν ε)}
    (ran : (machine procedure).run (before ++ .call thread key :: within)
      start = some (final, trace))
    (turn : within.countP (Action.calls thread) = 0) :
    within.countP (Action.works thread) ≤ limit := by
  obtain ⟨asking, _, _, -, after⟩ := Machine.of_run_append ran
  obtain ⟨called, _, _, stepped, rest, -⟩ := Machine.of_run_cons after
  have left : Left thread called limit := by
    cases running : asking.threads thread with
    | running _ _ => simp [machine, running] at stepped
    | idle =>
        simp only [machine, running] at stepped
        cases stepped
        exact left_set (bounded key)
  obtain ⟨remains, -, paid⟩ := (pays bounded thread).run left rest
  rw [turn] at paid
  omega

end Steps

/-! ## Access to the table -/

/-- The thread is about to read the table. -/
def Shared.Reads (shared : Shared τ κ ν ε) (thread : τ) : Prop :=
  ∃ key sought hit miss,
    shared.threads thread = .running key (.find sought hit miss)

/-- The thread is about to change the table. -/
def Shared.Writes (shared : Shared τ κ ν ε) (thread : τ) : Prop :=
  ∃ key sought made next,
    shared.threads thread = .running key (.insert sought made next)

/-- The one thread is about to change the table while the other one is about
to use it. -/
def Shared.Race (shared : Shared τ κ ν ε) (writer other : τ) : Prop :=
  writer ≠ other ∧ shared.Writes writer ∧
    (shared.Reads other ∨ shared.Writes other)

section Races

variable {keeps probes : Bool} {shared : Shared τ κ ν ε}
  {model : State τ κ ν ε} {places : τ → Place κ ν ε} {writer other : τ}

theorem owner_of_writes (follows : Follows keeps probes shared model places)
    (writes : shared.Writes writer) : shared.owner = some writer := by
  obtain ⟨key, sought, made, next, running⟩ := writes
  have sits := follows.sits writer
  rw [running] at sits
  obtain ⟨-, fits⟩ := sits
  apply (follows.owner writer).mp
  generalize places writer = place at fits ⊢
  cases fits
  exact trivial

/-- Who races with a thread that changes the table reads it without the
lock. -/
theorem probes_of_race (follows : Follows keeps probes shared model places)
    (race : shared.Race writer other) :
    probes = true ∧ shared.owner = some writer ∧ shared.Reads other := by
  obtain ⟨different, writes, uses⟩ := race
  have owned := owner_of_writes follows writes
  rcases uses with reads | writes
  · refine ⟨?_, owned, reads⟩
    obtain ⟨key, sought, hit, miss, running⟩ := reads
    have sits := follows.sits other
    rw [running] at sits
    obtain ⟨-, fits⟩ := sits
    have outside : ¬ (places other).Locked := by
      intro locked
      have mine := (follows.owner other).mp locked
      rw [owned] at mine
      exact different (Option.some.inj mine)
    generalize places other = place at fits outside
    cases fits with
    | probe allowed _ _ => exact allowed
    | check _ _ => exact absurd trivial outside
  · have mine := owner_of_writes follows writes
    rw [owned] at mine
    exact absurd (Option.some.inj mine) different

end Races

end Threads
