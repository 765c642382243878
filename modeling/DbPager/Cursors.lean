import DbPager.Library.Prefixes
import DbPager.Tags.Services
import DbPager.Plain
import Mathlib.Data.Char

/-!
# Prefix search in Berkeley DB

`bdb_database::find` makes an iterator over the records whose keys begin with
a text.  It positions a cursor with `DB_SET_RANGE`, moves it with `DB_NEXT`,
and stops at the first key that differs from the text in its first characters.
The keys the cursor returns are not terminated by a null character.
-/

namespace DbPager.Bdb

open Effect

/-- The records of a database file, as a cursor goes through them. -/
structure Content where
  records : List (Str × Str)
  ascending : Prefixes.Ascending records

namespace Content

/-- `Dbc::get` with `DB_SET_RANGE`; without a result, `DB_NOTFOUND`. -/
def setRange (content : Content) (key : Str) : Option (Str × Str) :=
  content.records.find? fun record => !decide (record.1 < key)

/-- `Dbc::get` with `DB_NEXT`; a cursor without a position moves to the first
record. -/
def next (content : Content) : Option Str → Option (Str × Str)
  | some position =>
      content.records.find? fun record => decide (position < record.1)
  | none => content.records.head?

/-- The record with the least key that is not below the given one. -/
theorem setRange_least {content : Content} {key : Str} {record : Str × Str}
    (found : content.setRange key = some record) :
    record ∈ content.records ∧ ¬ record.1 < key ∧
      ∀ other ∈ content.records, ¬ other.1 < key → ¬ other.1 < record.1 := by
  let test (other : Str) : Bool := !decide (other < key)
  have tests (other : Str) : test other = true ↔ ¬ other < key := by
    rw [Bool.not_eq_true', decide_eq_false_iff_not]
  obtain ⟨inside, above, least⟩ :=
    @Prefixes.Ascending.find?_least Char Str _ _ content.ascending test _ found
  refine ⟨inside, (tests _).mp above, ?_⟩
  intro other there notBelow
  exact least other there ((tests _).mpr notBelow)

/-- The record with the least key above the position. -/
theorem next_least {content : Content} {position : Str} {record : Str × Str}
    (found : content.next (some position) = some record) :
    record ∈ content.records ∧ position < record.1 ∧
      ∀ other ∈ content.records, position < other.1 →
        ¬ other.1 < record.1 := by
  let test (other : Str) : Bool := decide (position < other)
  obtain ⟨inside, above, least⟩ :=
    @Prefixes.Ascending.find?_least Char Str _ _ content.ascending test _ found
  refine ⟨inside, of_decide_eq_true above, ?_⟩
  intro other there later
  exact least other there (decide_eq_true later)

end Content

/-- `strncmp(buffer, text, n)` for a buffer that no null character terminates;
there is no result if it reads behind the end of the buffer. -/
def strncmp : Str → Str → Nat → Option Ordering
  | _, _, 0 => some .eq
  | [], _, _ + 1 => none
  | c :: buffer, text, n + 1 =>
      let d := text.headD (Char.ofNat 0)
      if c = d then
        if c = Char.ofNat 0 then some .eq else strncmp buffer text.tail n
      else some (compare c d)

/-- What `ret` holds. -/
inductive Ret where
  | zero
  | notFound
  deriving DecidableEq

theorem Ret.zero_ne : Ret.zero ≠ .notFound := by
  intro same
  cases same

/-- The members of `bdb_database::iterator`; of the cursor, the key it stands
at. -/
structure Iterator where
  cursorp : Option Str
  ret : Ret
  key : Str
  rslt : Str × Str

namespace Iterator

/-- What the constructor and `operator++` do with the record the cursor
returns; nothing is defined if the comparison reads behind the record's key. -/
def accept (it : Iterator) : Option (Str × Str) → Option Iterator
  | none => some { it with ret := .notFound }
  | some record => do
      let order ← strncmp record.1 it.key it.key.length
      if order ≠ .eq then
        some { it with cursorp := some record.1, ret := .notFound }
      else
        some { it with
          cursorp := some record.1
          ret := .zero
          rslt := record }

/-- `bdb_database::find`. -/
def find (content : Content) (key : Str) : Option Iterator :=
  accept ⟨none, .notFound, key, ([], [])⟩ (content.setRange key)

/-- `operator++`. -/
def advance (content : Content) (it : Iterator) : Option Iterator :=
  match it.ret with
  | .notFound => some it
  | .zero => it.accept (content.next it.cursorp)

/-- `it != end()`: what `end` returns has `DB_NOTFOUND`. -/
def More (it : Iterator) : Prop :=
  it.ret ≠ .notFound

end Iterator

/-- The loop from an iterator to `end()`, with the records it visits. -/
inductive Visits (content : Content) :
    Option Iterator → List (Str × Str) → Prop where
  | done {it : Iterator} : ¬ it.More → Visits content (some it) []
  | next {it : Iterator} {visited : List (Str × Str)} :
      it.More → Visits content (it.advance content) visited →
        Visits content (some it) (it.rslt :: visited)

/-- The loop visits one sequence of records at most. -/
theorem Visits.unique {content : Content} {it : Option Iterator}
    {first second : List (Str × Str)} (visits : Visits content it first)
    (again : Visits content it second) : first = second := by
  induction visits generalizing second with
  | done stops =>
      cases again with
      | done => rfl
      | next more => exact absurd more stops
  | next more _ induction =>
      cases again with
      | done stops => exact absurd more stops
      | next _ rest => rw [induction rest]

/-- On a key that is not below the text, the comparison stays inside the
buffer and finds out whether the key begins with the text. -/
theorem strncmp_eq {text buffer : Str} (plain : Char.ofNat 0 ∉ text)
    (notBelow : ¬ buffer < text) :
    ∃ order, strncmp buffer text text.length = some order ∧
      (order = .eq ↔ text <+: buffer) := by
  induction text generalizing buffer with
  | nil =>
      unfold strncmp
      exact ⟨.eq, rfl, iff_of_true rfl List.nil_prefix⟩
  | cons d text induction =>
      rw [List.mem_cons, not_or] at plain
      obtain ⟨visible, plain⟩ := plain
      cases buffer with
      | nil => exact absurd (List.nil_lt_cons d text) notBelow
      | cons c buffer =>
          by_cases same : c = d
          · subst same
            have further : ¬ buffer < text := by
              intro below
              exact notBelow (List.cons_lt_cons_iff.mpr (.inr ⟨rfl, below⟩))
            obtain ⟨order, compared, begins⟩ := induction plain further
            have step : strncmp (c :: buffer) (c :: text) (text.length + 1) =
                strncmp buffer text text.length := by
              rw [strncmp]
              simp only [List.headD_cons, List.tail_cons, if_true,
                if_neg (Ne.symm visible)]
            refine ⟨order, step.trans compared, begins.trans ?_⟩
            exact (List.prefix_cons_inj c).symm
          · have step : strncmp (c :: buffer) (d :: text) (text.length + 1) =
                some (compare c d) := by
              rw [strncmp]
              exact if_neg same
            refine ⟨compare c d, step, ?_⟩
            apply iff_of_false
            · intro equal
              exact same (compare_eq_iff_eq.mp equal)
            · intro begins
              exact same (List.cons_prefix_cons.mp begins).1.symm

/-- The records whose key begins with the text. -/
def matching (text : Str) (records : List (Str × Str)) : List (Str × Str) :=
  records.filter fun record => text.isPrefixOf record.1

theorem mem_matching {text : Str} {record : Str × Str}
    {records : List (Str × Str)} :
    record ∈ matching text records ↔ record ∈ records ∧ text <+: record.1 := by
  unfold matching
  rw [List.mem_filter, List.isPrefixOf_iff_prefix]

theorem matching_eq_nil {text : Str} {records : List (Str × Str)}
    (others : ∀ record ∈ records, ¬ text <+: record.1) :
    matching text records = [] := by
  apply List.filter_eq_nil_iff.mpr
  intro record inside begins
  exact others record inside (List.isPrefixOf_iff_prefix.mp begins)

/-- From the first record of the rest on, the loop visits those that match. -/
theorem visits_rest {content : Content} {it : Iterator}
    (plain : Char.ofNat 0 ∉ it.key) (before rest : List (Str × Str))
    (split : content.records = before ++ rest)
    (notBelow : ∀ record ∈ rest, ¬ record.1 < it.key) :
    Visits content (it.accept rest.head?) (matching it.key rest) := by
  induction rest generalizing before it with
  | nil => exact .done (fun more => more rfl)
  | cons record rest induction =>
      have ascending := content.ascending
      rw [split] at ascending
      obtain ⟨-, here, -⟩ := List.pairwise_append.mp ascending
      have above := notBelow record List.mem_cons_self
      obtain ⟨order, compared, begins⟩ := strncmp_eq plain above
      change Visits content (strncmp record.1 it.key it.key.length >>= _) _
      rw [compared]
      by_cases same : order = .eq
      · have taken : matching it.key (record :: rest) =
            record :: matching it.key rest :=
          List.filter_cons_of_pos
            (List.isPrefixOf_iff_prefix.mpr (begins.mp same))
        rw [taken]
        subst same
        have moved : content.next (some record.1) = rest.head? := by
          unfold Content.next
          rw [split]
          apply ascending.find?_above
          intro other
          exact decide_eq_true_iff
        have visits := @induction ⟨some record.1, .zero, it.key, record⟩ plain
          (before ++ [record]) (by rw [split, List.append_assoc]; rfl)
          (fun other inside =>
            notBelow other (List.mem_cons_of_mem _ inside))
        rw [← moved] at visits
        exact @Visits.next content ⟨some record.1, .zero, it.key, record⟩ _
          Ret.zero_ne visits
      · have none : matching it.key (record :: rest) = [] := by
          apply matching_eq_nil
          intro other inside
          rcases List.mem_cons.mp inside with rfl | later
          · exact fun starts => same (begins.mpr starts)
          · exact Prefixes.Ascending.no_prefix_behind here above
              (fun starts => same (begins.mpr starts)) other later
        rw [none]
        change Visits content (if order ≠ .eq then _ else _) []
        rw [if_pos same]
        exact .done (fun more => more rfl)

/-- The loop visits the matching records in their order. -/
theorem visits_find (content : Content) {key : Str}
    (plain : Char.ofNat 0 ∉ key) :
    Visits content (Iterator.find content key)
      (matching key content.records) := by
  unfold Iterator.find
  cases found : content.setRange key with
  | none =>
      have below := List.find?_eq_none.mp found
      have nothing : matching key content.records = [] := by
        apply matching_eq_nil
        intro record inside
        apply Prefixes.not_prefix_of_lt
        simpa using below record inside
      rw [nothing]
      exact .done (fun more => more rfl)
  | some record =>
      obtain ⟨above, before, rest, split, earlier⟩ :=
        List.find?_eq_some_iff_append.mp found
      have skipped : matching key content.records =
          matching key (record :: rest) := by
        have nothing : matching key before = [] := by
          apply matching_eq_nil
          intro other inside
          apply Prefixes.not_prefix_of_lt
          simpa using earlier other inside
        unfold matching at nothing ⊢
        rw [split, List.filter_append, nothing]
        rfl
      rw [skipped]
      have ascending := content.ascending
      rw [split] at ascending
      obtain ⟨-, here, -⟩ := List.pairwise_append.mp ascending
      obtain ⟨later, -⟩ := List.pairwise_cons.mp here
      have start : ¬ record.1 < key := by simpa using above
      apply @visits_rest content ⟨none, .notFound, key, ([], [])⟩ plain before
        (record :: rest) split
      intro other inside under
      rcases List.mem_cons.mp inside with rfl | behind
      · exact start under
      · exact start (List.lt_trans (later other behind) under)

/-! ## The tag -/

structure Database where
  content : Content
  isOpened : Bool

/-- An iterator in the loop of `tag_find`: after the first round the loop
moves it on before it is tested. -/
structure Search where
  database : Nat
  it : Iterator
  started : Bool

namespace Search

/-- The iterator the loop tests next. -/
def current (search : Search) (content : Content) : Option Iterator :=
  if search.started then search.it.advance content else some search.it

end Search

variable {W : Type}

/-- The memory with the open databases and the iterators, by their
addresses. -/
structure Storage (W : Type) where
  databases : W → Nat → Option Database
  searches : W → Nat → Option Search
  create : Search → W → W × Nat
  write : Nat → Search → W → W
  searches_create : ∀ search world,
    searches (create search world).1 (create search world).2 = some search
  databases_create : ∀ search world,
    databases (create search world).1 = databases world
  searches_write : ∀ cursor search world,
    searches (write cursor search world) cursor = some search
  databases_write : ∀ cursor search world,
    databases (write cursor search world) = databases world

namespace Storage

variable (storage : Storage W)

/-- `bdb_database::find`, with the iterator it returns kept in memory. -/
def find (dcl : Dcl) (db : Nat) (key : Str) : Io W Nat := fun world =>
  match storage.databases world db with
  | none => (world, .halt .fault)
  | some database =>
      if database.isOpened then
        match Iterator.find database.content key with
        | none => (world, .halt .fault)
        | some it =>
            ((storage.create ⟨db, it, false⟩ world).1,
              .value (storage.create ⟨db, it, false⟩ world).2)
      else (world, .error (dcl.exception "storage is not opened" []))

/-- The head of the loop: the record under the iterator unless it is at the
end. -/
def next (cursor : Nat) : Io W (Option (Str × Str)) := fun world =>
  match storage.searches world cursor with
  | none => (world, .halt .fault)
  | some search =>
      match storage.databases world search.database with
      | none => (world, .halt .fault)
      | some database =>
          match search.current database.content with
          | none => (world, .halt .fault)
          | some it =>
              (storage.write cursor ⟨search.database, it, true⟩ world,
                .value (match it.ret with
                  | .zero => some it.rslt
                  | .notFound => none))

/-- From here on, the iterator visits these records of the database. -/
def Visiting (cursor db : Nat) (content : Content) (world : W)
    (records : List (Str × Str)) : Prop :=
  ∃ search opened, storage.searches world cursor = some search ∧
    search.database = db ∧
    storage.databases world db = some ⟨content, opened⟩ ∧
    Visits content (search.current content) records

variable {storage} {cursor db : Nat} {content : Content}

theorem next_visiting {world : W} {record : Str × Str}
    {records : List (Str × Str)}
    (visiting : storage.Visiting cursor db content world (record :: records)) :
    ∃ later, storage.next cursor world = (later, .value (some record)) ∧
      storage.Visiting cursor db content later records := by
  obtain ⟨search, opened, found, rfl, there, visits⟩ := visiting
  cases current : search.current content with
  | none =>
      rw [current] at visits
      cases visits
  | some it =>
      rw [current] at visits
      cases visits with
      | next more rest =>
          have stands : it.ret = .zero := by
            cases same : it.ret with
            | zero => rfl
            | notFound => exact absurd same more
          refine ⟨storage.write cursor ⟨search.database, it, true⟩ world, ?_,
            ⟨search.database, it, true⟩, opened,
            storage.searches_write cursor _ world, rfl, ?_, rest⟩
          · unfold next
            simp only [found, there, current, stands]
          · rw [storage.databases_write]
            exact there

theorem next_finished {world : W}
    (visiting : storage.Visiting cursor db content world []) :
    ∃ later, storage.next cursor world = (later, .value none) := by
  obtain ⟨search, opened, found, rfl, there, visits⟩ := visiting
  cases current : search.current content with
  | none =>
      rw [current] at visits
      cases visits
  | some it =>
      rw [current] at visits
      cases visits with
      | done stops =>
          have stands : it.ret = .notFound := Decidable.not_not.mp stops
          refine ⟨storage.write cursor ⟨search.database, it, true⟩ world, ?_⟩
          unfold next
          simp only [found, there, current, stands]

/-- An open database is searched for the records that begin with the key. -/
theorem find_visiting (dcl : Dcl) {key : Str} {world : W}
    (plain : Char.ofNat 0 ∉ key)
    (there : storage.databases world db = some ⟨content, true⟩) :
    ∃ later cursor, storage.find dcl db key world = (later, .value cursor) ∧
      storage.Visiting cursor db content later
        (matching key content.records) := by
  have visits := visits_find content plain
  cases found : Iterator.find content key with
  | none =>
      rw [found] at visits
      cases visits
  | some it =>
      rw [found] at visits
      refine ⟨(storage.create ⟨db, it, false⟩ world).1,
        (storage.create ⟨db, it, false⟩ world).2, ?_, ⟨db, it, false⟩, true,
        storage.searches_create _ world, rfl, ?_, visits⟩
      · unfold find
        simp only [there, found, if_true]
      · rw [storage.databases_create]
        exact there

end Storage

/-- The loop of the tag executes its body for the records in their order, as
long as the body leaves the search and the database alone. -/
theorem TagFind.loop_eq {storage : Storage W} (interp : Interp W) (self : Loc)
    (caller : Option Loc) {cursor db : Nat} {content : Content}
    (provided : interp.outside.bdb.next cursor = storage.next cursor)
    (kept : ∀ (record : Str × Str) (state : St W) records,
      storage.Visiting cursor db content state.world records →
        storage.Visiting cursor db content (executeRow interp self caller
          [("key".toList, record.1), ("value".toList, record.2)]
          state).state.world records)
    {records : List (Str × Str)} (enough : records.length < interp.budget)
    {state : St W}
    (visiting : storage.Visiting cursor db content state.world records) :
    Prog.whileSome (M.io (interp.outside.bdb.next cursor))
        (fun record => executeRow interp self caller
          [("key".toList, record.1), ("value".toList, record.2)])
        interp.budget state =
      (Prog.forEach
        (fun record => M.io (storage.next cursor) >>= fun _ =>
          executeRow interp self caller
            [("key".toList, record.1), ("value".toList, record.2)])
        records >>= fun _ => M.io (storage.next cursor) >>= fun _ => pure ())
        state := by
  rw [provided]
  apply Prog.whileSome_eq
    (fun state records => storage.Visiting cursor db content
      (St.world state) records) _ _ kept enough visiting
  · intro state record records visiting
    obtain ⟨later, moved, rest⟩ := Storage.next_visiting visiting
    refine ⟨{ state with world := later }, ?_, rest⟩
    simp only [M.io, Prog.act, moved]
  · intro state visiting
    obtain ⟨later, moved⟩ := Storage.next_finished visiting
    refine ⟨{ state with world := later }, ?_⟩
    simp only [M.io, Prog.act, moved]

/-- On an open database, the tag executes its body for the records whose keys
begin with the text. -/
theorem TagFind.search_eq {storage : Storage W} (interp : Interp W)
    (self : Loc) (caller : Option Loc) {db : Nat} {content : Content}
    {key : Str} (plain : Char.ofNat 0 ∉ key)
    (finds : interp.outside.bdb.find db key = storage.find interp.dcl db key)
    (nexts : ∀ cursor, interp.outside.bdb.next cursor = storage.next cursor)
    (kept : ∀ cursor (record : Str × Str) (state : St W) records,
      storage.Visiting cursor db content state.world records →
        storage.Visiting cursor db content (executeRow interp self caller
          [("key".toList, record.1), ("value".toList, record.2)]
          state).state.world records)
    (enough : content.records.length < interp.budget) {state : St W}
    (there : storage.databases state.world db = some ⟨content, true⟩) :
    ∃ later cursor,
      M.io (interp.outside.bdb.find db key) state =
        ⟨later, [], .value cursor⟩ ∧
      Prog.whileSome (M.io (interp.outside.bdb.next cursor))
          (fun record => executeRow interp self caller
            [("key".toList, record.1), ("value".toList, record.2)])
          interp.budget later =
        (Prog.forEach
          (fun record => M.io (storage.next cursor) >>= fun _ =>
            executeRow interp self caller
              [("key".toList, record.1), ("value".toList, record.2)])
          (matching key content.records) >>= fun _ =>
            M.io (storage.next cursor) >>= fun _ => pure ()) later := by
  obtain ⟨later, cursor, found, visiting⟩ :=
    Storage.find_visiting interp.dcl plain there
  refine ⟨{ state with world := later }, cursor, ?_, ?_⟩
  · rw [finds]
    simp only [M.io, Prog.act, found]
  · apply TagFind.loop_eq interp self caller (nexts cursor) (kept cursor) _
      visiting
    exact Nat.lt_of_le_of_lt (List.length_filter_le _ _) enough

/-- From `find` to `end`, the loop visits exactly the records whose keys begin
with the text, each once and in ascending order. -/
theorem prefix_search_exact (content : Content) (key : Str)
    (plain : Char.ofNat 0 ∉ key) :
    ∃ visited,
      (∀ records, Visits content (Iterator.find content key) records ↔
        records = visited) ∧
      (∀ record, record ∈ visited ↔
        record ∈ content.records ∧ key <+: record.1) ∧
      Prefixes.Ascending visited := by
  have visits := visits_find content plain
  refine ⟨matching key content.records, ?_, fun _ => mem_matching, ?_⟩
  · intro records
    constructor
    · intro others
      exact others.unique visits
    · rintro rfl
      exact visits
  · exact content.ascending.sublist List.filter_sublist

theorem sample_ascending : Prefixes.Ascending
    [("a".toList, "1".toList), ("ab".toList, "2".toList),
      ("b".toList, "3".toList)] := by
  unfold Prefixes.Ascending
  decide

/-- A file with three records. -/
def sample : Content where
  records := [("a".toList, "1".toList), ("ab".toList, "2".toList),
    ("b".toList, "3".toList)]
  ascending := sample_ascending

theorem prefix_search_exact_sample :
    Char.ofNat 0 ∉ "a".toList ∧
      ∃ visited,
        (∀ records, Visits sample (Iterator.find sample "a".toList) records ↔
          records = visited) ∧
        (∀ record, record ∈ visited ↔
          record ∈ sample.records ∧ "a".toList <+: record.1) ∧
        Prefixes.Ascending visited := by
  have plain : Char.ofNat 0 ∉ "a".toList := by decide
  exact ⟨plain, prefix_search_exact sample "a".toList plain⟩

end DbPager.Bdb
