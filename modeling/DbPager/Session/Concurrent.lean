import DbPager.Session.Format
import Mathlib.Logic.Function.Basic

/-!
# Concurrent requests of one session

A request loads the whole session from the server when it starts and writes
the whole session back when it ends; nothing keeps other requests out in
between.  Two requests of one session that each set a variable of their own
leave what the one that saves last has seen.
-/

namespace DbPager

namespace Session

/-- A sequence made of two others, each in its own order. -/
inductive Interleaves {α : Type} : List α → List α → List α → Prop
  | nil : Interleaves [] [] []
  | left {step : α} {first second merged : List α} :
      Interleaves first second merged →
        Interleaves (step :: first) second (step :: merged)
  | right {step : α} {first second merged : List α} :
      Interleaves first second merged →
        Interleaves first (step :: second) (step :: merged)

/-- The two requests. -/
inductive Worker where
  | first
  | second
  deriving DecidableEq

def Worker.other : Worker → Worker
  | .first => .second
  | .second => .first

inductive Step where
  | load (worker : Worker)
  | save (worker : Worker)
  deriving DecidableEq

/-- The texts on the server and the user contexts of the two requests. -/
structure Shared where
  store : Vars
  users : Worker → Context

/-- One step of a request.  What its script does in between touches only the
context of the request: it sets one user variable. -/
def Shared.step (dcl : Dcl) (server : Server) (id : Str)
    (writes : Worker → Str × Str) (shared : Shared) : Step → Shared
  | .load worker =>
      { shared with
        users := Function.update shared.users worker
          (server.load dcl shared.store id Context.newUser) }
  | .save worker =>
      { shared with
        store := server.save shared.store id
          ((shared.users worker).addValue (writes worker).1
            (writes worker).2) }

def Shared.run (dcl : Dcl) (server : Server) (id : Str)
    (writes : Worker → Str × Str) (schedule : List Step) (shared : Shared) :
    Shared :=
  schedule.foldl (Shared.step dcl server id writes) shared

/-- Both requests about to start. -/
def Shared.start (store : Vars) : Shared :=
  { store, users := fun _ => Context.newUser }

/-- The value of a variable in the session a server keeps. -/
def Server.stored (dcl : Dcl) (server : Server) (store : Vars)
    (id key : Str) : Option Str :=
  findVar key (server.load dcl store id Context.newUser).stack

/-! ## One request -/

/-- A binding that survives the text format. -/
def Writable (binding : Str × Str) : Prop :=
  binding.1 ≠ [] ∧ '=' ∉ binding.1 ∧
    (';' ∉ binding.1 ∧ ';' ∉ binding.2) ∧
    Char.ofNat 0 ∉ binding.1 ∧ Char.ofNat 0 ∉ binding.2

instance (binding : Str × Str) : Decidable (Writable binding) :=
  inferInstanceAs (Decidable (_ ∧ _ ∧ _))

/-- A user context keeps its one layer. -/
theorem addValues_ofUser (bindings : List (Str × Str)) (vars : Vars) :
    ∃ after, (Context.ofUser vars).addValues bindings =
      Context.ofUser after := by
  induction bindings generalizing vars with
  | nil => exact ⟨vars, rfl⟩
  | cons binding bindings induction =>
      exact induction (vars.insert (upName binding.1) binding.2)

theorem findVar_ofUser (vars : Vars) (key : Str) :
    findVar key (Context.ofUser vars).stack = vars.lookup key := by
  simp only [Context.ofUser, findVar]
  cases vars.lookup key <;> rfl

/-- A character below the letters is in the kept name only if it is in the
name. -/
theorem not_mem_upName {c : Char} {name : Str} (below : c.val.toNat < 65)
    (absent : c ∉ name) : c ∉ upName name := by
  intro inside
  obtain ⟨d, member, shift⟩ := List.mem_map.mp inside
  exact absent (eq_of_toUpper_eq shift below ▸ member)

section Request

variable {dcl : Dcl} (cuts : Cuts dcl) (server : Server)

include cuts

/-- Writable bindings survive a save and the next load. -/
theorem stored_addValues (store : Vars) (id key : Str)
    {bindings : List (Str × Str)} (some : bindings ≠ [])
    (writable : ∀ binding ∈ bindings, Writable binding) :
    server.stored dcl
        (server.save store id (Context.newUser.addValues bindings)) id key =
      lastBinding key bindings := by
  obtain ⟨vars, whole⟩ : ∃ vars, Context.newUser.addValues bindings =
      Context.ofUser vars := addValues_ofUser bindings ∅
  have bound : ∀ name, vars.lookup name = lastBinding name bindings := by
    intro name
    rw [← findVar_ofUser, ← whole, findVar_newUser]
  have origin : ∀ name value, vars.lookup name = .some value →
      ∃ original, Writable (original, value) ∧ upName original = name := by
    intro name value found
    rw [bound] at found
    obtain ⟨original, member, upper⟩ := mem_of_lastBinding found
    exact ⟨original, writable _ member, upper⟩
  have named : Named vars := by
    intro name member
    obtain ⟨value, found⟩ := Option.isSome_iff_exists.mp
      (AList.lookup_isSome.mpr member)
    obtain ⟨original, plain, upper⟩ := origin name value found
    subst upper
    refine ⟨?_, upName_idem original, ?_, ?_⟩
    · intro empty
      exact plain.1 (List.map_eq_nil_iff.mp empty)
    · exact not_mem_upName (by decide) plain.2.1
    · exact not_mem_upName (by decide) plain.2.2.1.1
  have noSeparator : NoSeparator vars := by
    intro name value found
    obtain ⟨original, plain, _⟩ := origin name value found
    exact plain.2.2.1.2
  have noNul : NoNul vars := by
    intro name value found
    obtain ⟨original, plain, upper⟩ := origin name value found
    rw [← upper]
    exact ⟨not_mem_upName (by decide) plain.2.2.2.1, plain.2.2.2.2⟩
  have filled : vars.entries ≠ [] := by
    intro empty
    obtain ⟨binding, member⟩ := List.exists_mem_of_ne_nil bindings some
    have absent : lastBinding (upName binding.1) bindings = none := by
      rw [← bound]
      simp [AList.lookup, empty]
    exact lastBinding_eq_none.mp absent binding member rfl
  have returned := Server.returns_of_plain cuts server store id filled named
    noSeparator noNul
  rw [Server.stored, whole, returned key, bound]

/-- Whatever text the server keeps, what is loaded from it is writable. -/
theorem writable_loaded (store : Vars) (id : Str) :
    ∀ binding ∈ readText dcl (server.getValue store id),
      Writable binding := by
  intro binding member
  obtain ⟨some, equal, ⟨nameCut, nameInside⟩, valueCut, valueInside⟩ :=
    mem_readText cuts member
  refine ⟨some, equal, ⟨nameCut, valueCut⟩, ?_, ?_⟩
  · intro inside
    exact not_mem_cString _ (nameInside inside)
  · intro inside
    exact not_mem_cString _ (valueInside inside)

/-- A request replaces the session by the one it loaded and its own
variable. -/
theorem stored_save {loaded : Vars} (store : Vars) (id key : Str)
    {name value : Str} (writable : Writable (name, value)) :
    server.stored dcl (server.save store id
        ((server.load dcl loaded id Context.newUser).addValue name value))
        id key =
      if upName name = key then some value
      else server.stored dcl loaded id key := by
  have whole :
      (server.load dcl loaded id Context.newUser).addValue name value =
        Context.newUser.addValues
          (readText dcl (server.getValue loaded id) ++ [(name, value)]) := by
    rw [Context.addValues_append]
    rfl
  rw [whole, stored_addValues cuts server store id key (by simp)]
  · rw [lastBinding_append, Server.stored, Server.load, findVar_newUser]
    by_cases same : upName name = key <;> simp [lastBinding, same]
  · intro binding member
    rw [List.mem_append, List.mem_singleton] at member
    rcases member with old | own
    · exact writable_loaded cuts server loaded id binding old
    · rw [own]
      exact writable

end Request

/-! ## Two requests -/

/-- The steps of two requests, in any order. -/
def Schedule (schedule : List Step) : Prop :=
  Interleaves [.load .first, .save .first] [.load .second, .save .second]
    schedule

theorem Interleaves.nil_left {α : Type} {second merged : List α}
    (merge : Interleaves [] second merged) : merged = second := by
  generalize none : ([] : List α) = first at merge
  induction merge with
  | nil => rfl
  | left merge induction => cases none
  | right merge induction => rw [induction none]

theorem Interleaves.nil_right {α : Type} {first merged : List α}
    (merge : Interleaves first [] merged) : merged = first := by
  generalize none : ([] : List α) = second at merge
  induction merge with
  | nil => rfl
  | left merge induction => rw [induction none]
  | right merge induction => cases none

/-- One request saves last; the other has loaded and saved before, and the
load of the first is before, between or after these. -/
theorem Schedule.cases {schedule : List Step} (merge : Schedule schedule) :
    ∃ last : Worker,
      schedule = [.load last.other, .save last.other, .load last,
        .save last] ∨
      schedule = [.load last.other, .load last, .save last.other,
        .save last] ∨
      schedule = [.load last, .load last.other, .save last.other,
        .save last] := by
  rcases merge with _ | merge | merge
  · rcases merge with _ | merge | merge
    · rw [merge.nil_left]
      exact ⟨.second, .inl rfl⟩
    · rcases merge with _ | merge | merge
      · rw [merge.nil_left]
        exact ⟨.second, .inr (.inl rfl)⟩
      · rw [merge.nil_right]
        exact ⟨.first, .inr (.inr rfl)⟩
  · rcases merge with _ | merge | merge
    · rcases merge with _ | merge | merge
      · rw [merge.nil_left]
        exact ⟨.second, .inr (.inr rfl)⟩
      · rw [merge.nil_right]
        exact ⟨.first, .inr (.inl rfl)⟩
    · rw [merge.nil_right]
      exact ⟨.first, .inl rfl⟩

theorem Worker.other_ne (worker : Worker) : worker.other ≠ worker := by
  cases worker <;> decide

section TwoRequests

variable {dcl : Dcl} (cuts : Cuts dcl) (server : Server) (store : Vars)
  (id key : Str) {writes : Worker → Str × Str}
  (writable : ∀ worker, Writable (writes worker)) (last : Worker)

include cuts writable

/-- The request that saves last has seen the session of the other one. -/
theorem stored_serial :
    server.stored dcl ((Shared.start store).run dcl server id writes
        [.load last.other, .save last.other, .load last, .save last]).store
        id key =
      if upName (writes last).1 = key then some (writes last).2
      else if upName (writes last.other).1 = key then
        some (writes last.other).2
      else server.stored dcl store id key := by
  simp only [Shared.run, Shared.start, List.foldl, Shared.step,
    Function.update_self]
  rw [stored_save cuts server _ id key (writable last),
    stored_save cuts server _ id key (writable last.other)]

/-- The request that saves last has not seen the session of the other one. -/
theorem stored_overlap {schedule : List Step}
    (overlap :
      schedule = [.load last.other, .load last, .save last.other,
        .save last] ∨
      schedule = [.load last, .load last.other, .save last.other,
        .save last]) :
    server.stored dcl
        ((Shared.start store).run dcl server id writes schedule).store
        id key =
      if upName (writes last).1 = key then some (writes last).2
      else server.stored dcl store id key := by
  have other := last.other_ne
  rcases overlap with rfl | rfl
  · simp only [Shared.run, Shared.start, List.foldl, Shared.step,
      Function.update_self]
    rw [stored_save cuts server _ id key (writable last)]
  · simp only [Shared.run, Shared.start, List.foldl, Shared.step,
      Function.update_self, Function.update_of_ne other.symm]
    rw [stored_save cuts server _ id key (writable last)]

end TwoRequests

/-- The session left by two requests of which each sets a variable of its
own: the variable of the request that saves last, that of the other one if it
was saved before the last one loaded the session, and else what was there. -/
theorem last_save_wins {dcl : Dcl} (cuts : Cuts dcl) (server : Server)
    (store : Vars) (id : Str) {writes : Worker → Str × Str}
    (writable : ∀ worker, Writable (writes worker))
    {schedule : List Step} (merge : Schedule schedule) :
    ∃ last : Worker, schedule.getLast? = some (.save last) ∧ ∀ key,
      server.stored dcl
          ((Shared.start store).run dcl server id writes schedule).store
          id key =
        if upName (writes last).1 = key then some (writes last).2
        else if [Step.save last.other, Step.load last].Sublist schedule ∧
            upName (writes last.other).1 = key then
          some (writes last.other).2
        else server.stored dcl store id key := by
  obtain ⟨last, serial | overlap⟩ := merge.cases
  · refine ⟨last, by rw [serial]; rfl, ?_⟩
    intro key
    have seen : [Step.save last.other, Step.load last].Sublist schedule := by
      rw [serial]
      cases last <;> decide
    simp only [seen, true_and]
    rw [serial]
    exact stored_serial cuts server store id key writable last
  · refine ⟨last, by rcases overlap with rfl | rfl <;> rfl, ?_⟩
    intro key
    have unseen :
        ¬ [Step.save last.other, Step.load last].Sublist schedule := by
      rcases overlap with rfl | rfl <;> cases last <;> decide
    simp only [unseen, false_and, if_false]
    exact stored_overlap cuts server store id key writable last overlap

/-- The first request sets `a` to 1, the second one `b` to 2. -/
def setsAandB : Worker → Str × Str
  | .first => ("a".toList, "1".toList)
  | .second => ("b".toList, "2".toList)

theorem last_save_wins_serial :
    Server.stored .plain .redis
        ((Shared.start ∅).run .plain .redis "id".toList setsAandB
          [.load .first, .save .first, .load .second, .save .second]).store
        "id".toList "A".toList = some "1".toList := by
  have merge : Schedule
      [.load .first, .save .first, .load .second, .save .second] :=
    .left (.left (.right (.right .nil)))
  have writable : ∀ worker, Writable (setsAandB worker) := by
    intro worker
    cases worker <;> decide
  obtain ⟨last, saved, whole⟩ :=
    last_save_wins Cuts.plain .redis ∅ "id".toList writable merge
  have second : last = .second := by
    cases saved
    rfl
  subst second
  rw [whole "A".toList]
  decide

/-- Both requests load the session before either of them saves it: the first
one's value is lost. -/
theorem overlapping_save_is_lost :
    Schedule [.load .first, .load .second, .save .first, .save .second] ∧
    ∀ server : Server,
      server.stored .plain
        ((Shared.start ∅).run .plain server "id".toList setsAandB
          [.load .first, .load .second, .save .first, .save .second]).store
        "id".toList "A".toList = none := by
  constructor
  · exact .left (.right (.left (.right .nil)))
  · intro server
    cases server <;> decide

end Session

end DbPager
