import DbPager.Interpreter
import DbPager.Plain

/-!
# Assignment

`set_value` and `get_value` search the layers of a chain of contexts in the
same order, so an assignment changes the binding a lookup reads and nothing
else.  `dbp:set` assigns a list of names one after the other.
-/

namespace DbPager

open Effect

/-- The binding of a key in one layer of a context. -/
def slot (layers : List Vars) (layer : Nat) (key : Str) : Option Str :=
  (layers[layer]?).bind fun vars => vars.lookup key

/-- The binding of a key in a layer of a chain. -/
def binding (contexts : List Context) (context layer : Nat) (key : Str) :
    Option Str :=
  (contexts[context]?).bind fun found => slot found.stack layer key

/-- A place is searched before another one: inner layers of a context first,
then its parents. -/
def SearchedBefore (first second : Nat × Nat) : Prop :=
  first.1 < second.1 ∨ first.1 = second.1 ∧ first.2 < second.2

/-- The place where the search for a key ends. -/
def Innermost (contexts : List Context) (key : Str) (place : Nat × Nat) :
    Prop :=
  (binding contexts place.1 place.2 key).isSome ∧
    ∀ earlier, SearchedBefore earlier place →
      binding contexts earlier.1 earlier.2 key = none

/-- The same chain, but for the variables of its layers. -/
def SameShape : List Context → List Context → Prop :=
  List.Forall₂ fun first second =>
    first.type = second.type ∧ first.exec = second.exec ∧
      first.services = second.services ∧
      first.stack.length = second.stack.length

theorem SameShape.refl (contexts : List Context) :
    SameShape contexts contexts :=
  List.forall₂_same.mpr fun _ _ => ⟨rfl, rfl, rfl, rfl⟩

theorem SameShape.trans {first second third : List Context}
    (one : SameShape first second) (two : SameShape second third) :
    SameShape first third := by
  induction one generalizing third with
  | nil => exact two
  | cons here _ induction =>
      cases two with
      | cons there rest =>
          refine .cons ⟨here.1.trans there.1, here.2.1.trans there.2.1, ?_, ?_⟩
            (induction rest)
          · exact here.2.2.1.trans there.2.2.1
          · exact here.2.2.2.trans there.2.2.2

/-- One binding has the new value, and all others are as they were. -/
def Assigns (before after : List Context) (place : Nat × Nat)
    (key value : Str) : Prop :=
  SameShape before after ∧
    ∀ context layer other, binding after context layer other =
      if (context, layer) = place ∧ other = key then some value
      else binding before context layer other

section Layers

theorem dlookup_kreplace (key other value : Str)
    (entries : List (Sigma fun _ : Str => Str)) :
    (entries.kreplace key value).dlookup other =
      if other = key ∧ (entries.dlookup key).isSome then some value
      else entries.dlookup other := by
  induction entries with
  | nil => simp [List.kreplace]
  | cons entry entries induction =>
      obtain ⟨name, old⟩ := entry
      by_cases here : key = name
      · subst here
        have replaced : List.kreplace key value (⟨key, old⟩ :: entries) =
            ⟨key, value⟩ :: entries := by
          simp [List.kreplace]
        rw [replaced]
        by_cases same : other = key
        · subst same
          simp
        · rw [List.dlookup_cons_ne entries ⟨key, value⟩ same,
            List.dlookup_cons_ne entries ⟨key, old⟩ same]
          simp [same]
      · have kept : List.kreplace key value (⟨name, old⟩ :: entries) =
            ⟨name, old⟩ :: List.kreplace key value entries := by
          simp [List.kreplace, here]
        rw [kept, List.dlookup_cons_ne entries ⟨name, old⟩ here]
        by_cases first : other = name
        · subst first
          simp [Ne.symm here]
        · rw [List.dlookup_cons_ne (entries.kreplace key value) ⟨name, old⟩
              first, List.dlookup_cons_ne entries ⟨name, old⟩ first, induction]

theorem lookup_replace (vars : Vars) (key other value : Str) :
    (vars.replace key value).lookup other =
      if other = key ∧ (vars.lookup key).isSome then some value
      else vars.lookup other :=
  dlookup_kreplace key other value vars.entries

/-- Assigning a variable leaves the others alone. -/
theorem findVar_assignVar {key other value : Str} {layers changed : List Vars}
    (assigned : assignVar key value layers = some changed)
    (different : other ≠ key) :
    findVar other changed = findVar other layers := by
  induction layers generalizing changed with
  | nil => cases assigned
  | cons layer layers induction =>
      unfold assignVar at assigned
      split at assigned
      · cases assigned
        have same : (layer.replace key value).lookup other =
            layer.lookup other := by
          rw [lookup_replace, if_neg fun both => different both.1]
        simp only [findVar, same]
      · obtain ⟨rest, below, rfl⟩ := Option.map_eq_some_iff.mp assigned
        simp only [findVar, induction below]

theorem assignVar_bound {key value old : Str} {layers : List Vars}
    (bound : findVar key layers = some old) :
    ∃ changed, assignVar key value layers = some changed ∧
      findVar key changed = some value := by
  induction layers with
  | nil => cases bound
  | cons layer layers induction =>
      unfold findVar at bound
      unfold assignVar
      cases found : layer.lookup key with
      | some held =>
          refine ⟨_, rfl, ?_⟩
          have read : (layer.replace key value).lookup key = some value := by
            simp [lookup_replace, found]
          simp only [findVar, read]
      | none =>
          rw [found] at bound
          obtain ⟨changed, assigned, read⟩ := induction bound
          refine ⟨layer :: changed, by simp [assigned], ?_⟩
          simp only [findVar, found, read]

theorem assignVar_unbound {key value : Str} {layers : List Vars}
    (unbound : findVar key layers = none) :
    assignVar key value layers = none := by
  induction layers with
  | nil => rfl
  | cons layer layers induction =>
      unfold findVar at unbound
      unfold assignVar
      cases found : layer.lookup key with
      | some held =>
          rw [found] at unbound
          cases unbound
      | none =>
          rw [found] at unbound
          simp [induction unbound]

/-- What an assignment does to the layers of one context. -/
theorem assignVar_cases (key value : Str) (layers : List Vars) :
    (assignVar key value layers = none ∧ findVar key layers = none ∧
      ∀ layer, slot layers layer key = none) ∨
    ∃ changed place, assignVar key value layers = some changed ∧
      layers.length = changed.length ∧
      findVar key layers = slot layers place key ∧
      (slot layers place key).isSome ∧
      (∀ layer, layer < place → slot layers layer key = none) ∧
      ∀ layer other, slot changed layer other =
        if layer = place ∧ other = key then some value
        else slot layers layer other := by
  induction layers with
  | nil =>
      left
      exact ⟨rfl, rfl, fun layer => rfl⟩
  | cons first layers induction =>
      cases found : first.lookup key with
      | some old =>
          right
          refine ⟨first.replace key value :: layers, 0, ?_, rfl, ?_, ?_, ?_, ?_⟩
          · simp only [assignVar, found]
          · simp only [findVar, found]
            exact found.symm
          · change (first.lookup key).isSome
            rw [found]
            rfl
          · intro layer earlier
            exact absurd earlier (Nat.not_lt_zero layer)
          · intro layer other
            cases layer with
            | zero =>
                change (first.replace key value).lookup other = _
                rw [lookup_replace, found]
                simp [slot]
            | succ layer => simp [slot]
      | none =>
          rcases induction with ⟨missing, unfound, absent⟩ |
            ⟨changed, place, assigned, length, reads, present, earlier,
              frame⟩
          · left
            refine ⟨?_, ?_, ?_⟩
            · simp [assignVar, found, missing]
            · simp only [findVar, found, unfound]
            · intro layer
              cases layer with
              | zero => exact found
              | succ layer => exact absent layer
          · right
            refine ⟨first :: changed, place + 1, ?_, ?_, ?_, present, ?_, ?_⟩
            · simp [assignVar, found, assigned]
            · simp [length]
            · simp only [findVar, found]
              exact reads
            · intro layer before
              cases layer with
              | zero => exact found
              | succ layer => exact earlier layer (by omega)
            · intro layer other
              cases layer with
              | zero => simp [slot]
              | succ layer =>
                  have same := frame layer other
                  simpa [slot] using same

end Layers

theorem assignVar_length {key value : Str} {layers changed : List Vars}
    (assigned : assignVar key value layers = some changed) :
    layers.length = changed.length := by
  rcases assignVar_cases key value layers with ⟨missing, -⟩ |
    ⟨other, place, same, length, -⟩
  · rw [assigned] at missing
    cases missing
  · rw [assigned] at same
    cases same
    exact length

namespace Chain

theorem binding_zero (context : Context) (parents : List Context)
    (layer : Nat) (key : Str) :
    binding (context :: parents) 0 layer key =
      slot context.stack layer key := rfl

theorem binding_succ (context : Context) (parents : List Context)
    (number layer : Nat) (key : Str) :
    binding (context :: parents) (number + 1) layer key =
      binding parents number layer key := rfl

/-- What an assignment does to a chain of contexts. -/
theorem setValue_cases (name value : Str) (contexts : List Context) :
    (setValue name value contexts = none ∧ lookup name contexts = none ∧
      ∀ context layer, binding contexts context layer (upName name) = none) ∨
    ∃ changed place, setValue name value contexts = some changed ∧
      lookup name contexts =
        binding contexts place.1 place.2 (upName name) ∧
      Innermost contexts (upName name) place ∧
      Assigns contexts changed place (upName name) value := by
  induction contexts with
  | nil =>
      left
      exact ⟨rfl, rfl, fun _ _ => rfl⟩
  | cons context parents induction =>
      rcases assignVar_cases (upName name) value context.stack with
        ⟨missing, unfound, absent⟩ |
          ⟨stack, place, assigned, length, reads, present, earlier, frame⟩
      · rcases induction with ⟨undefined, unread, nowhere⟩ |
          ⟨changed, place, assigned, reads, ⟨present, earlier⟩,
            shape, frame⟩
        · left
          refine ⟨?_, ?_, ?_⟩
          · simp [setValue, missing, undefined]
          · simp only [lookup, unfound, unread]
          · intro number layer
            cases number with
            | zero => exact absent layer
            | succ number => exact nowhere number layer
        · right
          refine ⟨context :: changed, (place.1 + 1, place.2), ?_, ?_,
            ⟨present, ?_⟩, .cons ⟨rfl, rfl, rfl, rfl⟩ shape, ?_⟩
          · simp [setValue, missing, assigned]
          · simp only [lookup, unfound]
            exact reads
          · rintro ⟨number, layer⟩ before
            cases number with
            | zero => exact absent layer
            | succ number =>
                apply earlier (number, layer)
                rcases before with lower | ⟨same, lower⟩
                · exact .inl (Nat.lt_of_succ_lt_succ lower)
                · exact .inr ⟨Nat.succ.inj same, lower⟩
          · intro number layer other
            cases number with
            | zero => simp [binding_zero]
            | succ number =>
                have same := frame number layer other
                simp only [binding_succ, same, Prod.ext_iff,
                  Nat.add_right_cancel_iff]
      · right
        refine ⟨{ context with stack } :: parents, (0, place), ?_, ?_,
          ⟨present, ?_⟩, .cons ⟨rfl, rfl, rfl, length⟩
            (SameShape.refl parents), ?_⟩
        · simp only [setValue, assigned]
        · obtain ⟨old, holds⟩ := Option.isSome_iff_exists.mp present
          simp only [lookup, reads, holds, binding_zero]
        · rintro ⟨number, layer⟩ before
          rcases before with lower | ⟨rfl, lower⟩
          · exact absurd lower (Nat.not_lt_zero number)
          · exact earlier layer lower
        · intro number layer other
          cases number with
          | zero =>
              have same := frame layer other
              simp only [binding_zero, same, Prod.ext_iff, true_and]
          | succ number => simp [binding_succ]

end Chain

namespace Innermost

variable {contexts : List Context} {key : Str}

/-- A search ends at one place only. -/
theorem unique {first second : Nat × Nat}
    (one : Innermost contexts key first)
    (other : Innermost contexts key second) : first = second := by
  have later (left right : Nat × Nat) (reads : Innermost contexts key left)
      (more : Innermost contexts key right) : ¬ SearchedBefore left right := by
    intro before
    have present := reads.1
    rw [more.2 left before] at present
    cases present
  have forward := later first second one other
  have backward := later second first other one
  unfold SearchedBefore at forward backward
  apply Prod.ext
  · omega
  · omega

/-- An assignment to the place where a search ends is found there. -/
theorem assigned {changed : List Context} {place : Nat × Nat} {value : Str}
    (reads : Innermost contexts key place)
    (assigns : Assigns contexts changed place key value) :
    Innermost changed key place ∧
      binding changed place.1 place.2 key = some value := by
  have here : binding changed place.1 place.2 key = some value := by
    rw [assigns.2]
    simp
  refine ⟨⟨?_, ?_⟩, here⟩
  · rw [here]
    rfl
  · intro earlier before
    rw [assigns.2, if_neg, reads.2 earlier before]
    rintro ⟨rfl, _⟩
    unfold SearchedBefore at before
    omega

end Innermost

/-- `get_value` reads the binding where the search for the name ends. -/
theorem Chain.lookup_innermost {name : Str} {contexts : List Context}
    {place : Nat × Nat} (reads : Innermost contexts (upName name) place) :
    Chain.lookup name contexts =
      binding contexts place.1 place.2 (upName name) := by
  rcases Chain.setValue_cases name [] contexts with
    ⟨_, _, nowhere⟩ | ⟨_, found, _, same, innermost, _⟩
  · have present := reads.1
    rw [nowhere] at present
    cases present
  · rw [same, innermost.unique reads]

/-- An assignment raises an exception and changes nothing if no layer binds
the name; otherwise it changes the one binding that `get_value` reads. -/
theorem setValue_changes_one_binding {W : Type} (dcl : Dcl)
    (name value : Str) (state : St W) :
    ((∀ context layer,
        binding state.contexts context layer (upName name) = none) ∧
      M.setValue dcl name value state = ⟨state, [], .error
        (dcl.exception "variable \x7b0\x7d is not defined" [name])⟩) ∨
    ∃ place changed, Innermost state.contexts (upName name) place ∧
      binding state.contexts place.1 place.2 (upName name) =
        some (Chain.getValue name state.contexts) ∧
      M.setValue dcl name value state =
        ⟨{ state with contexts := changed }, [], .value ()⟩ ∧
      Assigns state.contexts changed place (upName name) value ∧
      Chain.getValue name changed = value := by
  rcases Chain.setValue_cases name value state.contexts with
    ⟨undefined, _, nowhere⟩ | ⟨changed, place, assigned, read, reads, assigns⟩
  · left
    refine ⟨nowhere, ?_⟩
    unfold M.setValue Prog.act
    simp only [undefined]
  · right
    refine ⟨place, changed, reads, ?_, ?_, assigns, ?_⟩
    · obtain ⟨old, holds⟩ := Option.isSome_iff_exists.mp reads.1
      unfold Chain.getValue
      rw [read, holds]
      rfl
    · unfold M.setValue Prog.act
      simp only [assigned]
    · obtain ⟨still, holds⟩ := reads.assigned assigns
      unfold Chain.getValue
      rw [Chain.lookup_innermost still, holds]
      rfl

/-! ## `dbp:set` -/

/-- The name has a value in the chain. -/
def Bound (contexts : List Context) (name : Str) : Prop :=
  (Chain.lookup name contexts).isSome

/-- The named variables have the value, all others are as they were. -/
def SetTo (value : Str) (names : List Str)
    (before after : List Context) : Prop :=
  ∀ other, Chain.lookup other after =
    if ∃ name ∈ names, upName other = upName name then some value
    else Chain.lookup other before

/-- A lookup only depends on the bindings of its name. -/
theorem Chain.lookup_eq_of_bindings {name : Str}
    {first second : List Context}
    (same : ∀ context layer, binding first context layer (upName name) =
      binding second context layer (upName name)) :
    Chain.lookup name first = Chain.lookup name second := by
  rcases Chain.setValue_cases name [] first with
    ⟨_, unread, nowhere⟩ | ⟨_, place, _, read, reads, _⟩
  · rcases Chain.setValue_cases name [] second with
      ⟨_, unreadToo, _⟩ | ⟨_, place, _, _, reads, _⟩
    · rw [unread, unreadToo]
    · have present := reads.1
      rw [← same, nowhere] at present
      cases present
  · have readsToo : Innermost second (upName name) place := by
      refine ⟨?_, ?_⟩
      · rw [← same]
        exact reads.1
      · intro earlier before
        rw [← same]
        exact reads.2 earlier before
    rw [read, Chain.lookup_innermost readsToo, same]

/-- An assignment changes the binding where the search for the name ends. -/
theorem Chain.assigns_of_setValue {name value : Str}
    {contexts changed : List Context}
    (assigned : Chain.setValue name value contexts = some changed) :
    ∃ place, Innermost contexts (upName name) place ∧
      Assigns contexts changed place (upName name) value := by
  rcases Chain.setValue_cases name value contexts with
    ⟨undefined, _, _⟩ | ⟨result, place, same, _, reads, assigns⟩
  · rw [undefined] at assigned
    cases assigned
  · rw [same] at assigned
    cases assigned
    exact ⟨place, reads, assigns⟩

/-- An assignment as lookups see it. -/
theorem Chain.lookup_setValue {name value : Str}
    {contexts changed : List Context}
    (assigned : Chain.setValue name value contexts = some changed) :
    SetTo value [name] contexts changed := by
  intro other
  obtain ⟨place, reads, assigns⟩ := Chain.assigns_of_setValue assigned
  by_cases named : upName other = upName name
  · obtain ⟨still, holds⟩ := reads.assigned assigns
    rw [← named] at still holds
    rw [Chain.lookup_innermost still, holds]
    simp [named]
  · rw [if_neg (by simpa using named)]
    apply Chain.lookup_eq_of_bindings
    intro context layer
    rw [assigns.2]
    exact if_neg fun both => named both.2

theorem SetTo.cons {value name : Str} {names : List Str}
    {before middle after : List Context}
    (first : SetTo value [name] before middle)
    (rest : SetTo value names middle after) :
    SetTo value (name :: names) before after := by
  intro other
  rw [rest other, first other]
  by_cases later : ∃ name ∈ names, upName other = upName name
  · simp [later]
  · simp only [later, if_false, List.mem_cons, List.not_mem_nil, or_false,
      exists_eq_left, exists_eq_or_imp]

theorem SetTo.bound {value : Str} {names : List Str}
    {before after : List Context} (set : SetTo value names before after)
    {name : Str} (bound : Bound before name) : Bound after name := by
  unfold Bound
  rw [set name]
  split
  · rfl
  · exact bound

/-- The bindings that are found for the names have the value.  All others are
as they were, also those of the same names that are hidden. -/
structure AssignsAll (value : Str) (names : List Str)
    (before after : List Context) : Prop where
  visible : SetTo value names before after
  shape : SameShape before after
  found : ∀ name ∈ names, ∀ place, Innermost before (upName name) place →
    binding after place.1 place.2 (upName name) = some value
  kept : ∀ context layer key,
    ((∃ name ∈ names, upName name = key) →
      ¬ Innermost before key (context, layer)) →
    binding after context layer key = binding before context layer key

theorem AssignsAll.none (value : Str) (contexts : List Context) :
    AssignsAll value [] contexts contexts where
  visible _ := rfl
  shape := .refl contexts
  found := by simp
  kept _ _ _ _ := rfl

/-- Where a search ends depends on what is bound, not on the values. -/
theorem Assigns.innermost {before after : List Context} {place : Nat × Nat}
    {key value : Str} (assigns : Assigns before after place key value)
    (reads : Innermost before key place) (other : Str) (found : Nat × Nat) :
    Innermost after other found ↔ Innermost before other found := by
  have bound (context layer : Nat) :
      (binding after context layer other).isSome =
        (binding before context layer other).isSome := by
    rw [assigns.2]
    split
    · next both =>
        obtain ⟨same, rfl⟩ := both
        have present := reads.1
        rw [← same] at present
        exact present.symm
    · rfl
  unfold Innermost
  simp only [← Option.isNone_iff_eq_none, ← Option.not_isSome, bound]

theorem AssignsAll.cons {value name : Str} {names : List Str}
    {before middle after : List Context} {place : Nat × Nat}
    (reads : Innermost before (upName name) place)
    (first : Assigns before middle place (upName name) value)
    (visible : SetTo value [name] before middle)
    (rest : AssignsAll value names middle after) :
    AssignsAll value (name :: names) before after where
  visible := visible.cons rest.visible
  shape := first.1.trans rest.shape
  found := by
    intro other member found here
    have there := (first.innermost reads (upName other) found).mpr here
    by_cases later : ∃ name ∈ names, upName name = upName other
    · obtain ⟨again, listed, same⟩ := later
      rw [← same] at there ⊢
      exact rest.found again listed found there
    · rcases List.mem_cons.mp member with rfl | listed
      · rw [rest.kept _ _ _ fun named => absurd named later, first.2,
          if_pos ⟨here.unique reads, rfl⟩]
      · exact absurd ⟨other, listed, rfl⟩ later
  kept := by
    intro context layer key apart
    have own : ¬ ((context, layer) = place ∧ key = upName name) := by
      rintro ⟨rfl, rfl⟩
      exact apart ⟨name, List.mem_cons_self, rfl⟩ reads
    rw [rest.kept, first.2, if_neg own]
    rintro ⟨other, listed, rfl⟩ there
    exact apart ⟨other, List.mem_cons_of_mem _ listed, rfl⟩
      ((first.innermost reads (upName other) _).mp there)

theorem Chain.setValue_of_bound {contexts : List Context} {name : Str}
    (bound : Bound contexts name) (value : Str) :
    ∃ changed, Chain.setValue name value contexts = some changed := by
  rcases Chain.setValue_cases name value contexts with
    ⟨_, unread, _⟩ | ⟨changed, _, assigned, _⟩
  · unfold Bound at bound
    rw [unread] at bound
    cases bound
  · exact ⟨changed, assigned⟩

theorem Chain.setValue_of_not_bound {contexts : List Context} {name : Str}
    (unbound : ¬ Bound contexts name) (value : Str) :
    Chain.setValue name value contexts = none := by
  rcases Chain.setValue_cases name value contexts with
    ⟨undefined, _, _⟩ | ⟨_, place, _, read, reads, _⟩
  · exact undefined
  · exfalso
    apply unbound
    unfold Bound
    rw [read]
    exact reads.1

section Set

variable {W : Type}

def undefinedVariable (dcl : Dcl) (name : Str) : Exc :=
  dcl.exception "variable \x7b0\x7d is not defined" [name]

/-- The loop of `tag_set`: all names are assigned, or those before the first
one that has no binding. -/
theorem setValues_cases (dcl : Dcl) (value : Str) (names : List Str)
    (state : St W) :
    ((∀ name, name ∈ names → Bound state.contexts name) ∧
      ∃ changed, AssignsAll value names state.contexts changed ∧
        Prog.forEach (fun name => M.setValue dcl name value) names state =
          ⟨{ state with contexts := changed }, [], .value ()⟩) ∨
    ∃ before name after changed, names = before ++ name :: after ∧
      (∀ earlier, earlier ∈ before → Bound state.contexts earlier) ∧
      ¬ Bound state.contexts name ∧
      AssignsAll value before state.contexts changed ∧
      Prog.forEach (fun name => M.setValue dcl name value) names state =
        ⟨{ state with contexts := changed }, [],
          .error (undefinedVariable dcl name)⟩ := by
  induction names generalizing state with
  | nil =>
      left
      refine ⟨fun name member => (List.not_mem_nil member).elim,
        state.contexts, .none value state.contexts, rfl⟩
  | cons name names induction =>
      by_cases bound : Bound state.contexts name
      · obtain ⟨middle, assigned⟩ := Chain.setValue_of_bound bound value
        have first := Chain.lookup_setValue assigned
        obtain ⟨place, reads, assigns⟩ := Chain.assigns_of_setValue assigned
        have ran : M.setValue dcl name value state =
            ⟨{ state with contexts := middle }, [], .value ()⟩ := by
          unfold M.setValue Prog.act
          simp only [assigned]
        have same (other : Str) : Bound middle other ↔
            Bound state.contexts other := by
          constructor
          · intro still
            unfold Bound at still
            rw [first other] at still
            by_cases named : upName other = upName name
            · unfold Bound at bound ⊢
              rw [Chain.lookup_congr named]
              exact bound
            · rw [if_neg (by simpa using named)] at still
              exact still
          · exact first.bound
        unfold Prog.forEach
        rw [Prog.bind_silent ran]
        rcases induction { state with contexts := middle } with
          ⟨others, changed, set, rest⟩ |
            ⟨before, missing, after, changed, split, earlier, unbound, set,
              rest⟩
        · left
          refine ⟨?_, changed, .cons reads assigns first set, rest⟩
          intro other member
          rcases List.mem_cons.mp member with rfl | member
          · exact bound
          · exact (same other).mp (others other member)
        · right
          refine ⟨name :: before, missing, after, changed, ?_, ?_, ?_,
            .cons reads assigns first set, rest⟩
          · rw [split]
            rfl
          · intro other member
            rcases List.mem_cons.mp member with rfl | member
            · exact bound
            · exact (same other).mp (earlier other member)
          · exact fun still => unbound ((same missing).mpr still)
      · right
        refine ⟨[], name, names, state.contexts, rfl, ?_, bound,
          .none value state.contexts, ?_⟩
        · intro other member
          cases member
        · have ran : M.setValue dcl name value state =
              ⟨state, [], .error (undefinedVariable dcl name)⟩ := by
            unfold M.setValue Prog.act
            simp only [Chain.setValue_of_not_bound bound value]
            rfl
          unfold Prog.forEach
          exact Prog.bind_error ran _

/-- The value and the names of a `dbp:set`. -/
def TagSet.assignment (interp : Interp W) (self : Loc)
    (caller : Option Loc) : M W (Str × List Str) := do
  let value ← (interp.executeChilds self caller).capture
  let names ← interp.getParameter self "name"
  pure (value, interp.dcl.tokens names)

theorem TagSet.execute_eq (interp : Interp W) (self : Loc)
    (caller : Option Loc) :
    TagSet.execute interp self caller =
      TagSet.assignment interp self caller >>= fun assignment =>
        Prog.forEach (fun name =>
          M.setValue interp.dcl name assignment.1) assignment.2 := by
  unfold TagSet.execute TagSet.assignment
  rw [Prog.bind_assoc]
  congr 1
  funext value
  rw [Prog.bind_assoc]
  rfl

/-- `dbp:set` assigns its names in order: all of them, or, if one has no
binding, those before the first such one, and then raises an exception.  No
other variable changes, and no hidden binding of the same name. -/
theorem set_assigns_in_order (interp : Interp W) (self : Loc)
    (caller : Option Loc) (state : St W) :
    match TagSet.assignment interp self caller state with
    | ⟨middle, out, .value (value, names)⟩ =>
        ((∀ name, name ∈ names → Bound middle.contexts name) ∧
          ∃ changed, AssignsAll value names middle.contexts changed ∧
            TagSet.execute interp self caller state =
              ⟨{ middle with contexts := changed }, out, .value ()⟩) ∨
        ∃ before name after changed, names = before ++ name :: after ∧
          (∀ earlier, earlier ∈ before → Bound middle.contexts earlier) ∧
          ¬ Bound middle.contexts name ∧
          AssignsAll value before middle.contexts changed ∧
          TagSet.execute interp self caller state =
            ⟨{ middle with contexts := changed }, out,
              .error (undefinedVariable interp.dcl name)⟩
    | ⟨middle, out, .error exception⟩ =>
        TagSet.execute interp self caller state =
          ⟨middle, out, .error exception⟩
    | ⟨middle, out, .halt reason⟩ =>
        TagSet.execute interp self caller state =
          ⟨middle, out, .halt reason⟩ := by
  rw [TagSet.execute_eq]
  cases ran : TagSet.assignment interp self caller state with
  | mk middle out outcome =>
      cases outcome with
      | error exception => exact Prog.bind_error ran _
      | halt reason => exact Prog.bind_halt ran _
      | value assignment =>
          obtain ⟨value, names⟩ := assignment
          simp only
          rw [Prog.bind_eq ran]
          rcases setValues_cases interp.dcl value names middle with
            ⟨bound, changed, set, rest⟩ |
              ⟨before, name, after, changed, split, earlier, unbound, set,
                rest⟩
          · left
            refine ⟨bound, changed, set, ?_⟩
            rw [rest, List.append_nil]
          · right
            refine ⟨before, name, after, changed, split, earlier, unbound,
              set, ?_⟩
            rw [rest, List.append_nil]

end Set

/-- `<dbp:set name="a,b">x</dbp:set>`. -/
def setBoth : Loc :=
  ⟨.mk 1 .set [("name".toList, "a,b".toList)] [] "x".toList, []⟩

/-- A context in which only the first of the names is defined. -/
def onlyFirst : List Context :=
  [Context.newLocal.addValue "a".toList "1".toList]

/-- The first variable has changed when the exception is raised. -/
theorem first_changed_before_exception :
    (execute Outside.plain 4 setBoth none (St.fresh onlyFirst)).outcome =
        .error (undefinedVariable .plain "b".toList) ∧
      Chain.getValue "a".toList onlyFirst = "1".toList ∧
      Chain.getValue "a".toList
        (execute Outside.plain 4 setBoth none
          (St.fresh onlyFirst)).state.contexts = "x".toList := by
  refine ⟨rfl, ?_, ?_⟩
  · decide
  · decide

end DbPager
