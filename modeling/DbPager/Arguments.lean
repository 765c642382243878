import DbPager.Plain
import DbPager.Template
import Mathlib.Data.List.Induction

/-!
# The arguments of a call

A call binds its parameters one after the other in the layer of the callee,
and each of them is evaluated in the layer that already holds the ones before
it.  The parameters come out of a hash table in an order nobody chooses.
Here it is worked out for which calls this makes no difference to an
evaluation of all parameters in the environment of the caller.
-/

namespace DbPager

open Effect

variable {W : Type}

/-- A parameter of a call: its name, its text, and the value the text has in
the environment of the caller. -/
structure Argument where
  name : Str
  text : Str
  value : Str

namespace Arguments

def param (argument : Argument) : Str × Str :=
  (argument.name, argument.text)

/-- The layer in which the arguments have been bound, in this order, to the
values they have in the environment of the caller. -/
def layer (arguments : List Argument) : Vars :=
  arguments.foldl (fun layer argument =>
    layer.insert (upName argument.name) argument.value) ∅

theorem layer_append (first : List Argument) (argument : Argument) :
    layer (first ++ [argument]) =
      (layer first).insert (upName argument.name) argument.value := by
  simp [layer]

/-- A variable of the layer is bound by one of the arguments. -/
theorem mem_of_lookup {arguments : List Argument} {name value : Str}
    (found : (layer arguments).lookup name = some value) :
    ∃ argument ∈ arguments, upName argument.name = name ∧
      argument.value = value := by
  induction arguments using List.reverseRecOn with
  | nil => simp [layer] at found
  | append_singleton first argument induction =>
      rw [layer_append] at found
      by_cases same : name = upName argument.name
      · rw [same, AList.lookup_insert] at found
        cases found
        exact ⟨argument, by simp, same.symm, rfl⟩
      · rw [AList.lookup_insert_ne same] at found
        obtain ⟨other, member, named, bound⟩ := induction found
        exact ⟨other, by simp [member], named, bound⟩

theorem lookup_isSome {arguments : List Argument} {argument : Argument}
    (member : argument ∈ arguments) :
    ((layer arguments).lookup (upName argument.name)).isSome = true := by
  induction arguments using List.reverseRecOn with
  | nil => cases member
  | append_singleton first last induction =>
      rw [layer_append]
      by_cases same : upName argument.name = upName last.name
      · rw [same, AList.lookup_insert]
        rfl
      · rw [AList.lookup_insert_ne same]
        rcases List.mem_append.mp member with earlier | here
        · exact induction earlier
        · rw [List.mem_singleton.mp here] at same
          exact absurd rfl same

section Calls

variable (interp : Interp W) (call : Loc) (contexts : List Context)

/-- Whenever the variables are the given ones, the expression has the value
and leaves the variables alone. -/
def Yields (contexts : List Context) (text value : Str) : Prop :=
  ∀ state : St W, state.contexts = contexts →
    (interp.executeParam call text state).outcome = .value value ∧
      (interp.executeParam call text state).state.contexts = contexts

/-- In whatever order the parameters are taken, after any number of them the
layer of the callee holds the values that these have in the environment of
the caller, and in the end it holds the values of all. -/
structure Simultaneous (arguments : List Argument) : Prop where
  turns : ∀ first rest, (first ++ rest).Perm arguments → ∀ state : St W,
    state.contexts = Chain.withLayer ∅ contexts →
    (bindArguments interp call (first.map param) state).outcome =
        .value () ∧
      (bindArguments interp call (first.map param) state).state.contexts =
        Chain.withLayer (layer first) contexts
  all : ∀ order : List Argument, order.Perm arguments →
    ∀ argument ∈ arguments,
      (layer order).lookup (upName argument.name) = some argument.value

/-- No argument changes its value when others are bound before it, and
arguments whose names differ only in case have the same value. -/
structure Independent (arguments : List Argument) : Prop where
  steady : ∀ first argument rest,
    (first ++ argument :: rest).Perm arguments →
    Yields interp call (Chain.withLayer (layer first) contexts)
      argument.text argument.value
  agree : ∀ argument ∈ arguments, ∀ other ∈ arguments,
    upName argument.name = upName other.name →
    argument.value = other.value

end Calls

section Runs

variable {interp : Interp W} {self : Loc} {contexts : List Context}

/-- One turn of the loop, for an argument whose value is known. -/
theorem bindArguments_step (chain : contexts ≠ []) {before : Vars}
    (name : Str) {text value : Str}
    (yields : Yields interp self (Chain.withLayer before contexts) text value)
    {state : St W} (same : state.contexts = Chain.withLayer before contexts) :
    ∃ final out,
      bindArguments interp self [(name, text)] state =
        ⟨final, out, .value ()⟩ ∧
      final.contexts =
        Chain.withLayer (before.insert (upName name) value) contexts := by
  obtain ⟨outcome, kept⟩ := yields state same
  cases ran : interp.executeParam self text state with
  | mk middle out result =>
      rw [ran] at outcome kept
      cases outcome
      have added := M.addValue_withLayer interp.dcl name value before chain kept
      have turn : (interp.executeParam self text >>=
          M.addValue interp.dcl name) state = _ := Prog.bind_eq ran _
      rw [added] at turn
      refine ⟨_, _, Prog.bind_eq turn _, ?_⟩
      rfl

/-- One more turn after those that have been taken. -/
theorem bindArguments_snoc (chain : contexts ≠ []) {first : List Argument}
    {argument : Argument} {before : Vars} {value : Str}
    (yields : Yields interp self (Chain.withLayer before contexts)
      argument.text value)
    {state : St W}
    (finished : (bindArguments interp self (first.map param) state).outcome =
      .value ())
    (bound : (bindArguments interp self (first.map param) state
      ).state.contexts = Chain.withLayer before contexts) :
    (bindArguments interp self ((first ++ [argument]).map param) state
        ).outcome = .value () ∧
      (bindArguments interp self ((first ++ [argument]).map param) state
        ).state.contexts =
        Chain.withLayer (before.insert (upName argument.name) value)
          contexts := by
  cases ran : bindArguments interp self (first.map param) state with
  | mk middle out outcome =>
      rw [ran] at finished bound
      cases finished
      obtain ⟨final, written, turn, bound⟩ :=
        bindArguments_step chain argument.name yields bound
      have whole := Prog.forEach_append_eq [param argument] ran
      rw [show Prog.forEach _ [param argument] middle = _ from turn] at whole
      rw [List.map_append]
      exact ⟨congrArg Run.outcome whole,
        (congrArg (fun run => run.state.contexts) whole).trans bound⟩

theorem Independent.turns {arguments : List Argument} (chain : contexts ≠ [])
    (independent : Independent interp self contexts arguments) :
    ∀ first rest, (first ++ rest).Perm arguments → ∀ state : St W,
      state.contexts = Chain.withLayer ∅ contexts →
      (bindArguments interp self (first.map param) state).outcome =
          .value () ∧
        (bindArguments interp self (first.map param) state).state.contexts =
          Chain.withLayer (layer first) contexts := by
  intro first
  induction first using List.reverseRecOn with
  | nil => exact fun rest permuted state same => ⟨rfl, same⟩
  | append_singleton first argument induction =>
      intro rest permuted state same
      rw [List.append_assoc, List.singleton_append] at permuted
      obtain ⟨finished, bound⟩ := induction _ permuted state same
      rw [layer_append]
      exact bindArguments_snoc chain
        (independent.steady first argument rest permuted) finished bound

theorem Independent.all {arguments : List Argument}
    (independent : Independent interp self contexts arguments)
    (order : List Argument) (permuted : order.Perm arguments)
    (argument : Argument) (member : argument ∈ arguments) :
    (layer order).lookup (upName argument.name) = some argument.value := by
  have bound := lookup_isSome (permuted.mem_iff.mpr member)
  obtain ⟨value, found⟩ := Option.isSome_iff_exists.mp bound
  obtain ⟨other, listed, named, held⟩ := mem_of_lookup found
  have agreed := independent.agree argument member other
    (permuted.mem_iff.mp listed) named.symm
  rw [found, agreed, held]

/-- Arguments that are bound as in the environment of the caller have to
yield their values at every turn. -/
theorem Simultaneous.independent {arguments : List Argument}
    (chain : contexts ≠ [])
    (calm : ∀ argument ∈ arguments, ∀ before, ∃ value,
      Yields interp self (Chain.withLayer before contexts) argument.text value)
    (state : St W)
    (simultaneous : Simultaneous interp self contexts arguments) :
    Independent interp self contexts arguments := by
  refine ⟨fun first argument rest permuted => ?_, ?_⟩
  · have member : argument ∈ arguments := permuted.mem_iff.mp (by simp)
    obtain ⟨value, yields⟩ := calm argument member (layer first)
    have start := simultaneous.turns first (argument :: rest) permuted
      { state with contexts := Chain.withLayer ∅ contexts } rfl
    have next := simultaneous.turns (first ++ [argument]) rest
      (by simpa using permuted)
      { state with contexts := Chain.withLayer ∅ contexts } rfl
    have bound := (bindArguments_snoc chain yields start.1 start.2).2
    rw [next.2, layer_append] at bound
    have held := congrArg (AList.lookup (upName argument.name))
      (Chain.withLayer_injective chain bound)
    rw [AList.lookup_insert, AList.lookup_insert] at held
    rw [Option.some.inj held]
    exact yields
  · intro argument member other listed same
    have first := simultaneous.all arguments (.refl _) argument member
    have second := simultaneous.all arguments (.refl _) other listed
    rw [same, second] at first
    exact (Option.some.inj first).symm

end Runs

section Templates

variable {outside : Outside W} {budget : Nat}
  {run : Loc → Option Loc → M W Unit} {self : Loc} {contexts : List Context}

/-- A parameter whose text is a template. -/
def ofTemplate (contexts : List Context) (entry : Str × Template) : Argument :=
  { name := entry.1
    text := Template.text entry.2
    value := Template.value contexts entry.2 }

theorem nodup_ofTemplate {entries : List (Str × Template)}
    (names : (entries.map Prod.fst).Nodup) :
    (entries.map (ofTemplate contexts)).Nodup := by
  refine List.Nodup.of_map Argument.name ?_
  rw [List.map_map]
  exact names

theorem yields_template (contexts : List Context) (template : Template) :
    Yields (Interp.ofRun outside budget run) self contexts
      (Template.text template) (Template.value contexts template) := by
  rintro state rfl
  have ran := Evaluator.evaluate_template outside
    (Evaluator.executeFunction outside run
      (Interp.paramTag (Template.text template) :: self.tag :: self.up))
    template state
  change (Evaluator.evaluate _ _ _ state).outcome = _ ∧
    (Evaluator.evaluate _ _ _ state).state.contexts = _
  rw [ran]
  exact ⟨rfl, rfl⟩

theorem Yields.unique {interp : Interp W} {text first second : Str}
    (state : St W) (yields : Yields interp self contexts text first)
    (other : Yields interp self contexts text second) : first = second := by
  have one := (yields { state with contexts } rfl).1
  have two := (other { state with contexts } rfl).1
  rw [one] at two
  exact Outcome.value.inj two

/-- A template that reads a variable shows whether the variable has been
bound to another value. -/
theorem value_of_unchanged (chain : contexts ≠ []) {name value : Str}
    {template : Template} (reads : upName name ∈ Template.reads template)
    (same : Template.value
        (Chain.withLayer (AList.insert (upName name) value ∅) contexts)
        template = Template.value contexts template) :
    value = Chain.getValue name contexts := by
  have other (piece : Piece) :
      piece.value (Chain.withLayer (AList.insert (upName name) value ∅)
        contexts) = piece.value contexts ∨
      (piece.value (Chain.withLayer (AList.insert (upName name) value ∅)
        contexts) = value ∧
        piece.value contexts = Chain.getValue name contexts) := by
    cases piece with
    | literal text plain => exact .inl rfl
    | var read plain =>
        simp only [Piece.value, Chain.getValue_withLayer read _ chain]
        by_cases here : upName read = upName name
        · exact .inr ⟨by rw [here, AList.lookup_insert]; rfl,
            Chain.getValue_congr here contexts⟩
        · exact .inl (by rw [AList.lookup_insert_ne here]; rfl)
  obtain ⟨piece, member, read⟩ := List.mem_flatMap.mp reads
  obtain ⟨found, plain, rfl, named⟩ : ∃ found plain,
      piece = .var found plain ∧ upName name = upName found := by
    cases piece with
    | literal text plain => cases read
    | var found plain => exact ⟨found, plain, rfl, List.mem_singleton.mp read⟩
  have here : Chain.getValue found
      (Chain.withLayer (AList.insert (upName name) value ∅) contexts) =
        value := by
    rw [Chain.getValue_withLayer found _ chain, ← named, AList.lookup_insert]
    rfl
  have before : Chain.getValue found contexts =
      Chain.getValue name contexts :=
    Chain.getValue_congr named.symm contexts
  rw [← here, ← before]
  rcases Nat.le_total value.length (Chain.getValue name contexts).length
    with shorter | shorter
  · refine flatMap_eq_of_length_le (fun piece => ?_) same _ member
    rcases other piece with same | ⟨new, old⟩
    · rw [same]
    · rw [new, old]
      exact shorter
  · refine (flatMap_eq_of_length_le (fun piece => ?_) same.symm _ member).symm
    rcases other piece with same | ⟨new, old⟩
    · rw [same]
    · rw [new, old]
      exact shorter

/-- No parameter reads a variable that another one binds to a new value, and
parameters whose names differ only in case have the same value. -/
def Apart (contexts : List Context) (entries : List (Str × Template)) : Prop :=
  ∀ first ∈ entries, ∀ second ∈ entries, first ≠ second →
    (upName first.1 ∈ Template.reads second.2 →
      Template.value contexts first.2 = Chain.getValue first.1 contexts) ∧
    (upName first.1 = upName second.1 →
      Template.value contexts first.2 = Template.value contexts second.2)

variable {entries : List (Str × Template)}

theorem Apart.independent (chain : contexts ≠ [])
    (names : (entries.map Prod.fst).Nodup) (apart : Apart contexts entries) :
    Independent (Interp.ofRun outside budget run) self contexts
      (entries.map (ofTemplate contexts)) := by
  constructor
  · intro first argument rest permuted
    have listed : argument ∈ entries.map (ofTemplate contexts) :=
      permuted.mem_iff.mp (by simp)
    obtain ⟨entry, member, rfl⟩ := List.mem_map.mp listed
    have unchanged : Template.value
        (Chain.withLayer (layer first) contexts) entry.2 =
        Template.value contexts entry.2 := by
      refine Template.value_congr fun name read => ?_
      rw [Chain.getValue_withLayer name _ chain]
      cases found : (layer first).lookup (upName name) with
      | none => rfl
      | some value =>
          obtain ⟨other, earlier, named, rfl⟩ := mem_of_lookup found
          have inside : other ∈ entries.map (ofTemplate contexts) :=
            permuted.mem_iff.mp (by simp [earlier])
          obtain ⟨origin, placed, rfl⟩ := List.mem_map.mp inside
          have distinct : origin ≠ entry := by
            rintro rfl
            have unique : (first ++ ofTemplate contexts origin :: rest).Nodup :=
              permuted.nodup_iff.mpr (nodup_ofTemplate names)
            exact (List.nodup_append.mp unique).2.2 _ earlier _ (by simp) rfl
          have kept := (apart origin placed entry member distinct).1
            (named ▸ read)
          exact kept.trans (Chain.getValue_congr named contexts)
    have yields : Yields (Interp.ofRun outside budget run) self
        (Chain.withLayer (layer first) contexts) (Template.text entry.2) _ :=
      yields_template _ _
    rw [unchanged] at yields
    exact yields
  · intro argument listed other inside same
    obtain ⟨first, member, rfl⟩ := List.mem_map.mp listed
    obtain ⟨second, placed, rfl⟩ := List.mem_map.mp inside
    by_cases equal : first = second
    · rw [equal]
    · exact (apart first member second placed equal).2 same

theorem Independent.apart (chain : contexts ≠ []) (state : St W)
    (independent : Independent (Interp.ofRun outside budget run) self contexts
      (entries.map (ofTemplate contexts))) : Apart contexts entries := by
  classical
  intro first member second placed distinct
  constructor
  · intro reads
    have permuted : ([ofTemplate contexts first] ++ ofTemplate contexts second ::
        ((entries.erase first).erase second).map (ofTemplate contexts)).Perm
        (entries.map (ofTemplate contexts)) := by
      have inner := List.perm_cons_erase
        ((List.mem_erase_of_ne distinct.symm).mpr placed)
      have outer := List.perm_cons_erase member
      exact ((outer.trans (inner.cons first)).map (ofTemplate contexts)).symm
    have steady := independent.steady _ _ _ permuted
    exact value_of_unchanged chain reads
      ((yields_template _ _).unique state steady)
  · exact independent.agree _ (List.mem_map_of_mem member) _
      (List.mem_map_of_mem placed)

end Templates

end Arguments

/-- When evaluating the parameters has no effect on the variables, binding
them one by one is the same as evaluating all of them in the environment of
the caller, for every order, exactly if no parameter changes its value when
others are bound before it.  For templates this means that no parameter reads
a variable that another one binds to a new value. -/
theorem arguments_simultaneous (self : Loc) (state : St W)
    (chain : state.contexts ≠ []) :
    (∀ (interp : Interp W) (arguments : List Argument),
      (∀ argument ∈ arguments, ∀ before, ∃ value,
        Arguments.Yields interp self
          (Chain.withLayer before state.contexts) argument.text value) →
      (Arguments.Simultaneous interp self state.contexts arguments ↔
        Arguments.Independent interp self state.contexts arguments)) ∧
    ∀ (outside : Outside W) (budget : Nat) (run : Loc → Option Loc → M W Unit)
      (entries : List (Str × Template)), (entries.map Prod.fst).Nodup →
      (Arguments.Simultaneous (Interp.ofRun outside budget run) self
          state.contexts (entries.map (Arguments.ofTemplate state.contexts)) ↔
        Arguments.Apart state.contexts entries) := by
  have general : ∀ (interp : Interp W) (arguments : List Argument),
      (∀ argument ∈ arguments, ∀ before, ∃ value,
        Arguments.Yields interp self
          (Chain.withLayer before state.contexts) argument.text value) →
      (Arguments.Simultaneous interp self state.contexts arguments ↔
        Arguments.Independent interp self state.contexts arguments) :=
    fun interp arguments calm =>
      ⟨fun simultaneous => simultaneous.independent chain calm state,
        fun independent => ⟨independent.turns chain, independent.all⟩⟩
  refine ⟨general, fun outside budget run entries names => ?_⟩
  refine (general _ _ fun argument listed before => ?_).trans
    ⟨fun independent => independent.apart chain state,
      fun apart => apart.independent chain names⟩
  obtain ⟨entry, member, rfl⟩ := List.mem_map.mp listed
  exact ⟨_, Arguments.yields_template _ _⟩

/-- A call with the parameters `a={$x}{$b}` and `b={$b}`. -/
def separateArguments : List (Str × Template) :=
  [("a".toList, [.var "x".toList (by decide), .var "b".toList (by decide)]),
    ("b".toList, [.var "b".toList (by decide)])]

/-- The call itself. -/
def separateCall : Loc :=
  ⟨.mk 1 .call (("name".toList, "t".toList) :: separateArguments.map
    fun entry => (entry.1, Template.text entry.2)) [] [], []⟩

/-- The variables before the call: `x` is 1 and `b` is 2. -/
def separateContext : Context :=
  { Context.newLocal with
    stack := [AList.insert "X".toList "1".toList
      (AList.insert "B".toList "2".toList ∅)] }

/-- The second parameter binds a variable the first one reads, but to the value
it has. -/
theorem arguments_simultaneous_separate :
    Arguments.Simultaneous
      (Interp.ofRun Outside.plain 0 (execute Outside.plain 0)) separateCall
      [separateContext]
      (separateArguments.map (Arguments.ofTemplate [separateContext])) := by
  refine ((arguments_simultaneous separateCall (St.fresh [separateContext])
    (List.cons_ne_nil _ _)).2 Outside.plain 0 _ separateArguments
    (by decide)).mpr ?_
  intro first member second placed distinct
  simp only [separateArguments, List.mem_cons, List.not_mem_nil, or_false]
    at member placed
  rcases member with rfl | rfl <;> rcases placed with rfl | rfl
  · exact absurd rfl distinct
  · exact ⟨fun reads => absurd reads (by decide),
      fun same => absurd same (by decide)⟩
  · exact ⟨fun _ => rfl, fun same => absurd same (by decide)⟩
  · exact absurd rfl distinct

/-- A script that calls a definition with the given parameters; the
definition writes `{$a}{$b}`. -/
def swapScript (params : List (Str × Str)) : Tag :=
  .mk 1 .module []
    [.mk 2 (.tag (some "t".toList)) []
      [.mk 3 .expression [] [] "\x7b$a\x7d\x7b$b\x7d".toList] [],
      .mk 4 .call (("name".toList, "t".toList) :: params) [] []] []

/-- The variables before the call: `a` is 1 and `b` is 2. -/
def swapContext : Context :=
  { Context.newLocal with
    stack := [AList.insert "A".toList "1".toList
      (AList.insert "B".toList "2".toList ∅)] }

/-- The parameters `a={$b}` and `b={$a}` do not swap the two
values, and what the callee sees depends on the order. -/
theorem swap_depends_on_order :
    (execute Outside.plain 5
      ⟨swapScript [("a".toList, "\x7b$b\x7d".toList),
        ("b".toList, "\x7b$a\x7d".toList)], []⟩ none
      (St.fresh [swapContext])).out = "22".toList ∧
    (execute Outside.plain 5
      ⟨swapScript [("b".toList, "\x7b$a\x7d".toList),
        ("a".toList, "\x7b$b\x7d".toList)], []⟩ none
      (St.fresh [swapContext])).out = "11".toList := by
  decide +kernel

end DbPager
