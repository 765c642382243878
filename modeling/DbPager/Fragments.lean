import DbPager.Assignment
import DbPager.Layers
import DbPager.Library.Occurrences
import DbPager.Library.Output

/-!
# The fragments of a split text

`dbp:split` cuts a text at a separator.  With several variables the
fragments are dealt out to them and the body is executed once; with one
variable the body is executed once for every fragment.
-/

namespace DbPager

open Effect Occurrences

variable {W : Type}

/-! ## The search for a pattern -/

theorem indexOf_cases (pattern source : Str) :
    (indexOf pattern source = none ∧ ¬ pattern <:+: source) ∨
    ∃ position, indexOf pattern source = some position ∧
      FirstAt pattern source position := by
  induction source with
  | nil =>
      unfold indexOf
      cases pattern with
      | nil =>
          right
          refine ⟨0, rfl, ⟨Nat.le_refl 0, List.nil_prefix, ?_⟩⟩
          intro earlier before
          exact absurd before (Nat.not_lt_zero earlier)
      | cons c pattern =>
          left
          exact ⟨rfl, by simp⟩
  | cons c rest induction =>
      unfold indexOf
      by_cases here : pattern.isPrefixOf (c :: rest) = true
      · right
        rw [if_pos here]
        refine ⟨0, rfl, ⟨Nat.zero_le _, List.isPrefixOf_iff_prefix.mp here, ?_⟩⟩
        intro earlier before
        exact absurd before (Nat.not_lt_zero earlier)
      · rw [if_neg here]
        have missing : ¬ pattern <+: c :: rest := by
          intro start
          exact here (List.isPrefixOf_iff_prefix.mpr start)
        rcases induction with ⟨none, absent⟩ | ⟨position, found, first⟩
        · left
          rw [none]
          refine ⟨rfl, ?_⟩
          rw [List.infix_cons_iff]
          rintro (start | inside)
          · exact missing start
          · exact absent inside
        · right
          rw [found]
          refine ⟨position + 1, rfl, ⟨?_, first.occurs, ?_⟩⟩
          · exact Nat.succ_le_succ first.within
          · intro earlier before
            cases earlier with
            | zero => exact missing
            | succ earlier =>
                exact first.first earlier (Nat.lt_of_succ_lt_succ before)

/-- What the search for a pattern behind a position finds. -/
theorem findFrom_cases (pattern : Str) {source : Str} {start : Nat}
    (within : start ≤ source.length) :
    (findFrom source pattern start = none ∧
      ¬ pattern <:+: source.drop start) ∨
    ∃ position, findFrom source pattern start = some (start + position) ∧
      FirstAt pattern (source.drop start) position := by
  unfold findFrom
  rw [if_pos within]
  rcases indexOf_cases pattern (source.drop start) with
    ⟨none, absent⟩ | ⟨position, found, first⟩
  · left
    rw [none]
    exact ⟨rfl, absent⟩
  · right
    rw [found]
    exact ⟨position, rfl, first⟩

/-- The splitting loop ends, and the fragments are the trimmed pieces of the
text. -/
theorem splitFrom_eq (dcl : Dcl) {sep source : Str} (filled : sep ≠ [])
    {budget oldPos : Nat} (within : oldPos ≤ source.length)
    (enough : source.length - oldPos < budget) :
    ∃ pieces, Pieces sep (source.drop oldPos) pieces ∧
      splitFrom dcl sep source budget oldPos =
        some (pieces.map dcl.trim) := by
  induction budget generalizing oldPos with
  | zero => exact absurd enough (Nat.not_lt_zero _)
  | succ budget induction =>
      unfold splitFrom
      rcases findFrom_cases sep within with
        ⟨none, absent⟩ | ⟨position, found, first⟩
      · rw [none]
        exact ⟨[source.drop oldPos], .last absent, rfl⟩
      · have behind := first.behind
        have longer := List.length_pos_iff.mpr filled
        rw [List.length_drop] at behind
        obtain ⟨pieces, cut, split⟩ := @induction
          (oldPos + position + sep.length) (by omega) (by omega)
        rw [found]
        simp only [split, Nat.add_sub_cancel_left]
        refine ⟨(source.drop oldPos).take position :: pieces, ?_, rfl⟩
        apply Pieces.next first
        rw [List.drop_drop, ← Nat.add_assoc]
        exact cut

namespace TagSplit

/-! ## Parameters -/

/-- The separator a parameter stands for. -/
def separatorOf (parameter : Str) : Str :=
  if parameter.isEmpty then ",".toList else parameter

theorem separatorOf_filled (parameter : Str) :
    separatorOf parameter ≠ [] := by
  unfold separatorOf
  cases parameter with
  | nil => simp
  | cons c parameter => simp

/-- The parameters as the tag reads them in its own layer, on top of the
given chain of contexts. -/
structure Asked (interp : Interp W) (split : Loc) (state asked : St W)
    (contexts : List Context) (sep value names : Str) : Prop where
  read : ∃ parameter first second,
    interp.getParameter split "separator" (state.withLayer ∅) =
      ⟨first, [], .value parameter⟩ ∧
    interp.getParameter split "value" first = ⟨second, [], .value value⟩ ∧
    interp.getParameter split "name" second = ⟨asked, [], .value names⟩ ∧
    sep = separatorOf parameter
  chain : contexts ≠ []
  layer : asked.contexts = Chain.withLayer ∅ contexts

/-- What the tag does once the names are known. -/
def drive (interp : Interp W) (self : Loc) (caller : Option Loc) (sep : Str)
    (fragments : List Str) : List Str → M W Unit
  | [] =>
      Prog.throw (interp.dcl.exception "parameter 'name' is undefined" [])
  | [name] => do
      M.addValue interp.dcl name []
      let order ← interp.getParameter self "order"
      if order.isEmpty || order == "asc".toList then
        cycle interp self caller name fragments
      else if order == "desc".toList then
        cycle interp self caller name fragments.reverse
      else
        Prog.throw (interp.dcl.exception
          "invalid 'order' parameter value. expected (asc,desc). found: \x7b0\x7d"
          [order])
  | names => do
      let (last, rest) ← bindNames interp [] names fragments
      Prog.when (!rest.isEmpty) do
        let value ← M.getValue last
        M.setValue interp.dcl last
          (rest.foldl (fun value fragment => value ++ sep ++ fragment) value)
      interp.executeChilds self caller

/-- Do something in the layer of the tag and leave the layer. -/
def finish (program : M W Unit) : M W Unit := do
  program.onError M.leave
  M.leave

theorem finish_congr {first second : M W Unit} {one two : St W}
    (same : first one = second two) : finish first one = finish second two :=
  Prog.bind_congr (Prog.tryCatch_congr same _) _

variable {interp : Interp W} {self : Loc} {caller : Option Loc}
  {state asked : St W} {contexts : List Context} {sep value text : Str}

/-- The run of the tag from where its parameters have been read. -/
theorem execute_asked
    (asks : Asked interp self state asked contexts sep value text) :
    ∃ pieces, Pieces sep value pieces ∧
      execute interp self caller state =
        finish (drive interp self caller sep (pieces.map interp.dcl.trim)
          (interp.dcl.tokenize text ",".toList)) asked := by
  obtain ⟨parameter, first, second, separator, read, named, rfl⟩ := asks.read
  obtain ⟨pieces, cut, split⟩ := splitFrom_eq interp.dcl
    (separatorOf_filled parameter) (Nat.zero_le value.length)
    (Nat.lt_succ_self value.length)
  refine ⟨pieces, cut, ?_⟩
  have entered : M.enter state = ⟨state.withLayer ∅, [], .value ()⟩ := rfl
  have sourced : source interp self (state.withLayer ∅) =
      ⟨second, [], .value
        (separatorOf parameter, pieces.map interp.dcl.trim)⟩ := by
    unfold source
    rw [Prog.bind_silent separator]
    rw [Prog.bind_silent read]
    change (M.orTimeout (splitFrom interp.dcl (separatorOf parameter) value
      (value.length + 1) 0) >>= _) second = _
    rw [split]
    rfl
  unfold execute
  rw [Prog.bind_silent entered,
    Prog.bind_silent (Prog.onError_eq sourced _)]
  apply finish_congr
  unfold body
  rw [Prog.bind_silent named]
  unfold drive
  rfl

/-! ## Several variables -/

/-- The values dealt out to a number of names. -/
def collect (sep : Str) (count : Nat) (fragments : List Str) : List Str :=
  if fragments.length ≤ count then fragments
  else
    fragments.take (count - 1) ++
      [sep.intercalate (fragments.drop (count - 1))]

/-- The value the name at an index is to have: its fragment, or, for the
last name, all that is left; the empty string where there is none. -/
def share (sep : Str) (fragments : List Str) (count index : Nat) : Str :=
  if index + 1 = count then sep.intercalate (fragments.drop index)
  else (fragments[index]?).getD []

/-- A layer after bindings, one after the other. -/
def bindAll (layer : Vars) (bindings : List (Str × Str)) : Vars :=
  bindings.foldl (fun vars binding => vars.insert (upName binding.1) binding.2)
    layer

theorem lookup_bindAll (key : Str) (bindings : List (Str × Str))
    (layer : Vars) :
    (bindAll layer bindings).lookup key =
      (lastBinding key bindings).or (layer.lookup key) := by
  induction bindings generalizing layer with
  | nil => rfl
  | cons binding bindings induction =>
      change (bindAll (layer.insert (upName binding.1) binding.2)
        bindings).lookup key = _
      rw [induction, lastBinding, Option.or_assoc]
      congr 1
      by_cases same : upName binding.1 = key
      · rw [if_pos same, ← same, AList.lookup_insert]
        rfl
      · rw [if_neg same, AList.lookup_insert_ne (Ne.symm same)]
        rfl

/-- Names and fragments are paired as far as both reach. -/
theorem bindNames_eq (interp : Interp W) {contexts : List Context}
    (chain : contexts ≠ []) (names fragments : List Str) (last : Str)
    {layer : Vars} {state : St W}
    (same : state.contexts = Chain.withLayer layer contexts) :
    bindNames interp last names fragments state =
      ⟨{ state with
          contexts := Chain.withLayer (bindAll layer (names.zip fragments))
            contexts }, [],
        .value (((names.take fragments.length).getLast?).getD last,
          fragments.drop names.length)⟩ := by
  induction names generalizing fragments last layer state with
  | nil =>
      rw [List.take_nil]
      unfold bindNames
      change (⟨state, [], .value (last, fragments)⟩ : Run _ _ _ _) =
        ⟨{ state with contexts := Chain.withLayer layer contexts }, [],
          .value (last, fragments)⟩
      rw [← same]
  | cons name names induction =>
      cases fragments with
      | nil =>
          unfold bindNames
          change (⟨state, [], .value (last, [])⟩ : Run _ _ _ _) =
            ⟨{ state with contexts := Chain.withLayer layer contexts }, [],
              .value (last, [])⟩
          rw [← same]
      | cons fragment fragments =>
          have added := M.addValue_withLayer interp.dcl name fragment layer
            chain same
          unfold bindNames
          rw [Prog.bind_silent added, induction fragments name rfl]
          rw [List.length_cons, List.take_succ_cons, List.getLast?_cons]
          rfl

theorem foldl_join (sep value : Str) (rest : List Str) :
    rest.foldl (fun value fragment => value ++ sep ++ fragment) value =
      sep.intercalate (value :: rest) := by
  induction rest generalizing value with
  | nil => simp
  | cons fragment rest induction =>
      rw [List.foldl_cons, induction]
      cases rest with
      | nil => simp [List.intercalate]
      | cons next rest => simp [List.intercalate]

theorem replace_insert (vars : Vars) (key old value : Str) :
    (vars.insert key old).replace key value = vars.insert key value := by
  apply AList.ext
  simp [AList.replace, AList.entries_insert, List.kreplace]

theorem setValue_withLayer {name value old : Str} {layer : Vars}
    (bound : layer.lookup (upName name) = some old) {contexts : List Context}
    (chain : contexts ≠ []) :
    Chain.setValue name value (Chain.withLayer layer contexts) =
      some (Chain.withLayer (layer.replace (upName name) value) contexts) := by
  cases contexts with
  | nil => exact absurd rfl chain
  | cons context parents =>
      simp [Chain.withLayer, Chain.setValue, assignVar, bound]

/-- What is left over is appended to the last variable. -/
def appendRest (dcl : Dcl) (sep last : Str) (rest : List Str) : M W Unit :=
  Prog.when (!rest.isEmpty) do
    let value ← M.getValue last
    M.setValue dcl last
      (rest.foldl (fun value fragment => value ++ sep ++ fragment) value)

theorem appendRest_eq (dcl : Dcl) {last value sep : Str} {rest : List Str}
    {layer : Vars} {contexts : List Context} (chain : contexts ≠ [])
    {state : St W} (same : state.contexts =
      Chain.withLayer (layer.insert (upName last) value) contexts) :
    appendRest dcl sep last rest state =
      ⟨{ state with
          contexts := Chain.withLayer (layer.insert (upName last)
            (sep.intercalate (value :: rest))) contexts }, [],
        .value ()⟩ := by
  cases rest with
  | nil =>
      change (⟨state, [], .value ()⟩ : Run _ _ _ _) = _
      rw [List.intercalate_singleton, ← same]
  | cons fragment rest =>
      have bound : (layer.insert (upName last) value).lookup (upName last) =
          some value := AList.lookup_insert layer
      have read : Chain.getValue last state.contexts = value := by
        rw [same, Chain.getValue_withLayer last _ chain, bound]
        rfl
      change (M.getValue last >>= _) state = _
      rw [Prog.bind_silent (M.getValue_eq last state), read, foldl_join]
      unfold M.setValue Prog.act
      simp only [same, setValue_withLayer bound chain, replace_insert]

/-- Binding the names and appending what is left over deals the fragments
out. -/
theorem deal_eq (interp : Interp W) (sep : Str) (fragments : List Str)
    {names : List Str} (named : names ≠ []) {contexts : List Context}
    (chain : contexts ≠ []) {layer : Vars} {state : St W}
    (same : state.contexts = Chain.withLayer layer contexts) :
    (bindNames interp [] names fragments >>= fun bound =>
        appendRest interp.dcl sep bound.1 bound.2) state =
      ⟨{ state with
          contexts := Chain.withLayer (bindAll layer
            (names.zip (collect sep names.length fragments))) contexts }, [],
        .value ()⟩ := by
  rw [Prog.bind_silent (bindNames_eq interp chain names fragments [] same)]
  by_cases few : fragments.length ≤ names.length
  · rw [List.drop_eq_nil_of_le few, collect, if_pos few]
    rfl
  · -- The last name gets one fragment first and the others behind it.
    obtain ⟨names, last, rfl⟩ : ∃ firsts last, names = firsts ++ [last] :=
      ⟨names.dropLast, names.getLast named,
        (List.dropLast_append_getLast named).symm⟩
    rw [List.length_append, List.length_singleton] at few
    have within : names.length < fragments.length := by omega
    obtain ⟨firsts, fragment, rest, rfl, dealt⟩ :
        ∃ firsts fragment rest, fragments = firsts ++ fragment :: rest ∧
          names.length = firsts.length := by
      refine ⟨fragments.take names.length, fragments[names.length],
        fragments.drop (names.length + 1), ?_, ?_⟩
      · rw [← List.drop_eq_getElem_cons within, List.take_append_drop]
      · rw [List.length_take]
        omega
    have name : (((names ++ [last]).take
        (firsts ++ fragment :: rest).length).getLast?).getD [] = last := by
      rw [List.take_of_length_le (by simp; omega)]
      simp
    have left : (firsts ++ fragment :: rest).drop
        (names ++ [last]).length = rest := by
      rw [List.length_append, dealt, ← List.drop_drop, List.drop_left]
      rfl
    have collected : collect sep (names ++ [last]).length
        (firsts ++ fragment :: rest) =
          firsts ++ [sep.intercalate (fragment :: rest)] := by
      unfold collect
      rw [if_neg (by simpa using few), List.length_append,
        List.length_singleton, Nat.add_sub_cancel, dealt, List.take_left,
        List.drop_left]
    have paired : ∀ value more, bindAll layer
        ((names ++ [last]).zip (firsts ++ value :: more)) =
          (bindAll layer (names.zip firsts)).insert (upName last) value := by
      intro value more
      rw [List.zip_append dealt]
      simp [bindAll]
    rw [name, left, collected, paired, paired]
    exact appendRest_eq interp.dcl chain rfl

/-- The fragments are dealt out in the layer of the tag, and the body is
executed once. -/
theorem drive_names (interp : Interp W) (self : Loc) (caller : Option Loc)
    (sep : Str) (fragments : List Str) {names : List Str}
    (several : 2 ≤ names.length) {contexts : List Context}
    (chain : contexts ≠ []) {layer : Vars} {state : St W}
    (same : state.contexts = Chain.withLayer layer contexts) :
    drive interp self caller sep fragments names state =
      interp.executeChilds self caller
        { state with
          contexts := Chain.withLayer (bindAll layer
            (names.zip (collect sep names.length fragments))) contexts } := by
  have named : names ≠ [] := by
    rintro rfl
    exact absurd several (by decide)
  have driven : drive interp self caller sep fragments names =
      ((bindNames interp [] names fragments >>= fun bound =>
        appendRest interp.dcl sep bound.1 bound.2) >>= fun _ =>
          interp.executeChilds self caller) := by
    rw [Prog.bind_assoc]
    match names, several with
    | _ :: _ :: _, _ => rfl
  rw [driven, Prog.bind_silent (deal_eq interp sep fragments named chain same)]

theorem getElem?_collect (sep : Str) (fragments : List Str)
    {count index : Nat} (within : index < count) :
    (collect sep count fragments)[index]? =
      if index < fragments.length then some (share sep fragments count index)
      else none := by
  unfold collect share
  by_cases few : fragments.length ≤ count
  · rw [if_pos few]
    by_cases there : index < fragments.length
    · rw [if_pos there, List.getElem?_eq_getElem there]
      by_cases last : index + 1 = count
      · rw [if_pos last, List.drop_eq_getElem_cons there,
          List.drop_eq_nil_of_le (by omega), List.intercalate_singleton]
      · rw [if_neg last]
        rfl
    · rw [if_neg there, List.getElem?_eq_none (Nat.le_of_not_lt there)]
  · have there : index < fragments.length := by omega
    have length : (fragments.take (count - 1)).length = count - 1 := by
      rw [List.length_take]
      omega
    rw [if_neg few, if_pos there]
    by_cases last : index + 1 = count
    · subst last
      rw [if_pos rfl, Nat.add_sub_cancel,
        List.getElem?_append_right (List.length_take_le _ _)]
      simp [Nat.min_eq_left (Nat.le_of_lt there)]
    · rw [if_neg last, List.getElem?_append_left (by omega),
        List.getElem?_take_of_lt (by omega), List.getElem?_eq_getElem there]
      rfl

theorem mem_dealt {sep : Str} {names fragments : List Str}
    {binding : Str × Str} :
    binding ∈ names.zip (collect sep names.length fragments) ↔
      ∃ index, index < fragments.length ∧ names[index]? = some binding.1 ∧
        binding.2 = share sep fragments names.length index := by
  rw [List.mem_iff_getElem?]
  apply exists_congr
  intro index
  rw [List.getElem?_zip_eq_some]
  by_cases within : index < names.length
  · rw [getElem?_collect sep fragments within]
    by_cases there : index < fragments.length
    · simp [there, eq_comm]
    · simp [there]
  · rw [List.getElem?_eq_none (Nat.le_of_not_lt within)]
    simp

/-- The names can be dealt the fragments: each one, or one that differs from
it only in case, is reached by a fragment, and names that differ only in case
have the same share. -/
structure Distributes (sep : Str) (names fragments : List Str) : Prop where
  reached : ∀ name ∈ names, ∃ other ∈ names.take fragments.length,
    upName other = upName name
  agree : ∀ (first second : Nat) (one two : Str),
    names[first]? = some one → names[second]? = some two →
      upName one = upName two →
        share sep fragments names.length first =
          share sep fragments names.length second

/-- Different variables can be dealt the fragments exactly when there are
enough fragments. -/
theorem distributes_iff_of_distinct {sep : Str} {names fragments : List Str}
    (distinct : (names.map upName).Nodup) :
    Distributes sep names fragments ↔ names.length ≤ fragments.length := by
  have same : ∀ (first second : Nat) (one two : Str),
      names[first]? = some one → names[second]? = some two →
        upName one = upName two → first = second := by
    intro first second one two here there equal
    have bound := (List.getElem?_eq_some_iff.mp here).1
    apply (List.getElem?_inj (by simpa using bound) distinct).mp
    rw [List.getElem?_map, List.getElem?_map, here, there]
    exact congrArg some equal
  constructor
  · intro distributes
    by_contra fewer
    have within : fragments.length < names.length := by omega
    obtain ⟨other, member, equal⟩ := distributes.reached
      names[fragments.length] (List.getElem_mem within)
    obtain ⟨index, found⟩ := List.mem_iff_getElem?.mp member
    rw [List.getElem?_take] at found
    by_cases before : index < fragments.length
    · rw [if_pos before] at found
      have reached := same index fragments.length other _ found
        (List.getElem?_eq_getElem within) equal
      omega
    · rw [if_neg before] at found
      cases found
  · intro enough
    constructor
    · intro name member
      refine ⟨name, ?_, rfl⟩
      rw [List.take_of_length_le enough]
      exact member
    · intro first second one two here there equal
      rw [same first second one two here there equal]

theorem dealt_iff {sep : Str} {names fragments : List Str} :
    (∀ (index : Nat) (name : Str), names[index]? = some name →
      (bindAll ∅ (names.zip
        (collect sep names.length fragments))).lookup (upName name) =
          some (share sep fragments names.length index)) ↔
      Distributes sep names fragments := by
  have read : ∀ key, (bindAll ∅ (names.zip
      (collect sep names.length fragments))).lookup key =
        lastBinding key (names.zip
          (collect sep names.length fragments)) := by
    intro key
    rw [lookup_bindAll, AList.lookup_empty, Option.or_none]
  simp only [read]
  constructor
  · intro bound
    constructor
    · intro name member
      obtain ⟨index, there⟩ := List.mem_iff_getElem?.mp member
      obtain ⟨other, dealt, equal⟩ :=
        mem_of_lastBinding (bound index name there)
      obtain ⟨place, within, named, -⟩ := mem_dealt.mp dealt
      refine ⟨other, ?_, equal⟩
      apply List.mem_iff_getElem?.mpr
      refine ⟨place, ?_⟩
      rw [List.getElem?_take, if_pos within]
      exact named
    · intro first second one two here there equal
      have bound_one := bound first one here
      rw [equal, bound second two there] at bound_one
      exact (Option.some.inj bound_one).symm
  · intro distributes index name there
    cases last : lastBinding (upName name)
        (names.zip (collect sep names.length fragments)) with
    | none =>
        obtain ⟨other, member, equal⟩ := distributes.reached name
          (List.mem_of_getElem? there)
        obtain ⟨place, found⟩ := List.mem_iff_getElem?.mp member
        rw [List.getElem?_take] at found
        by_cases within : place < fragments.length
        · rw [if_pos within] at found
          have dealt : (other, share sep fragments names.length place) ∈
              names.zip (collect sep names.length fragments) :=
            mem_dealt.mpr ⟨place, within, found, rfl⟩
          exact absurd equal (lastBinding_eq_none.mp last _ dealt)
        · rw [if_neg within] at found
          cases found
    | some value =>
        obtain ⟨other, dealt, equal⟩ := mem_of_lastBinding last
        obtain ⟨place, -, named, rfl⟩ := mem_dealt.mp dealt
        rw [distributes.agree index place name other there named equal.symm]

/-- The layer of the tag when its body is executed. -/
def dealtLayer (sep : Str) (names fragments : List Str) : Vars :=
  bindAll ∅ (names.zip (collect sep names.length fragments))

/-- The body is executed once, in the layer with the fragments dealt out;
every name has its share there exactly when the names can be dealt the
fragments. -/
theorem names_bound_iff
    (asks : Asked interp self state asked contexts sep value text)
    {names : List Str}
    (named : interp.dcl.tokenize text ",".toList = names)
    (several : 2 ≤ names.length) :
    ∃ pieces, Pieces sep value pieces ∧
      let fragments := pieces.map interp.dcl.trim
      execute interp self caller state =
        finish (interp.executeChilds self caller)
          { asked with
            contexts := Chain.withLayer (dealtLayer sep names fragments)
              contexts } ∧
      ((∀ (index : Nat) (name : Str), names[index]? = some name →
          (dealtLayer sep names fragments).lookup (upName name) =
            some (share sep fragments names.length index)) ↔
        Distributes sep names fragments) := by
  obtain ⟨pieces, cut, ran⟩ := execute_asked asks
  refine ⟨pieces, cut, ?_, dealt_iff⟩
  rw [ran, named]
  apply finish_congr
  exact drive_names interp self caller sep _ several asks.chain asks.layer

/-- `<dbp:split name="host,port" separator=":" value="...">{$host} {$port}`. -/
def hostPort (value : String) : Loc :=
  ⟨.mk 1 .split [("name".toList, "host,port".toList),
      ("separator".toList, ":".toList), ("value".toList, value.toList)]
    [.mk 2 .expression [] [] "\x7b$host\x7d \x7b$port\x7d".toList] [], []⟩

/-- An interpreter of a plain world. -/
def plainInterp : Interp Unit :=
  .ofRun .plain 3 (DbPager.execute .plain 3)

/-- A request with a parameter `port`. -/
def portContexts : List Context :=
  [Context.newLocal.addValue "port".toList "8080".toList]

theorem hostPort_asks (value : String)
    (read : ∀ state, plainInterp.getParameter (hostPort value) "value" state =
      ⟨state, [], .value value.toList⟩) :
    Asked plainInterp (hostPort value) (St.fresh portContexts)
      ((St.fresh portContexts).withLayer ∅) portContexts ":".toList
      value.toList "host,port".toList where
  read := ⟨":".toList, _, _, rfl, read _, rfl, rfl⟩
  chain := by simp [portContexts]
  layer := rfl

theorem names_bound_sample :
    ∃ pieces, Pieces ":".toList "localhost:80".toList pieces ∧
      let fragments := pieces.map Dcl.plain.trim
      execute plainInterp (hostPort "localhost:80") none
          (St.fresh portContexts) =
        finish (plainInterp.executeChilds (hostPort "localhost:80") none)
          { (St.fresh portContexts).withLayer ∅ with
            contexts := Chain.withLayer (dealtLayer ":".toList
              ["host".toList, "port".toList] fragments) portContexts } ∧
      ((∀ (index : Nat) (name : Str),
          ["host".toList, "port".toList][index]? = some name →
          (dealtLayer ":".toList ["host".toList, "port".toList]
              fragments).lookup (upName name) =
            some (share ":".toList fragments 2 index)) ↔
        Distributes ":".toList ["host".toList, "port".toList] fragments) :=
  names_bound_iff (hostPort_asks "localhost:80" fun _ => rfl) rfl (by decide)

/-- Without a second fragment the variable `port` is not bound: the body
reads the parameter of the request. -/
theorem missing_fragment_unbound :
    (dealtLayer ":".toList ["host".toList, "port".toList]
        ["localhost".toList]).lookup (upName "port".toList) ≠
      some (share ":".toList ["localhost".toList] 2 1) ∧
    (DbPager.execute .plain 4 (hostPort "localhost") none
        (St.fresh portContexts)).out = "localhost 8080".toList :=
  ⟨by decide, by decide +kernel⟩

/-! ## One variable -/

/-- The state in which the variable has been assigned the fragment. -/
def Assigned (name fragment : Str) (state started : St W) : Prop :=
  ∃ contexts, Chain.setValue name fragment state.contexts = some contexts ∧
    started = { state with contexts } ∧
    Chain.getValue name contexts = fragment

/-- A run that executes the body once for every fragment, in order, each time
with the variable equal to the fragment, up to the first execution that does
not return. -/
inductive Driven (childs : M W Unit) (name : Str) :
    List Str → St W → Run (St W) Exc Char Unit → Prop where
  | done {state : St W} : Driven childs name [] state ⟨state, [], .value ()⟩
  | next {fragment : Str} {rest : List Str} {state started middle : St W}
      {out : Str} {run : Run (St W) Exc Char Unit} :
      Assigned name fragment state started →
      childs started = ⟨middle, out, .value ()⟩ →
      Driven childs name rest middle run →
      Driven childs name (fragment :: rest) state
        ⟨run.state, out ++ run.out, run.outcome⟩
  | stopped {fragment : Str} {rest : List Str} {state started : St W} :
      Assigned name fragment state started →
      (childs started).outcome ≠ .value () →
      Driven childs name (fragment :: rest) state (childs started)

/-- At the beginning of every round the variable is bound. -/
def StaysBound (childs : M W Unit) (name : Str) : List Str → St W → Prop
  | [], _ => True
  | fragment :: rest, state =>
      Bound state.contexts name ∧
      ∀ started middle out, Assigned name fragment state started →
        childs started = ⟨middle, out, .value ()⟩ →
        StaysBound childs name rest middle

theorem Assigned.unique {name fragment : Str} {state one two : St W}
    (first : Assigned name fragment state one)
    (second : Assigned name fragment state two) : one = two := by
  obtain ⟨contexts, assigned, rfl, -⟩ := first
  obtain ⟨others, again, rfl, -⟩ := second
  rw [assigned] at again
  cases again
  rfl

/-- An assignment to a bound variable. -/
theorem assign_bound (dcl : Dcl) {name : Str} {state : St W}
    (bound : Bound state.contexts name) (fragment : Str) :
    ∃ started, Assigned name fragment state started ∧
      M.setValue dcl name fragment state = ⟨started, [], .value ()⟩ := by
  unfold M.setValue Prog.act
  rcases Chain.setValue_cases name fragment state.contexts with
    ⟨-, unread, -⟩ | ⟨changed, place, assigned, -, reads, assigns⟩
  · unfold Bound at bound
    rw [unread] at bound
    cases bound
  · obtain ⟨still, holds⟩ := reads.assigned assigns
    refine ⟨{ state with contexts := changed }, ⟨changed, assigned, rfl, ?_⟩,
      ?_⟩
    · unfold Chain.getValue
      rw [Chain.lookup_innermost still, holds]
      rfl
    · simp only [assigned]

theorem Assigned.bound {name fragment : Str} {state started : St W}
    (assigned : Assigned name fragment state started) :
    Bound state.contexts name := by
  obtain ⟨contexts, changed, -, -⟩ := assigned
  by_contra unbound
  rw [Chain.setValue_of_not_bound unbound] at changed
  cases changed

/-- The rounds after one that returns. -/
theorem Driven.rest {childs : M W Unit} {name fragment : Str}
    {rest : List Str} {state started middle : St W} {out : Str}
    {run : Run (St W) Exc Char Unit}
    (driven : Driven childs name (fragment :: rest) state
      ⟨run.state, out ++ run.out, run.outcome⟩)
    (assigned : Assigned name fragment state started)
    (returned : childs started = ⟨middle, out, .value ()⟩) :
    Driven childs name rest middle run := by
  generalize whole : (⟨run.state, out ++ run.out, run.outcome⟩ :
    Run (St W) Exc Char Unit) = total at driven
  cases driven with
  | next its first more =>
      rw [its.unique assigned, returned] at first
      cases first
      rcases run with ⟨final, written, outcome⟩
      simp only [Run.mk.injEq, List.append_cancel_left_eq] at whole
      obtain ⟨rfl, rfl, rfl⟩ := whole
      exact more
  | stopped its stops =>
      rw [its.unique assigned, returned] at stops
      exact absurd rfl stops

/-- The loop drives the body exactly when the variable is bound at the
beginning of every round. -/
theorem driven_iff (interp : Interp W) (self : Loc) (caller : Option Loc)
    (name : Str) (fragments : List Str) (state : St W) :
    Driven (interp.executeChilds self caller) name fragments state
        (cycle interp self caller name fragments state) ↔
      StaysBound (interp.executeChilds self caller) name fragments state := by
  induction fragments generalizing state with
  | nil => exact ⟨fun _ => trivial, fun _ => .done⟩
  | cons fragment rest induction =>
      have unrolled : cycle interp self caller name (fragment :: rest) =
          ((M.setValue interp.dcl name fragment >>= fun _ =>
            interp.executeChilds self caller) >>= fun _ =>
              cycle interp self caller name rest) := rfl
      have round : ∀ {started middle : St W} {out : Str},
          Assigned name fragment state started →
          M.setValue interp.dcl name fragment state =
            ⟨started, [], .value ()⟩ →
          interp.executeChilds self caller started =
            ⟨middle, out, .value ()⟩ →
          cycle interp self caller name (fragment :: rest) state =
            ⟨(cycle interp self caller name rest middle).state,
              out ++ (cycle interp self caller name rest middle).out,
              (cycle interp self caller name rest middle).outcome⟩ := by
        intro started middle out assigned set returned
        rw [unrolled]
        exact Prog.bind_eq ((Prog.bind_silent set _).trans returned) _
      constructor
      · intro driven
        have bound : Bound state.contexts name := by
          generalize cycle interp self caller name (fragment :: rest) state =
            run at driven
          cases driven with
          | next assigned returned more => exact assigned.bound
          | stopped assigned stops => exact assigned.bound
        refine ⟨bound, ?_⟩
        intro started middle out assigned returned
        obtain ⟨same, its, set⟩ := assign_bound interp.dcl bound fragment
        rw [its.unique assigned] at set
        rw [round assigned set returned] at driven
        exact (induction middle).mp (driven.rest assigned returned)
      · rintro ⟨bound, later⟩
        obtain ⟨started, assigned, set⟩ :=
          assign_bound interp.dcl bound fragment
        cases ran : interp.executeChilds self caller started with
        | mk middle out outcome =>
            cases outcome with
            | value result =>
                rw [round assigned set ran]
                exact .next assigned ran
                  ((induction middle).mpr (later _ _ _ assigned ran))
            | error exception =>
                have ended : cycle interp self caller name (fragment :: rest)
                    state = interp.executeChilds self caller started := by
                  rw [unrolled, ran]
                  exact Prog.bind_error
                    ((Prog.bind_silent set _).trans ran) _
                rw [ended]
                exact .stopped assigned (by rw [ran]; simp)
            | halt reason =>
                have ended : cycle interp self caller name (fragment :: rest)
                    state = interp.executeChilds self caller started := by
                  rw [unrolled, ran]
                  exact Prog.bind_halt
                    ((Prog.bind_silent set _).trans ran) _
                rw [ended]
                exact .stopped assigned (by rw [ran]; simp)

/-- The fragments in the order in which they are presented. -/
def inOrder (order : Str) (fragments : List Str) : List Str :=
  if order = "desc".toList then fragments.reverse else fragments

/-- The text is cut at the separator, and the body is driven by the fragments
exactly when the variable is bound at the beginning of every round. -/
theorem body_driven_iff
    (asks : Asked interp self state asked contexts sep value text)
    {name order : Str} {start : St W}
    (named : interp.dcl.tokenize text ",".toList = [name])
    (ordered : interp.getParameter self "order"
        { asked with
          contexts := Chain.withLayer ((∅ : Vars).insert (upName name) [])
            contexts } =
      ⟨start, [], .value order⟩)
    (known : order = [] ∨ order = "asc".toList ∨ order = "desc".toList) :
    ∃ pieces, Pieces sep value pieces ∧ sep.intercalate pieces = value ∧
      (∀ piece ∈ pieces, ¬ sep <:+: piece) ∧
      let rounds := inOrder order (pieces.map interp.dcl.trim)
      execute interp self caller state =
        finish (cycle interp self caller name rounds) start ∧
      (Driven (interp.executeChilds self caller) name rounds start
          (cycle interp self caller name rounds start) ↔
        StaysBound (interp.executeChilds self caller) name rounds start) := by
  obtain ⟨pieces, cut, ran⟩ := execute_asked asks
  refine ⟨pieces, cut, cut.intercalate_eq, cut.not_infix cut.filled, ?_,
    driven_iff interp self caller name _ start⟩
  have added := M.addValue_withLayer interp.dcl name [] ∅ asks.chain asks.layer
  rw [ran, named]
  apply finish_congr
  change (M.addValue interp.dcl name [] >>= _) asked = _
  rw [Prog.bind_silent added, Prog.bind_silent ordered]
  rcases known with rfl | rfl | rfl
  · rfl
  · rfl
  · rfl

/-! ### Bodies without a leak -/

/-- The variable is bound in the local context at hand. -/
def BoundHere (name : Str) (contexts : List Context) : Prop :=
  ∃ context parents, contexts = context :: parents ∧
    context.type = Context.localType ∧
    (findVar (upName name) context.stack).isSome

theorem BoundHere.bound {name : Str} {contexts : List Context}
    (here : BoundHere name contexts) : Bound contexts name := by
  obtain ⟨context, parents, rfl, -, found⟩ := here
  obtain ⟨value, found⟩ := Option.isSome_iff_exists.mp found
  unfold Bound Chain.lookup
  rw [found]
  rfl

theorem BoundHere.of_names {name : Str} {context changed : Context}
    {parents changedParents : List Context}
    (here : BoundHere name (context :: parents))
    (same : Layers.SameNames context changed) :
    BoundHere name (changed :: changedParents) := by
  obtain ⟨first, rest, chain, isLocal, found⟩ := here
  cases chain
  refine ⟨changed, changedParents, rfl, same.type.trans isLocal, ?_⟩
  rw [Layers.findVar_isSome] at found ⊢
  rw [same.names]
  exact found

theorem BoundHere.assigned {name fragment : Str} {state started : St W}
    (here : BoundHere name state.contexts)
    (assigned : Assigned name fragment state started) :
    BoundHere name started.contexts := by
  obtain ⟨contexts, set, rfl, -⟩ := assigned
  obtain ⟨context, parents, chain, isLocal, found⟩ := here
  rw [chain] at set
  obtain ⟨changed, changedParents, same, -, rfl⟩ :=
    List.forall₂_cons_left_iff.mp (Layers.setValue_names set)
  exact BoundHere.of_names ⟨context, parents, rfl, isLocal, found⟩ same

/-- The program records no leak, whatever state it is started in. -/
def Clean (childs : M W Unit) : Prop :=
  ∀ state events place, (childs state).state.trace = events ++ state.trace →
    Event.leak place ∉ events

theorem BoundHere.after {dcl : Dcl} {childs : M W Unit} {name : Str}
    (keeps : Keeps (Layers.localContract dcl) childs) (clean : Clean childs)
    {state middle : St W} {out : Str}
    (here : BoundHere name state.contexts)
    (returned : childs state = ⟨middle, out, .value ()⟩) :
    BoundHere name middle.contexts := by
  obtain ⟨context, parents, chain, isLocal, found⟩ := here
  have meets := (keeps state).done (by rw [returned]; trivial)
  have quiet := clean state
  rw [returned] at meets quiet
  obtain ⟨-, events, trace, steps⟩ := meets
    (by simp [Layers.HeadLocal, chain, isLocal])
  have steps := steps.resolve_left (by
    rintro ⟨place, leaked⟩
    exact quiet events place trace leaked)
  rw [chain, List.map_cons] at steps
  obtain ⟨changed, changedParents, final, same, -⟩ := steps.names rfl
  obtain ⟨last, lastParents, rest, rfl, -⟩ := List.map_eq_cons_iff.mp final
  rw [rest]
  exact BoundHere.of_names ⟨context, parents, rfl, isLocal, found⟩
    ⟨same.type, same.names⟩

/-- A body that records no leak leaves the variable bound. -/
theorem staysBound_of_clean {dcl : Dcl} {childs : M W Unit} {name : Str}
    (keeps : Keeps (Layers.localContract dcl) childs) (clean : Clean childs)
    (fragments : List Str) {state : St W}
    (here : BoundHere name state.contexts) :
    StaysBound childs name fragments state := by
  induction fragments generalizing state with
  | nil => trivial
  | cons fragment rest induction =>
      refine ⟨here.bound, ?_⟩
      intro started middle out assigned returned
      exact induction ((here.assigned assigned).after keeps clean returned)

theorem executeChilds_keeps (outside : Outside W) (depth : Nat) (self : Loc)
    (caller : Option Loc) :
    Keeps (Layers.localContract outside.dcl)
      ((Interp.ofRun outside depth
        (DbPager.execute outside depth)).executeChilds self caller) := by
  refine Keeps.bind (Keeps.forEach fun tag _ => ?_) fun _ => Keeps.emit _
  exact Layers.execute_keeps outside depth _ caller

/-- In a local context the loop drives every body that records no leak. -/
theorem clean_body_driven (outside : Outside W) (depth : Nat) (self : Loc)
    (caller : Option Loc) (name : Str) (fragments : List Str) {state : St W}
    (here : BoundHere name state.contexts)
    (clean : Clean ((Interp.ofRun outside depth
      (DbPager.execute outside depth)).executeChilds self caller)) :
    Driven ((Interp.ofRun outside depth
        (DbPager.execute outside depth)).executeChilds self caller)
      name fragments state
      (cycle (Interp.ofRun outside depth (DbPager.execute outside depth))
        self caller name fragments state) :=
  (driven_iff _ self caller name fragments state).mpr
    (staysBound_of_clean (executeChilds_keeps outside depth self caller) clean
      fragments here)

/-- `<dbp:split name="x" value="a,b">` with the given children. -/
def splitOver (childs : List Tag) : Loc :=
  ⟨.mk 1 .split [("name".toList, "x".toList), ("value".toList, "a,b".toList)]
    childs [], []⟩

/-- `{$x}`. -/
def showX : Tag :=
  .mk 2 .expression [] [] "\x7b$x\x7d".toList

theorem splitOver_asks :
    Asked plainInterp (splitOver [showX]) (St.fresh [Context.newLocal])
      ((St.fresh [Context.newLocal]).withLayer ∅) [Context.newLocal]
      ",".toList "a,b".toList "x".toList where
  read := ⟨[], _, _, rfl, rfl, rfl, rfl⟩
  chain := by simp
  layer := rfl

theorem body_driven_sample :
    ∃ pieces, Pieces ",".toList "a,b".toList pieces ∧
      ",".toList.intercalate pieces = "a,b".toList ∧
      (∀ piece ∈ pieces, ¬ ",".toList <:+: piece) ∧
      let rounds := inOrder [] (pieces.map Dcl.plain.trim)
      let start : St Unit := { (St.fresh [Context.newLocal]).withLayer ∅ with
        contexts := Chain.withLayer ((∅ : Vars).insert "X".toList [])
          [Context.newLocal] }
      execute plainInterp (splitOver [showX]) none
          (St.fresh [Context.newLocal]) =
        finish (cycle plainInterp (splitOver [showX]) none "x".toList rounds)
          start ∧
      (Driven (plainInterp.executeChilds (splitOver [showX]) none) "x".toList
          rounds start
          (cycle plainInterp (splitOver [showX]) none "x".toList rounds
            start) ↔
        StaysBound (plainInterp.executeChilds (splitOver [showX]) none)
          "x".toList rounds start) :=
  body_driven_iff splitOver_asks rfl rfl (.inl rfl)

/-- An LDAP server that is gone when the third bind is made. -/
def failingLdap : Outside Nat :=
  { Outside.closed Nat with
    ldap :=
      { connect := fun _ binds => (binds, .value 1)
        saslBind := fun _ _ _ binds =>
          (binds + 1, if binds = 2 then some "gone".toList else none)
        search := fun _ _ _ => unreachable _ } }

/-- Two nested `ldap:bind` in a `dbp:try`. -/
def nestedBinds : Tag :=
  .mk 3 .try []
    [.mk 4 .ldapConnection [("href".toList, "ldap://".toList)]
      [.mk 5 .ldapBind [("dn".toList, "a".toList),
          ("password".toList, "p".toList)]
        [.mk 6 .ldapBind [("dn".toList, "b".toList),
            ("password".toList, "q".toList)] [] []] []] [],
      .mk 7 .catch [] [] []] []

/-- The body catches an exception that has left one layer too many: the
variable is gone, and the second fragment is never presented. -/
theorem body_unbinds_variable :
    let interp : Interp Nat := .ofRun failingLdap 7
      (DbPager.execute failingLdap 7)
    let split := splitOver [showX, nestedBinds]
    let start : St Nat :=
      { contexts := Chain.withLayer ((∅ : Vars).insert "X".toList [])
          [Context.newLocal],
        vectors := ∅, maps := ∅, nextAddr := 1, world := 0, trace := [] }
    ¬ Driven (interp.executeChilds split none) "x".toList
        ["a".toList, "b".toList] start
        (cycle interp split none "x".toList ["a".toList, "b".toList] start) ∧
      (cycle interp split none "x".toList ["a".toList, "b".toList] start).out =
        "a".toList ∧
      (cycle interp split none "x".toList ["a".toList, "b".toList]
          start).outcome =
        .error (.dbp "variable \x7b0\x7d is not definedx".toList) := by
  intro interp split start
  refine ⟨?_, by decide +kernel, by decide +kernel⟩
  rw [driven_iff]
  intro stays
  let first : Run (St Nat) Exc Char Unit := interp.executeChilds split none
    { start with
      contexts := Chain.withLayer ((∅ : Vars).insert "X".toList "a".toList)
        [Context.newLocal] }
  have returned : first.outcome = .value () := by decide +kernel
  have unbound : (Chain.lookup "x".toList first.state.contexts).isSome =
      false := by decide +kernel
  have ran : first = ⟨first.state, first.out, .value ()⟩ := by
    rw [← returned]
  have bound := (stays.2 _ _ _ ⟨_, rfl, rfl, rfl⟩ ran).1
  unfold Bound at bound
  rw [unbound] at bound
  cases bound

end TagSplit

end DbPager
