import DbPager.Interpreter
import DbPager.Library.Output
import DbPager.Plain

/-!
# Maps as finite maps

The tags that change a `dbp:map` are compared with a finite map in which a
later value replaces an earlier one.  `std::unordered_map::insert` keeps the
value of a key that is there already, so the two agree as long as no tag
gives a key another value than the one it has.
-/

namespace DbPager

open Effect

variable {W : Type}

section Containers

variable (outside : Outside W) (map : StringMap)

theorem lookup_insertAt (position : Nat) {key : Str} (value : Str)
    {vars : Vars} (absent : key ∉ vars) (other : Str) :
    (insertAt position key value vars absent).lookup other =
      if other = key then some value else vars.lookup other := by
  have perm : (insertAt position key value vars absent).entries.Perm
      (vars.insert key value).entries := by
    rw [AList.entries_insert_of_notMem absent]
    exact List.perm_insertIdx _ _ (Nat.min_le_right _ _)
  rw [AList.perm_lookup perm]
  split
  · rename_i same
    subst same
    exact AList.lookup_insert _
  · rename_i different
    exact AList.lookup_insert_ne different

/-- An insertion counts only if the key is not there. -/
theorem StringMap.lookup_insert (key value other : Str) :
    (StringMap.insert outside map key value).content.lookup other =
      if other = key then (map.content.lookup other).or (some value)
      else map.content.lookup other := by
  unfold StringMap.insert
  split
  · rename_i present
    obtain ⟨old, found⟩ := Option.isSome_iff_exists.mp
      (AList.lookup_isSome.mpr present)
    split
    · rename_i same
      rw [same, found]
      rfl
    · rfl
  · rename_i absent
    change (insertAt _ key value map.content absent).lookup other = _
    rw [lookup_insertAt]
    split
    · rename_i same
      rw [same, AList.lookup_eq_none.mpr absent]
      rfl
    · rfl

theorem StringMap.lookup_erase (key other : Str) :
    (StringMap.erase map key).content.lookup other =
      if other = key then none else map.content.lookup other := by
  unfold StringMap.erase
  split
  · change (map.content.erase key).lookup other = _
    split
    · rename_i same
      rw [same]
      exact AList.lookup_erase key map.content
    · rename_i different
      exact AList.lookup_erase_ne different
  · rename_i absent
    split
    · rename_i same
      rw [same]
      exact AList.lookup_eq_none.mpr absent
    · rfl

/-- A key that is inserted twice has its first value. -/
theorem StringMap.lookup_foldl_insert (members : List (Str × Str))
    (other : Str) :
    (members.foldl (fun map member =>
        StringMap.insert outside map member.1 member.2) map).content.lookup
        other =
      (map.content.lookup other).or (members.lookup other) := by
  induction members generalizing map with
  | nil => exact (Option.or_none).symm
  | cons member members induction =>
      rw [List.foldl_cons, induction, StringMap.lookup_insert]
      rw [lookup_entry]
      by_cases same : other = member.1
      · rw [if_pos same, if_pos same, Option.or_assoc]
        rfl
      · rw [if_neg same, if_neg same]

end Containers

/-! ## Operations -/

/-- The changes tags make to a map. -/
inductive MapOperation where
  | set (key type value : Str)
  | unset (key : Str)
  /-- The members of a JSON object replace everything. -/
  | fromJson (members : List (Str × Str))

namespace MapOperation

/-- The finite map after the operations, the latest of which comes first:
every operation replaces what is there. -/
def reference : List MapOperation → Str → Option Str
  | [], _ => none
  | .set written _ value :: earlier, key =>
      if key = written then some value else reference earlier key
  | .unset removed :: earlier, key =>
      if key = removed then none else reference earlier key
  | .fromJson members :: _, key => members.lookup key

/-- What an operation does to the container. -/
def apply (outside : Outside W) (map : StringMap) : MapOperation → StringMap
  | .set key _ value => map.insert outside key value
  | .unset key => map.erase key
  | .fromJson members =>
      members.foldl
        (fun map member => map.insert outside member.1 member.2)
        (map.change ∅ .cleared)

/-- The operation does not give a key another value than the one it has. -/
def Keeps (expected : Str → Option Str) : MapOperation → Prop
  | .set key _ value => ∀ old, expected key = some old → old = value
  | _ => True

/-- The keys an operation mentions. -/
def keys : MapOperation → List Str
  | .set key _ _ => [key]
  | .unset key => [key]
  | .fromJson members => members.map Prod.fst

/-- The names of variables ignore case, so keys that differ in case only have
to have the same value, or none. -/
def CasesAgree (operations : List MapOperation) : Prop :=
  ∀ first ∈ operations.flatMap keys, ∀ second ∈ operations.flatMap keys,
    upName first = upName second →
      reference operations first = reference operations second

/-- Only keys that have been mentioned have a value. -/
theorem mem_keys_of_reference {operations : List MapOperation}
    {key value : Str} (found : reference operations key = some value) :
    key ∈ operations.flatMap keys := by
  induction operations with
  | nil => cases found
  | cons operation earlier induction =>
      rw [List.flatMap_cons, List.mem_append]
      cases operation with
      | set written type new =>
          unfold reference at found
          split at found
          · rename_i same
            exact .inl (List.mem_singleton.mpr same)
          · exact .inr (induction found)
      | unset removed =>
          unfold reference at found
          split at found
          · cases found
          · exact .inr (induction found)
      | fromJson members =>
          left
          obtain ⟨before, after, whole, -⟩ := List.lookup_eq_some_iff.mp found
          apply List.mem_map.mpr
          refine ⟨(key, value), ?_, rfl⟩
          rw [whole]
          exact List.mem_append_right _ List.mem_cons_self

/-- No operation gives a key another value than the one it has. -/
def NeverReplaces (operations : List MapOperation) : Prop :=
  ∀ operation earlier, (operation :: earlier) <:+ operations →
    operation.Keeps (reference earlier)

/-- One operation on a container that agrees with the finite map. -/
theorem lookup_apply (outside : Outside W) {map : StringMap}
    {earlier : List MapOperation}
    (agrees : ∀ key, map.content.lookup key = reference earlier key)
    (operation : MapOperation) :
    (∀ key, (operation.apply outside map).content.lookup key =
        reference (operation :: earlier) key) ↔
      operation.Keeps (reference earlier) := by
  cases operation with
  | set written type value =>
      constructor
      · intro same old found
        have here := same written
        unfold apply at here
        rw [StringMap.lookup_insert, if_pos rfl, agrees, found, reference,
          if_pos rfl] at here
        exact Option.some.inj here
      · intro keeps key
        unfold apply
        rw [StringMap.lookup_insert, agrees, reference]
        split
        · rename_i same
          subst same
          cases found : reference earlier key with
          | none => rfl
          | some old => rw [keeps old found]; rfl
        · rfl
  | unset removed =>
      apply iff_of_true _ trivial
      intro key
      unfold apply
      rw [StringMap.lookup_erase, agrees, reference]
  | fromJson members =>
      apply iff_of_true _ trivial
      intro key
      unfold apply
      rw [StringMap.lookup_foldl_insert, reference]
      rfl

end MapOperation

/-! ## The tags that change a map -/

/-- What a tag asks for: the map and the operation, if there is one. -/
structure MapChange where
  name : Str
  data : Nat
  operation : Option MapOperation

inductive MapTag where
  | set | unset | fromJson

namespace MapTag

variable (interp : Interp W) (self : Loc) (caller : Option Loc)

def execute : MapTag → M W Unit
  | .set => TagMapSet.execute interp self
  | .unset => TagMapUnset.execute interp self
  | .fromJson => TagMapFromJson.execute interp self caller

/-- The operation a JSON document stands for. -/
def ofJson (write : Json → Str) : Option Json → Option MapOperation
  | some (.object members) =>
      some (.fromJson
        (members.map fun member => (member.1, Json.elementText write member.2)))
  | _ => none

/-- Everything before the map is touched. -/
def asks : MapTag → M W MapChange
  | .set => do
      let name ← interp.getParameter self "name"
      let key ← interp.getParameter self "key"
      let type ← interp.getParameter self "type"
      let value ← interp.getParameter self "value"
      let data ← mapPointer interp name
      pure ⟨name, data, some (.set key type value)⟩
  | .unset => do
      let name ← interp.getParameter self "name"
      let key ← interp.getParameter self "key"
      let data ← mapPointer interp name
      pure ⟨name, data, some (.unset key)⟩
  | .fromJson => do
      let name ← interp.getParameter self "name"
      let data ← mapPointer interp name
      let root ← childJson interp self caller
      pure ⟨name, data, ofJson interp.outside.json.write root⟩

end MapTag

/-- `map-set` with a type also stores the type, in another map. -/
def MapOperation.recordType (interp : Interp W) (name : Str) :
    MapOperation → M W Unit
  | .set key type _ =>
      Prog.when (!type.isEmpty) do
        let dataTypes ← mapTypesPointer interp name
        let types ← M.getMap dataTypes
        M.setMap dataTypes (types.insert interp.outside key type)
  | _ => pure ()

def MapOperation.perform (interp : Interp W) (name : Str) (data : Nat)
    (operation : MapOperation) : M W Unit := do
  let map ← M.getMap data
  M.setMap data (operation.apply interp.outside map)
  operation.recordType interp name

def MapChange.perform (interp : Interp W) (change : MapChange) : M W Unit :=
  match change.operation with
  | some operation => operation.perform interp change.name change.data
  | none => pure ()

theorem MapTag.execute_eq (interp : Interp W) (self : Loc)
    (caller : Option Loc) (kind : MapTag) :
    kind.execute interp self caller =
      kind.asks interp self caller >>= MapChange.perform interp := by
  cases kind with
  | set =>
      simp only [asks, Prog.bind_assoc]
      rfl
  | unset =>
      simp only [asks, Prog.bind_assoc, Prog.pure_bind, MapChange.perform,
        MapOperation.perform, MapOperation.recordType]
      rfl
  | fromJson =>
      simp only [asks, Prog.bind_assoc, Prog.pure_bind]
      refine congrArg (Bind.bind _) (funext fun name => ?_)
      refine congrArg (Bind.bind _) (funext fun data => ?_)
      refine congrArg (Bind.bind _) (funext fun root => ?_)
      cases root with
      | none => rfl
      | some root =>
          cases root with
          | null | scalar | array => rfl
          | object members =>
              simp only [MapChange.perform, ofJson, MapOperation.perform,
                MapOperation.recordType, MapOperation.apply, List.foldl_map]
              rfl

namespace MapOperation

theorem getMap_eq {data : Nat} {state : St W} {map : StringMap}
    (live : state.maps.lookup data = some map) :
    M.getMap data state = ⟨state, [], .value map⟩ := by
  simp only [M.getMap, Prog.act, live]

/-- Looking an address up changes nothing. -/
theorem mapTypesPointer_state (interp : Interp W) (name : Str)
    (state : St W) : (mapTypesPointer interp name state).state = state := by
  have got : M.getValue (W := W) (mapTypesHandle name) state =
      ⟨state, [], .value (Chain.getValue (mapTypesHandle name) state.contexts)⟩ :=
    rfl
  unfold mapTypesPointer handle
  rw [Prog.bind_silent got]
  split
  · rfl
  · unfold M.pointer
    cases interp.dcl.fromStringPtr _ with
    | none => rfl
    | some addr => rfl

theorem stored_type {outside : Outside W} {key value type : Str}
    {before : StringMap} {data : Nat} (dataTypes : Nat) {state : St W}
    (live : state.maps.lookup data =
      some (StringMap.insert outside before key value)) :
    ((M.getMap dataTypes >>= fun types =>
        M.setMap dataTypes (StringMap.insert outside types key type))
      state).state.maps.lookup data =
      some (StringMap.insert outside before key value) := by
  by_cases same : dataTypes = data
  · subst same
    have present : key ∈ (StringMap.insert outside before key value).content := by
      apply AList.lookup_isSome.mp
      rw [StringMap.lookup_insert, if_pos rfl]
      cases before.content.lookup key <;> rfl
    have unchanged : StringMap.insert outside
        (StringMap.insert outside before key value) key type =
        StringMap.insert outside before key value := dif_pos present
    rw [Prog.bind_silent (getMap_eq live), unchanged]
    exact AList.lookup_insert _
  · cases found : state.maps.lookup dataTypes with
    | none =>
        have missing : M.getMap dataTypes state =
            ⟨state, [], .halt .fault⟩ := by
          simp only [M.getMap, Prog.act, found]
        rw [Prog.bind_halt missing]
        exact live
    | some types =>
        rw [Prog.bind_silent (getMap_eq found)]
        exact (AList.lookup_insert_ne (Ne.symm same)).trans live

/-- The type goes to another map; were it the same map, the key would be
there already. -/
theorem recordType_maps (interp : Interp W) (name : Str) {data : Nat}
    (operation : MapOperation) {before : StringMap} {state : St W}
    (live : state.maps.lookup data =
      some (operation.apply interp.outside before)) :
    (operation.recordType interp name state).state.maps.lookup data =
      some (operation.apply interp.outside before) := by
  cases operation with
  | unset key => exact live
  | fromJson members => exact live
  | set key type value =>
      cases typed : type.isEmpty with
      | true =>
          have untyped : (set key type value).recordType interp name =
              pure () := by
            simp only [recordType, Prog.when, typed]
            rfl
          rw [untyped]
          exact live
      | false =>
          have stores : (set key type value).recordType interp name =
              mapTypesPointer interp name >>= fun dataTypes =>
                M.getMap dataTypes >>= fun types =>
                  M.setMap dataTypes (types.insert interp.outside key type) := by
            simp only [recordType, Prog.when, typed]
            rfl
          have kept := mapTypesPointer_state interp name state
          rw [stores]
          cases found : mapTypesPointer interp name state with
          | mk middle out outcome =>
              rw [found] at kept
              obtain rfl : middle = state := kept
              cases outcome with
              | error exception =>
                  rw [Prog.bind_error found]
                  exact live
              | halt reason =>
                  rw [Prog.bind_halt found]
                  exact live
              | value dataTypes =>
                  rw [Prog.bind_eq found]
                  exact stored_type dataTypes live

/-- The map at hand after an operation. -/
theorem perform_maps (interp : Interp W) (name : Str) {data : Nat}
    (operation : MapOperation) {map : StringMap} {state : St W}
    (live : state.maps.lookup data = some map) :
    (operation.perform interp name data state).state.maps.lookup data =
      some (operation.apply interp.outside map) := by
  unfold perform
  rw [Prog.bind_silent (getMap_eq live)]
  apply recordType_maps
  exact AList.lookup_insert _

end MapOperation

/-- What has been done to the map at an address, the latest operation first,
each with the content of the map after it.  Anything may happen in between
that leaves this map alone, and a tag may perform other operations before its
own. -/
inductive MapHistory (interp : Interp W) (data : Nat) :
    List (MapOperation × Vars) → St W → Prop where
  | start {state : St W} {changes : List (Change Str)} :
      state.maps.lookup data = some ⟨∅, changes⟩ →
      MapHistory interp data [] state
  | idle {past : List (MapOperation × Vars)} {state later : St W} :
      MapHistory interp data past state →
      later.maps.lookup data = state.maps.lookup data →
      MapHistory interp data past later
  | next {past : List (MapOperation × Vars)} {kind : MapTag} {self : Loc}
      {caller : Option Loc} {before state final : St W} {written out name : Str}
      {operation : MapOperation} {outcome : Outcome Exc Unit}
      {map : StringMap} :
      MapHistory interp data past state →
      kind.asks interp self caller before =
        ⟨state, written, .value ⟨name, data, some operation⟩⟩ →
      kind.execute interp self caller before = ⟨final, out, outcome⟩ →
      final.maps.lookup data = some map →
      MapHistory interp data ((operation, map.content) :: past) final

namespace MapHistory

/-- The content of the map at the end of its history. -/
def current : List (MapOperation × Vars) → Vars
  | [] => ∅
  | (_, content) :: _ => content

variable {interp : Interp W} {data : Nat}

theorem live {past : List (MapOperation × Vars)} {state : St W}
    (history : MapHistory interp data past state) :
    ∃ map, state.maps.lookup data = some map ∧ map.content = current past := by
  induction history with
  | start empty => exact ⟨_, empty, rfl⟩
  | idle _ same induction =>
      rw [same]
      exact induction
  | next _ _ _ found _ => exact ⟨_, found, rfl⟩

/-- What the last operation of a history did. -/
theorem applied {past : List (MapOperation × Vars)} {kind : MapTag}
    {self : Loc} {caller : Option Loc} {before state final : St W}
    {written out name : Str} {operation : MapOperation}
    {outcome : Outcome Exc Unit} {map : StringMap}
    (history : MapHistory interp data past state)
    (asked : kind.asks interp self caller before =
      ⟨state, written, .value ⟨name, data, some operation⟩⟩)
    (ran : kind.execute interp self caller before = ⟨final, out, outcome⟩)
    (found : final.maps.lookup data = some map) :
    ∃ earlier : StringMap, earlier.content = current past ∧
      map = operation.apply interp.outside earlier := by
  obtain ⟨earlier, here, content⟩ := history.live
  refine ⟨earlier, content, ?_⟩
  rw [MapTag.execute_eq, Prog.bind_eq asked] at ran
  have performed := MapOperation.perform_maps interp name operation here
  have final : (operation.perform interp name data state).state = final :=
    congrArg Run.state ran
  rw [final, found] at performed
  exact Option.some.inj performed

end MapHistory

/-! ## The tags that read a map -/

inductive MapReader where
  | element | elements | values
  deriving DecidableEq

/-- What a tag wants to see of which map, and the beginning of the names of
its variables. -/
structure MapRequest where
  data : Nat
  stem : Str
  key : Str

namespace MapReader

variable (interp : Interp W) (self : Loc) (caller : Option Loc)

def execute : MapReader → M W Unit
  | .element => TagMapElement.execute interp self caller
  | .elements => TagMapElements.execute interp self caller
  | .values => TagMapValues.execute interp self caller

/-- Everything before the map is read. -/
def asks : MapReader → M W MapRequest
  | .element => do
      let name ← interp.getParameter self "name"
      let key ← interp.getParameter self "key"
      let data ← mapPointer interp name
      pure ⟨data, name, key⟩
  | .elements => do
      let name ← interp.getParameter self "name"
      let data ← mapPointer interp name
      pure ⟨data, name, []⟩
  | .values => do
      let name ← interp.getParameter self "name"
      let parameter ← interp.getParameter self "prefix"
      let data ← mapPointer interp name
      pure ⟨data, if parameter.isEmpty then name else parameter, []⟩

/-- The variables a tag binds for its body, once for every time it runs the
body: `map-elements` runs it for each entry, the others run it once. -/
def rounds (request : MapRequest) (content : Vars) :
    MapReader → List (List (Str × Str))
  | .element =>
      [((content.lookup request.key).map fun value =>
        (request.stem ++ '_' :: request.key, value)).toList]
  | .elements =>
      content.entries.map fun entry =>
        [(request.stem ++ "_key".toList, entry.1),
          (request.stem ++ "_value".toList, entry.2)]
  | .values =>
      [content.entries.map fun entry =>
        (request.stem ++ '_' :: entry.1, entry.2)]

/-- The children and the text of the tag in a new layer with variables. -/
def round (bindings : List (Str × Str)) : M W Unit :=
  M.withLayer do
    Prog.forEach (fun binding =>
        M.addValue interp.dcl binding.1 binding.2) bindings
    Prog.forEach (fun tag => interp.run (self.child tag) caller)
      self.tag.childs
    Prog.emit self.tag.text

/-- The body of the tag leaves the map alone. -/
def Still (data : Nat) : Prop :=
  ∀ state, (interp.executeChilds self caller state).state.maps.lookup data =
    state.maps.lookup data

theorem bind_eq_forEach (name : Str) (found : Option Str) :
    TagMapElement.bind interp name found =
      Prog.forEach (fun binding : Str × Str =>
          M.addValue interp.dcl binding.1 binding.2)
        (found.map fun value => (name, value)).toList := by
  cases found with
  | none => rfl
  | some value =>
      exact (Prog.forEach_singleton (fun binding : Str × Str =>
        M.addValue interp.dcl binding.1 binding.2) (name, value)).symm

/-- A round of `map-elements`. -/
def presentOne (stem : Str) (entry : Str × Str) : M W Unit :=
  M.withLayer do
    M.addValue interp.dcl (stem ++ "_key".toList) entry.1
    M.addValue interp.dcl (stem ++ "_value".toList) entry.2
    interp.executeChilds self caller

theorem presentOne_eq (stem : Str) (entry : Str × Str) :
    presentOne interp self caller stem entry =
      round interp self caller
        [(stem ++ "_key".toList, entry.1),
          (stem ++ "_value".toList, entry.2)] := by
  simp only [presentOne, round, Prog.forEach, Prog.bind_assoc,
    Interp.executeChilds]
  rfl

theorem forEach_rounds (request : MapRequest) (content : Vars) :
    Prog.forEach (round interp self caller)
        (MapReader.elements.rounds request content) =
      Prog.forEach (presentOne interp self caller request.stem)
        (content.entries.map fun entry => (entry.1, entry.2)) := by
  rw [rounds, Prog.forEach_map, Prog.forEach_map]
  simp only [presentOne_eq]

variable {interp self caller}

/-- The map is still there when the layer has been entered. -/
theorem withLayer_getMap {data : Nat} {map : StringMap} {state : St W}
    (live : state.maps.lookup data = some map)
    (body : StringMap → M W Unit) :
    M.withLayer (M.getMap data >>= body) state =
      M.withLayer (body map) state := by
  have entered : M.enter state = ⟨state.withLayer ∅, [], .value ()⟩ := rfl
  have there : (state.withLayer ∅).maps.lookup data = some map := live
  have same : (M.getMap data >>= body) (state.withLayer ∅) =
      Prog.behind [] (body map (state.withLayer ∅)) :=
    Prog.bind_silent (MapOperation.getMap_eq there) body
  unfold M.withLayer
  rw [Prog.bind_silent entered, Prog.bind_silent entered]
  exact Prog.bind_behind (Prog.onError_behind same M.leave) _

theorem presentOne_maps {data : Nat} (still : Still interp self caller data)
    (stem : Str) (entry : Str × Str) (state : St W) :
    (presentOne interp self caller stem entry state).state.maps.lookup data =
      state.maps.lookup data := by
  let contract : Contract (St W) :=
    .viewing fun state => state.maps.lookup data
  have added (name value : Str) :
      Keeps contract (M.addValue interp.dcl name value) := by
    apply Keeps.act
    intro state
    cases Chain.addValue interp.dcl name value [] state.contexts <;> rfl
  have leaves : Keeps contract (M.leave : M W Unit) := by
    apply Keeps.act
    intro state
    split
    · rfl
    · split <;> rfl
  have whole : Keeps contract (presentOne interp self caller stem entry) := by
    apply Keeps.bind
    · exact Keeps.modify fun _ => rfl
    · intro _
      apply Keeps.bind (Keeps.onError _ leaves)
      · intro result
        exact Keeps.bind leaves fun _ => Keeps.pure result
      · apply Keeps.bind (added _ _)
        intro _
        apply Keeps.bind (added _ _)
        intro _
        exact Keeps.viewing_iff.mpr still
  exact Keeps.viewing_iff.mp whole state

/-- The entry after a key, where every key stands once. -/
theorem entryAfter_append {before rest : List (Sigma fun _ : Str => Str)}
    {entry : Sigma fun _ : Str => Str}
    (nodup : (before ++ entry :: rest).NodupKeys) :
    entryAfter entry.1 (before ++ entry :: rest) =
      rest.head?.map fun next => (next.1, next.2) := by
  induction before with
  | nil =>
      rw [List.nil_append, entryAfter, if_pos rfl]
  | cons first before induction =>
      obtain ⟨fresh, nodup⟩ := List.nodupKeys_cons.mp nodup
      have different : first.1 ≠ entry.1 := by
        intro same
        apply fresh
        rw [same]
        apply List.mem_keys_of_mem (s := entry)
        simp
      rw [List.cons_append, entryAfter, if_neg different]
      exact induction nodup

theorem presentOne_changes {map : StringMap} :
    map.changesSince map = [] := by
  unfold Container.changesSince
  rw [Nat.sub_self, List.take_zero]

/-- The loop of `map-elements` over a map that does not change. -/
theorem loop_eq {data : Nat} (still : Still interp self caller data)
    (stem : Str) {map : StringMap}
    {before rest : List (Sigma fun _ : Str => Str)}
    (parts : map.content.entries = before ++ rest) {budget : Nat}
    (enough : rest.length < budget) {state : St W}
    (live : state.maps.lookup data = some map) :
    TagMapElements.loop interp self caller stem data budget
        (rest.head?.map fun entry => (entry.1, entry.2)) state =
      Prog.forEach (presentOne interp self caller stem)
        (rest.map fun entry => (entry.1, entry.2)) state := by
  induction rest generalizing before budget state with
  | nil =>
      obtain ⟨budget, rfl⟩ := Nat.exists_eq_add_of_lt enough
      rfl
  | cons entry rest induction =>
      obtain ⟨budget, rfl⟩ := Nat.exists_eq_succ_of_ne_zero
        (Nat.ne_of_gt (Nat.lt_of_le_of_lt (Nat.zero_le _) enough))
      have kept := presentOne_maps still stem (entry.1, entry.2) state
      have following : entryAfter entry.1 map.content.entries =
          rest.head?.map fun next => (next.1, next.2) := by
        have nodup := map.content.nodupKeys
        rw [parts] at nodup ⊢
        exact entryAfter_append nodup
      have step : TagMapElements.loop interp self caller stem data (budget + 1)
          (some (entry.1, entry.2)) state =
          (presentOne interp self caller stem (entry.1, entry.2) >>= fun _ =>
            M.getMap data >>= fun after =>
              if (after.changesSince map).all
                  (StringMap.keepsPosition entry.1) then
                TagMapElements.loop interp self caller stem data budget
                  (entryAfter entry.1 after.content.entries)
              else Prog.halt .fault) state :=
        Prog.bind_silent (MapOperation.getMap_eq live) _
      rw [List.head?_cons, Option.map_some, step, List.map_cons, Prog.forEach]
      cases ran : presentOne interp self caller stem (entry.1, entry.2) state
        with
      | mk middle out outcome =>
          rw [ran] at kept
          have there : middle.maps.lookup data = some map := kept.trans live
          cases outcome with
          | error exception =>
              rw [Prog.bind_error ran, Prog.bind_error ran]
          | halt reason =>
              rw [Prog.bind_halt ran, Prog.bind_halt ran]
          | value result =>
              have again : map.content.entries = before ++ [entry] ++ rest := by
                simpa using parts
              have later := induction again (Nat.lt_of_succ_lt_succ enough)
                there
              rw [Prog.bind_eq ran, Prog.bind_eq ran,
                Prog.bind_silent (MapOperation.getMap_eq there),
                presentOne_changes, List.all_nil, if_pos rfl, following, later]

/-- A tag that reads a map runs its body in the layers of its rounds. -/
theorem execute_eq (reader : MapReader) {request : MapRequest}
    {map : StringMap} {before state : St W} {written : Str}
    (asked : reader.asks interp self before =
      ⟨state, written, .value request⟩)
    (live : state.maps.lookup request.data = some map)
    (quiet : reader = .elements → Still interp self caller request.data ∧
      map.content.entries.length < interp.budget) :
    reader.execute interp self caller before =
      Prog.behind written (Prog.forEach (round interp self caller)
        (reader.rounds request map.content) state) := by
  cases reader with
  | element =>
      have whole : element.execute interp self caller =
          element.asks interp self >>= fun request =>
            M.withLayer (M.getMap request.data >>= fun map => do
              TagMapElement.bind interp (request.stem ++ '_' :: request.key)
                (map.content.lookup request.key)
              interp.executeChilds self caller) := by
        simp only [asks, Prog.bind_assoc, Prog.pure_bind]
        rfl
      rw [whole, Prog.bind_eq asked, withLayer_getMap live, bind_eq_forEach,
        rounds, Prog.forEach_singleton]
      rfl
  | values =>
      have whole : values.execute interp self caller =
          values.asks interp self >>= fun request =>
            M.withLayer (M.getMap request.data >>= fun map => do
              Prog.forEach (fun entry =>
                  M.addValue interp.dcl (request.stem ++ '_' :: entry.1)
                    entry.2)
                map.content.entries
              interp.executeChilds self caller) := by
        simp only [asks, Prog.bind_assoc, Prog.pure_bind]
        rfl
      rw [whole, Prog.bind_eq asked, withLayer_getMap live, rounds,
        Prog.forEach_singleton]
      simp only [round, Prog.forEach_map]
      rfl
  | elements =>
      obtain ⟨still, enough⟩ := quiet rfl
      have whole : elements.execute interp self caller =
          elements.asks interp self >>= fun request =>
            M.getMap request.data >>= fun map =>
              TagMapElements.loop interp self caller request.stem request.data
                interp.budget (map.content.entries.head?.map fun entry =>
                  (entry.1, entry.2)) := by
        simp only [asks, Prog.bind_assoc, Prog.pure_bind]
        rfl
      have loop := loop_eq still request.stem
        (List.nil_append map.content.entries).symm enough live
      rw [whole, Prog.bind_eq asked,
        Prog.bind_silent (MapOperation.getMap_eq live), loop, forEach_rounds]
      rfl

/-- The contexts in which the body runs. -/
def bound (bindings : List (Str × Str)) (contexts : List Context) :
    List Context :=
  contexts.modifyHead fun context => context.enter.addValues bindings

/-- What the body reads: the variables of its layer, or else what is read
outside of the tag. -/
theorem lookup_bound (name : Str) (bindings : List (Str × Str))
    {contexts : List Context} (chain : contexts ≠ []) :
    Chain.lookup name (bound bindings contexts) =
      (lastBinding (upName name) bindings).or
        (Chain.lookup name contexts) := by
  cases contexts with
  | nil => exact absurd rfl chain
  | cons context parents =>
      have layered : context.enter.stack ≠ [] := List.cons_ne_nil _ _
      simp only [bound, List.modifyHead_cons, Chain.lookup]
      rw [findVar_addValues _ _ layered]
      cases lastBinding (upName name) bindings with
      | some value => rfl
      | none => rfl

theorem forEach_addValue (dcl : Dcl) (bindings : List (Str × Str))
    {context : Context} {parents : List Context} {state : St W}
    (chain : state.contexts = context :: parents)
    (layered : context.stack ≠ []) :
    Prog.forEach (fun binding => M.addValue dcl binding.1 binding.2) bindings
        state =
      ⟨{ state with contexts := context.addValues bindings :: parents }, [],
        .value ()⟩ := by
  induction bindings generalizing context state with
  | nil =>
      change (⟨state, [], .value ()⟩ : Run (St W) Exc Char Unit) =
        ⟨{ state with contexts := context :: parents }, [], .value ()⟩
      rw [← chain]
  | cons binding bindings induction =>
      have added : M.addValue dcl binding.1 binding.2 state =
          ⟨{ state with contexts :=
            context.addValue binding.1 binding.2 :: parents }, [],
            .value ()⟩ := by
        have untyped := Chain.addValue_untyped dcl binding.1 binding.2 context
          parents layered
        simp only [M.addValue, M.addTyped, Prog.act, chain, untyped]
      rw [Prog.forEach, Prog.bind_silent added]
      exact induction rfl (Context.addValue_layered _ _ layered)

/-- The layer of a round holds its variables. -/
theorem enter_bindings (dcl : Dcl) (bindings : List (Str × Str))
    {state : St W} (chain : state.contexts ≠ []) :
    (M.enter >>= fun _ => Prog.forEach (fun binding =>
        M.addValue dcl binding.1 binding.2) bindings) state =
      ⟨{ state with contexts := bound bindings state.contexts }, [],
        .value ()⟩ := by
  obtain ⟨context, parents, whole⟩ := List.exists_cons_of_ne_nil chain
  have entered : (M.enter : M W Unit) state =
      ⟨{ state with contexts := context.enter :: parents }, [],
        .value ()⟩ := by
    simp [M.enter, Prog.modify, St.mapHead, whole]
  rw [Prog.bind_silent entered]
  have added := forEach_addValue dcl bindings
    (rfl : ({ state with contexts := context.enter :: parents } : St W).contexts
      = context.enter :: parents) (List.cons_ne_nil _ _)
  rw [added, whole]
  rfl

/-- The tag exposes the finite map: `map-element` and `map-values` bind for
each key they look for its value, and nothing to a key without a value;
`map-elements` runs its body once for each entry, with the key and the
value. -/
def Agrees (request : MapRequest) (keys : List Str) (content : Vars)
    (expected : Str → Option Str) (contexts : List Context) :
    MapReader → Prop
  | .element =>
      ∃ bindings, MapReader.element.rounds request content = [bindings] ∧
        Chain.lookup (request.stem ++ '_' :: request.key)
            (bound bindings contexts) =
          (expected request.key).or
            (Chain.lookup (request.stem ++ '_' :: request.key) contexts)
  | .values =>
      ∃ bindings, MapReader.values.rounds request content = [bindings] ∧
        ∀ key ∈ keys,
          Chain.lookup (request.stem ++ '_' :: key)
              (bound bindings contexts) =
            (expected key).or
              (Chain.lookup (request.stem ++ '_' :: key) contexts)
  | .elements =>
      let seen := (MapReader.elements.rounds request content).map
        fun bindings =>
          (Chain.getValue (request.stem ++ "_key".toList)
              (bound bindings contexts),
            Chain.getValue (request.stem ++ "_value".toList)
              (bound bindings contexts))
      (seen.map Prod.fst).Nodup ∧
        ∀ key value, (key, value) ∈ seen ↔ expected key = some value

theorem mem_entries {content : Vars} {key value : Str} :
    (key, value) ∈ content.entries.map (fun entry => (entry.1, entry.2)) ↔
      content.lookup key = some value := by
  rw [← Option.mem_def, AList.mem_lookup_iff, List.mem_map]
  constructor
  · rintro ⟨entry, member, same⟩
    cases same
    exact member
  · intro member
    exact ⟨_, member, rfl⟩

/-- The rounds of `map-elements` show the entries. -/
theorem seen_eq (request : MapRequest) (content : Vars)
    {contexts : List Context} (chain : contexts ≠ []) :
    ((MapReader.elements.rounds request content).map fun bindings =>
        (Chain.getValue (request.stem ++ "_key".toList)
            (bound bindings contexts),
          Chain.getValue (request.stem ++ "_value".toList)
            (bound bindings contexts))) =
      content.entries.map fun entry => (entry.1, entry.2) := by
  rw [rounds, List.map_map]
  apply List.map_congr_left
  intro entry _
  simp [Chain.getValue, lookup_bound _ _ chain, lastBinding, upName]

theorem lastBinding_element (name : Str) (found : Option Str) :
    lastBinding (upName name)
      (found.map fun value => (name, value)).toList = found := by
  cases found with
  | none => rfl
  | some value => simp [lastBinding]

/-- What `map-values` binds under the name of a key: the value of a key that
differs in case at most, if there is one. -/
theorem lastBinding_values (stem : Str) (content : Vars) (key : Str) :
    (∃ other value, upName other = upName key ∧
        content.lookup other = some value ∧
        lastBinding (upName (stem ++ '_' :: key))
          (content.entries.map fun entry =>
            (stem ++ '_' :: entry.1, entry.2)) = some value) ∨
      (∀ other, upName other = upName key → content.lookup other = none) ∧
        lastBinding (upName (stem ++ '_' :: key))
          (content.entries.map fun entry =>
            (stem ++ '_' :: entry.1, entry.2)) = none := by
  cases found : lastBinding (upName (stem ++ '_' :: key))
      (content.entries.map fun entry => (stem ++ '_' :: entry.1, entry.2)) with
  | some value =>
      left
      obtain ⟨name, member, named⟩ := mem_of_lastBinding found
      obtain ⟨entry, inside, same⟩ := List.mem_map.mp member
      cases same
      refine ⟨entry.1, entry.2, ?_, ?_, rfl⟩
      · simpa using named
      · exact mem_entries.mp (List.mem_map.mpr ⟨entry, inside, rfl⟩)
  | none =>
      right
      refine ⟨?_, rfl⟩
      intro other same
      cases here : content.lookup other with
      | none => rfl
      | some value =>
          obtain ⟨entry, inside, its⟩ := List.mem_map.mp (mem_entries.mpr here)
          have bound := lastBinding_eq_none.mp found
            (stem ++ '_' :: entry.1, entry.2) (List.mem_map_of_mem inside)
          cases its
          exact absurd (by simpa using same) bound

/-- All tags expose the finite map, wherever they stand and whatever they ask
for, exactly when the container holds it and no two keys compete for a
variable. -/
theorem agrees_iff (content : Vars) (operations : List MapOperation) :
    (∀ (reader : MapReader) (request : MapRequest) (contexts : List Context),
        contexts ≠ [] →
        reader.Agrees request (operations.flatMap MapOperation.keys) content
          (MapOperation.reference operations) contexts) ↔
      (∀ key, content.lookup key = MapOperation.reference operations key) ∧
        MapOperation.CasesAgree operations := by
  have empty (name : Str) : Chain.lookup name [Context.newLocal] = none := rfl
  constructor
  · intro agrees
    constructor
    · intro key
      obtain ⟨bindings, whole, read⟩ := agrees .element ⟨0, [], key⟩
        [Context.newLocal] (List.cons_ne_nil _ _)
      cases whole
      rw [lookup_bound _ _ (List.cons_ne_nil _ _), lastBinding_element, empty,
        Option.or_none, Option.or_none] at read
      exact read
    · intro first mentioned second also same
      obtain ⟨bindings, -, read⟩ := agrees .values ⟨0, [], []⟩
        [Context.newLocal] (List.cons_ne_nil _ _)
      have one := read first mentioned
      have two := read second also
      rw [empty, Option.or_none] at one two
      have names : upName ([] ++ '_' :: first) =
          upName ([] ++ '_' :: second) := by
        simp [same]
      rw [← one, ← two, Chain.lookup_congr names]
  · rintro ⟨same, agree⟩ reader request contexts chain
    cases reader with
    | element =>
        refine ⟨_, rfl, ?_⟩
        rw [lookup_bound _ _ chain, lastBinding_element, same]
    | values =>
        refine ⟨_, rfl, ?_⟩
        intro key mentioned
        rw [lookup_bound _ _ chain]
        rcases lastBinding_values request.stem content key with
          ⟨other, value, upper, found, bound⟩ | ⟨missing, bound⟩
        · rw [same] at found
          rw [bound, ← agree other (MapOperation.mem_keys_of_reference found)
            key mentioned upper, found]
        · have none := missing key rfl
          rw [same] at none
          rw [bound, none]
    | elements =>
        unfold Agrees
        rw [seen_eq request content chain]
        refine ⟨?_, fun key value => ?_⟩
        · rw [List.map_map]
          exact content.nodupKeys
        · rw [mem_entries, same key]

end MapReader

namespace MapHistory

/-- The container agrees with the finite map after every operation. -/
def AgreesThroughout (past : List (MapOperation × Vars)) : Prop :=
  ∀ operation content earlier, (operation, content) :: earlier <:+ past →
    ∀ key, content.lookup key =
      MapOperation.reference (operation :: earlier.map Prod.fst) key

theorem AgreesThroughout.current {past : List (MapOperation × Vars)}
    (agrees : AgreesThroughout past) (key : Str) :
    (MapHistory.current past).lookup key =
      MapOperation.reference (past.map Prod.fst) key := by
  cases past with
  | nil => rfl
  | cons last past => exact agrees _ _ _ List.suffix_rfl key

theorem AgreesThroughout.tail {past : List (MapOperation × Vars)}
    {last : MapOperation × Vars} (agrees : AgreesThroughout (last :: past)) :
    AgreesThroughout past := by
  intro operation content earlier suffix
  exact agrees operation content earlier
    (suffix.trans (List.suffix_cons last past))

end MapHistory

/-- After every operation of a history the container agrees with the finite
map, exactly when no operation gives a key another value than the one it
has. -/
theorem MapHistory.agrees_iff {interp : Interp W} {data : Nat}
    {past : List (MapOperation × Vars)} {state : St W}
    (history : MapHistory interp data past state) :
    AgreesThroughout past ↔
      MapOperation.NeverReplaces (past.map Prod.fst) := by
  induction history with
  | start empty =>
      constructor
      · intro _ operation earlier suffix
        cases List.suffix_nil.mp suffix
      · intro _ operation content earlier suffix
        cases List.suffix_nil.mp suffix
  | idle _ _ induction => exact induction
  | @next past _ _ _ _ _ _ _ _ _ operation _ map history asked ran found
      induction =>
      obtain ⟨before, content, rfl⟩ := history.applied asked ran found
      -- The container agrees before the last operation in both directions.
      have step (agrees : AgreesThroughout past) :
          (∀ key, (operation.apply interp.outside before).content.lookup key =
            MapOperation.reference (operation :: past.map Prod.fst) key) ↔
          operation.Keeps (MapOperation.reference (past.map Prod.fst)) := by
        apply MapOperation.lookup_apply
        rw [content]
        exact agrees.current
      constructor
      · intro agrees
        have earlier : AgreesThroughout past := agrees.tail
        intro last rest suffix
        rcases List.suffix_cons_iff.mp suffix with same | inside
        · cases same
          apply (step earlier).mp
          exact agrees _ _ _ List.suffix_rfl
        · exact induction.mp earlier last rest inside
      · intro never
        have earlier := induction.mpr fun last rest inside =>
          never last rest (List.suffix_cons_iff.mpr (.inr inside))
        intro last found rest suffix
        rcases List.suffix_cons_iff.mp suffix with same | inside
        · cases same
          exact (step earlier).mpr (never _ _ List.suffix_rfl)
        · exact earlier last found rest inside

/-- The tags that read a map run their body in layers with the variables of
the map, and what the body reads there is the finite map in which the latest
value of a key counts, after every operation of every sequence, exactly when
no `map-set` gives a key that is there another value and keys that differ in
case only have the same value at any time. -/
theorem map_tags_finite_map (interp : Interp W) (data : Nat)
    (past : List (MapOperation × Vars)) (state : St W)
    (history : MapHistory interp data past state) :
    (∀ (reader : MapReader) (self : Loc) (caller : Option Loc)
        (request : MapRequest) (before : St W) (written : Str),
      request.data = data →
      reader.asks interp self before = ⟨state, written, .value request⟩ →
      (reader = .elements → MapReader.Still interp self caller data ∧
        (MapHistory.current past).entries.length < interp.budget) →
      reader.execute interp self caller before =
        Prog.behind written (Prog.forEach
          (MapReader.round interp self caller)
          (reader.rounds request (MapHistory.current past)) state)) ∧
    (∀ (bindings : List (Str × Str)) (state : St W), state.contexts ≠ [] →
      (M.enter >>= fun _ => Prog.forEach (fun binding =>
          M.addValue interp.dcl binding.1 binding.2) bindings) state =
        ⟨{ state with contexts := MapReader.bound bindings state.contexts },
          [], .value ()⟩) ∧
    ((∀ operation content earlier, (operation, content) :: earlier <:+ past →
      ∀ (reader : MapReader) (request : MapRequest) (contexts : List Context),
        contexts ≠ [] →
        reader.Agrees request
          ((operation :: earlier.map Prod.fst).flatMap MapOperation.keys)
          content
          (MapOperation.reference (operation :: earlier.map Prod.fst))
          contexts) ↔
      MapOperation.NeverReplaces (past.map Prod.fst) ∧
        ∀ operation earlier, operation :: earlier <:+ past.map Prod.fst →
          MapOperation.CasesAgree (operation :: earlier)) := by
  obtain ⟨map, live, content⟩ := history.live
  refine ⟨?_, ?_, ?_⟩
  · rintro reader self caller request before written rfl asked quiet
    rw [← content] at quiet ⊢
    exact reader.execute_eq asked live quiet
  · intro bindings state chain
    exact MapReader.enter_bindings interp.dcl bindings chain
  · rw [← history.agrees_iff]
    simp only [MapReader.agrees_iff]
    constructor
    · intro agrees
      constructor
      · intro operation content earlier suffix
        exact (agrees operation content earlier suffix).1
      · intro operation earlier suffix
        obtain ⟨before, whole⟩ := suffix
        obtain ⟨first, rest, rfl, -, mapped⟩ :=
          List.map_eq_append_iff.mp whole.symm
        obtain ⟨last, others, rfl, rfl, rfl⟩ := List.map_eq_cons_iff.mp mapped
        exact (agrees last.1 last.2 others (List.suffix_append _ _)).2
    · rintro ⟨agrees, cases⟩ operation content earlier suffix
      refine ⟨agrees operation content earlier suffix, ?_⟩
      exact cases operation _ (List.IsSuffix.map Prod.fst suffix)

/-- A tag that gives a key of the map a value. -/
def mapSetTag (key value : String) : Tag :=
  .mk 2 .mapSet
    [("name".toList, "m".toList), ("key".toList, key.toList),
      ("value".toList, value.toList)] [] []

def mapInterp : Interp Unit :=
  Interp.ofRun (Outside.closed Unit) 6 (execute (Outside.closed Unit) 6)

/-- A state inside of a `dbp:map` with the name `m`. -/
def mapState (map : StringMap) : St Unit :=
  { contexts := [{ Context.newLocal with
      stack := [(∅ : Vars).insert (upName (mapHandle "m".toList))
        "7".toList] }]
    vectors := ∅
    maps := (∅ : AList fun _ : Nat => StringMap).insert 7 map
    nextAddr := 8
    world := ()
    trace := [] }

/-- The map after a first and a second `map-set`. -/
def mapOnce : StringMap :=
  StringMap.insert (Outside.closed Unit) ⟨∅, []⟩ "k".toList "a".toList

def mapTwice : StringMap :=
  StringMap.insert (Outside.closed Unit) mapOnce "j".toList "b".toList

/-- One `map-set` on a map in a given state. -/
theorem mapSet_next {past : List (MapOperation × Vars)} {map : StringMap}
    (history : MapHistory mapInterp 7 past (mapState map))
    (key value : String)
    (asked : MapTag.set.asks mapInterp ⟨mapSetTag key value, []⟩ none
        (mapState map) =
      ⟨mapState map, [], .value ⟨"m".toList, 7,
        some (.set key.toList [] value.toList)⟩⟩)
    {after : StringMap}
    (ran : MapTag.set.execute mapInterp ⟨mapSetTag key value, []⟩ none
        (mapState map) = ⟨mapState after, [], .value ()⟩) :
    MapHistory mapInterp 7
      ((.set key.toList [] value.toList, after.content) :: past)
      (mapState after) :=
  .next history asked ran (AList.lookup_insert _)

/-- Two keys with a value each. -/
theorem map_tags_finite_map_twice :
    MapReader.values.Agrees ⟨7, "m".toList, []⟩
      ["j".toList, "k".toList] mapTwice.content
      (MapOperation.reference
        [.set "j".toList [] "b".toList, .set "k".toList [] "a".toList])
      (mapState mapTwice).contexts := by
  have once : MapHistory mapInterp 7 _ (mapState mapOnce) :=
    @mapSet_next [] ⟨∅, []⟩ (.start rfl) "k" "a" rfl mapOnce rfl
  have twice : MapHistory mapInterp 7 _ (mapState mapTwice) :=
    mapSet_next once "j" "b" rfl rfl
  have never : MapOperation.NeverReplaces
      [.set "j".toList [] "b".toList, .set "k".toList [] "a".toList] := by
    intro operation earlier suffix
    rcases List.suffix_cons_iff.mp suffix with same | inside
    · cases same
      intro old found
      cases found
    · rcases List.suffix_cons_iff.mp inside with same | inside
      · cases same
        intro old found
        cases found
      · cases List.suffix_nil.mp inside
  have agree : ∀ operation earlier, operation :: earlier <:+
      [.set "j".toList [] "b".toList, .set "k".toList [] "a".toList] →
        MapOperation.CasesAgree (operation :: earlier) := by
    intro operation earlier suffix
    unfold MapOperation.CasesAgree
    rcases List.suffix_cons_iff.mp suffix with same | inside
    · cases same
      decide
    · rcases List.suffix_cons_iff.mp inside with same | inside
      · cases same
        decide
      · cases List.suffix_nil.mp inside
  exact (map_tags_finite_map mapInterp 7 _ _ twice).2.2.mpr ⟨never, agree⟩
    _ _ _ List.suffix_rfl .values _ _ (List.cons_ne_nil _ _)

/-- A second `map-set` of a key does not change its value. -/
theorem second_value_lost :
    (execute (Outside.closed Unit) 6
      ⟨.mk 1 .map [("name".toList, "m".toList)]
        [mapSetTag "k" "a", mapSetTag "k" "b",
          .mk 4 .mapElement
            [("name".toList, "m".toList), ("key".toList, "k".toList)]
            [.mk 5 .expression [] [] "\x7b$m_k\x7d".toList] []] [], []⟩ none
      (St.fresh [Context.newLocal])).out = "a".toList := by
  rfl

end DbPager
