import DbPager.Maps

/-!
# The types of the values of a map

`map-set` records the type of a value in a second table, from which nothing is
ever removed.  `map-to-json` looks the types up by key.  The type of a key in
the output is compared with the one the latest `map-set` has asked for.
-/

namespace DbPager

open Effect

variable {W : Type}

/-- The JSON types `map-to-json` tells apart; any other text is a string. -/
inductive JsonKind where
  | integer | number | boolean | object | string
  deriving DecidableEq

def JsonKind.ofText (type : Str) : JsonKind :=
  if type = "integer".toList then .integer
  else if type = "number".toList then .number
  else if type = "boolean".toList then .boolean
  else if type = "object".toList then .object
  else .string

namespace TagMapToJson

section Writing

variable (interp : Interp W)

/-- A text as a JSON value of the given type. -/
def typed (kind : JsonKind) (text : Str) : M W Json :=
  let json := interp.outside.json
  match kind with
  | .integer => Prog.orThrow ⟨.std, "stoi".toList, 0⟩ (json.ofInteger text)
  | .number => Prog.orThrow ⟨.std, "stod".toList, 0⟩ (json.ofNumber text)
  | .boolean => pure (json.ofBoolean (text == "true".toList))
  | .object =>
      Prog.orThrow
        (interp.dcl.exception "invalid JSON structure '\x7b0\x7d'" [text])
        (json.parse text)
  | .string => pure (json.ofString text)

/-- The members of the document, each with the type of its key. -/
def typedMembers (kindAt : Str → JsonKind) :
    List (Sigma fun _ : Str => Str) → List (Str × Json) →
      M W (List (Str × Json))
  | [], written => pure written
  | entry :: entries, written => do
      let value ← typed interp (kindAt entry.1) entry.2
      typedMembers kindAt entries (Json.setMember entry.1 value written)

/-- The document of a map whose keys have the given types. -/
def document (content : Vars) (kindAt : Str → JsonKind) : M W Unit := do
  let members ← typedMembers interp kindAt content.entries []
  Prog.emit (interp.outside.json.write
    (if members.isEmpty then .null else .object members))

/-- The type the second table has for a key. -/
def recorded (types : Vars) (key : Str) : JsonKind :=
  .ofText ((types.lookup key).getD [])

theorem value_typed (type : Option Str) (text : Str) :
    value interp type text = typed interp (.ofText (type.getD [])) text := by
  cases type with
  | none => rfl
  | some type =>
      unfold value JsonKind.ofText
      simp only [Option.some.injEq, Option.getD_some]
      by_cases integer : type = "integer".toList
      · simp only [if_pos integer, typed]
      · by_cases number : type = "number".toList
        · simp only [if_neg integer, if_pos number, typed]
        · by_cases boolean : type = "boolean".toList
          · simp only [if_neg integer, if_neg number, if_pos boolean, typed]
          · by_cases object : type = "object".toList
            · simp only [if_neg integer, if_neg number, if_neg boolean,
                if_pos object, typed]
            · simp only [if_neg integer, if_neg number, if_neg boolean,
                if_neg object, typed]

theorem members_typed (types : Vars)
    (entries : List (Sigma fun _ : Str => Str)) (written : List (Str × Json)) :
    members interp types entries written =
      typedMembers interp (recorded types) entries written := by
  induction entries generalizing written with
  | nil => rfl
  | cons entry entries induction =>
      unfold members typedMembers
      rw [value_typed]
      apply congrArg
      funext value
      exact induction _

/-- The tag without its parameters. -/
def writing (data dataTypes : Nat) : M W Unit := do
  let map ← M.getMap data
  let types ← types dataTypes map
  let members ← members interp types map.content.entries []
  Prog.emit (interp.outside.json.write
    (if members.isEmpty then .null else .object members))

/-- The addresses of the map and of its types. -/
def addresses (self : Loc) : M W (Nat × Nat) := do
  let name ← interp.getParameter self "name"
  let data ← mapPointer interp name
  let dataTypes ← mapTypesPointer interp name
  pure (data, dataTypes)

theorem execute_writing (self : Loc) :
    execute interp self =
      addresses interp self >>= fun found =>
        writing interp found.1 found.2 := by
  unfold execute addresses
  simp only [Prog.bind_assoc, Prog.pure_bind]
  rfl

/-- Every key is written with the type the second table has for it. -/
theorem writing_document {data dataTypes : Nat} {state : St W}
    {map types : StringMap} (live : state.maps.lookup data = some map)
    (typesLive : state.maps.lookup dataTypes = some types) :
    writing interp data dataTypes state =
      document interp map.content (recorded types.content) state := by
  unfold writing
  rw [Prog.bind_silent (MapOperation.getMap_eq live)]
  unfold TagMapToJson.types
  split
  · rename_i empty
    have none : map.content.entries = [] := List.isEmpty_iff.mp empty
    unfold document
    rw [none]
    rfl
  · have looked : ((do pure (← M.getMap dataTypes).content : M W Vars)) state =
        ⟨state, [], .value types.content⟩ :=
      Prog.bind_silent (MapOperation.getMap_eq typesLive) _
    rw [Prog.bind_silent looked, members_typed]
    rfl

end Writing

end TagMapToJson

/-! ## The types along a history -/

namespace MapOperation

/-- The type the latest operation on a key asks for; without one it is a
string. -/
def askedType : List MapOperation → Str → Str
  | [], _ => []
  | .set written type _ :: earlier, key =>
      if key = written then type else askedType earlier key
  | .unset removed :: earlier, key =>
      if key = removed then [] else askedType earlier key
  | .fromJson _ :: _, _ => []

/-- The first type any `map-set` has ever given for a key. -/
def firstType : List MapOperation → Str → Option Str
  | [], _ => none
  | .set written type _ :: earlier, key =>
      (firstType earlier key).or
        (if key = written ∧ type ≠ [] then some type else none)
  | _ :: earlier, key => firstType earlier key

end MapOperation

/-- The operations that have been done on one `dbp:map`, the latest first: the
map and the table of its types are at the two addresses.  Anything may happen
in between that leaves the two alone. -/
inductive TypedHistory (interp : Interp W) (data dataTypes : Nat) :
    List MapOperation → St W → Prop where
  | start {state : St W} {changes typeChanges : List (Change Str)} :
      data ≠ dataTypes →
      state.maps.lookup data = some ⟨∅, changes⟩ →
      state.maps.lookup dataTypes = some ⟨∅, typeChanges⟩ →
      TypedHistory interp data dataTypes [] state
  | idle {past : List MapOperation} {state later : St W} :
      TypedHistory interp data dataTypes past state →
      later.maps.lookup data = state.maps.lookup data →
      later.maps.lookup dataTypes = state.maps.lookup dataTypes →
      TypedHistory interp data dataTypes past later
  | next {past : List MapOperation} {kind : MapTag} {self : Loc}
      {caller : Option Loc} {before state final : St W}
      {written out name : Str} {operation : MapOperation}
      {outcome : Outcome Exc Unit} :
      TypedHistory interp data dataTypes past state →
      kind.asks interp self caller before =
        ⟨state, written, .value ⟨name, data, some operation⟩⟩ →
      mapTypesPointer interp name state = ⟨state, [], .value dataTypes⟩ →
      kind.execute interp self caller before = ⟨final, out, outcome⟩ →
      TypedHistory interp data dataTypes (operation :: past) final

namespace TypedHistory

variable {interp : Interp W} {data dataTypes : Nat}

/-- What an operation does to the table of the types. -/
def typesAfter (outside : Outside W) (types : StringMap) :
    MapOperation → StringMap
  | .set key type _ =>
      if type.isEmpty then types else types.insert outside key type
  | _ => types

/-- The pointer is read from the variables alone. -/
theorem mapTypesPointer_contexts {name : Str} {state later : St W}
    (found : mapTypesPointer interp name state =
      ⟨state, [], .value dataTypes⟩)
    (same : later.contexts = state.contexts) :
    mapTypesPointer interp name later = ⟨later, [], .value dataTypes⟩ := by
  have here := M.getValue_eq (mapTypesHandle name) state
  have there := M.getValue_eq (mapTypesHandle name) later
  rw [same] at there
  unfold mapTypesPointer handle at found ⊢
  rw [Prog.bind_silent here] at found
  rw [Prog.bind_silent there]
  split at found
  · cases found
  · rename_i present
    rw [if_neg present]
    unfold M.pointer at found ⊢
    cases converted : interp.dcl.fromStringPtr
        (Chain.getValue (mapTypesHandle name) state.contexts) with
    | none =>
        rw [converted] at found
        cases found
    | some addr =>
        rw [converted] at found
        cases found
        rfl

/-- An operation on the map leaves the table of the types alone, except for
the type of a `map-set`. -/
theorem perform_types {name : Str} {state : St W} {map types : StringMap}
    (different : data ≠ dataTypes)
    (live : state.maps.lookup data = some map)
    (typesLive : state.maps.lookup dataTypes = some types)
    (pointer : mapTypesPointer interp name state =
      ⟨state, [], .value dataTypes⟩) (operation : MapOperation) :
    (operation.perform interp name data state).state.maps.lookup dataTypes =
      some (typesAfter interp.outside types operation) := by
  have stored : M.setMap data (operation.apply interp.outside map) state =
      ⟨{ state with
          maps := state.maps.insert data (operation.apply interp.outside map) },
        [], .value ()⟩ := rfl
  have kept : (state.maps.insert data
      (operation.apply interp.outside map)).lookup dataTypes = some types :=
    (AList.lookup_insert_ne (Ne.symm different)).trans typesLive
  unfold MapOperation.perform
  rw [Prog.bind_silent (MapOperation.getMap_eq live), Prog.bind_silent stored]
  cases operation with
  | unset key => exact kept
  | fromJson members => exact kept
  | set key type value =>
      cases typed : type.isEmpty with
      | true =>
          simp only [MapOperation.recordType, Prog.when, typed, typesAfter]
          exact kept
      | false =>
          have same : St.contexts { state with
              maps := state.maps.insert data
                ((MapOperation.set key type value).apply interp.outside map) } =
              state.contexts := rfl
          have reached := mapTypesPointer_contexts pointer same
          simp only [MapOperation.recordType, Prog.when, typed, typesAfter]
          simp only [Bool.not_false, ↓reduceIte, Bool.false_eq_true]
          rw [Prog.bind_silent reached,
            Prog.bind_silent (MapOperation.getMap_eq kept)]
          exact AList.lookup_insert _

theorem lookup_typesAfter (outside : Outside W) {types : StringMap}
    {earlier : List MapOperation}
    (agrees : ∀ key, types.content.lookup key =
      MapOperation.firstType earlier key)
    (operation : MapOperation) (key : Str) :
    (typesAfter outside types operation).content.lookup key =
      MapOperation.firstType (operation :: earlier) key := by
  cases operation with
  | unset removed => exact agrees key
  | fromJson members => exact agrees key
  | set written type value =>
      unfold MapOperation.firstType
      by_cases missing : type = []
      · have unchanged : typesAfter outside types
            (.set written type value) = types := by
          simp [typesAfter, missing]
        rw [unchanged, agrees, if_neg fun both => both.2 missing,
          Option.or_none]
      · have inserted : typesAfter outside types (.set written type value) =
            types.insert outside written type := by
          simp [typesAfter, missing]
        rw [inserted, StringMap.lookup_insert, agrees]
        by_cases same : key = written
        · rw [if_pos same, if_pos ⟨same, missing⟩]
        · rw [if_neg same, if_neg fun both => same both.1, Option.or_none]

/-- A key is present in the container just when it is in the finite map. -/
theorem present_apply (outside : Outside W) {map : StringMap}
    {earlier : List MapOperation}
    (agrees : ∀ key, (map.content.lookup key).isSome =
      (MapOperation.reference earlier key).isSome)
    (operation : MapOperation) (key : Str) :
    ((operation.apply outside map).content.lookup key).isSome =
      (MapOperation.reference (operation :: earlier) key).isSome := by
  cases operation with
  | set written type value =>
      unfold MapOperation.apply MapOperation.reference
      rw [StringMap.lookup_insert]
      by_cases same : key = written
      · rw [if_pos same, if_pos same]
        cases map.content.lookup key <;> rfl
      · rw [if_neg same, if_neg same]
        exact agrees key
  | unset removed =>
      unfold MapOperation.apply MapOperation.reference
      rw [StringMap.lookup_erase]
      by_cases same : key = removed
      · rw [if_pos same, if_pos same]
      · rw [if_neg same, if_neg same]
        exact agrees key
  | fromJson members =>
      unfold MapOperation.apply
      rw [StringMap.lookup_foldl_insert]
      rfl

/-- What is at the two addresses after a history. -/
structure Tables (data dataTypes : Nat) (past : List MapOperation)
    (state : St W) (map types : StringMap) : Prop where
  different : data ≠ dataTypes
  live : state.maps.lookup data = some map
  typesLive : state.maps.lookup dataTypes = some types
  present : ∀ key, (map.content.lookup key).isSome =
    (MapOperation.reference past key).isSome
  first : ∀ key, types.content.lookup key = MapOperation.firstType past key

theorem tables {past : List MapOperation} {state : St W}
    (history : TypedHistory interp data dataTypes past state) :
    ∃ map types, Tables data dataTypes past state map types := by
  induction history with
  | start different empty typesEmpty =>
      exact ⟨_, _, different, empty, typesEmpty, fun _ => rfl, fun _ => rfl⟩
  | idle _ same typesSame induction =>
      obtain ⟨map, types, found⟩ := induction
      exact ⟨map, types, found.different, same.trans found.live,
        typesSame.trans found.typesLive, found.present, found.first⟩
  | @next past kind _ _ before state final _ _ name operation _ _ asked
      pointer ran induction =>
      obtain ⟨map, types, found⟩ := induction
      rw [MapTag.execute_eq, Prog.bind_eq asked] at ran
      have last : (operation.perform interp name data state).state = final :=
        congrArg Run.state ran
      have mapAfter := MapOperation.perform_maps interp name operation
        found.live
      have typesThen := perform_types found.different found.live
        found.typesLive pointer operation
      rw [last] at mapAfter typesThen
      refine ⟨_, _, found.different, mapAfter, typesThen, ?_, ?_⟩
      · exact present_apply interp.outside found.present operation
      · exact lookup_typesAfter interp.outside found.first operation

end TypedHistory

/-- Every present key has the type the latest `map-set` has asked for, and no
other, in the table `map-to-json` looks at. -/
def TypesLive (data dataTypes : Nat) (past : List MapOperation)
    (state : St W) : Prop :=
  ∀ map types, state.maps.lookup data = some map →
    state.maps.lookup dataTypes = some types →
    ∀ key ∈ map.content, TagMapToJson.recorded types.content key =
      .ofText (MapOperation.askedType past key)

/-- After every sequence of operations, `map-to-json` writes each key with the
type it finds in the table.  That is the type the latest operation has asked
for exactly when, for each key that is present, the first type that has ever
been given for the key is. -/
theorem types_live_iff (interp : Interp W) (data dataTypes : Nat)
    (past : List MapOperation) (state : St W)
    (history : TypedHistory interp data dataTypes past state) :
    (∀ self, TagMapToJson.execute interp self =
      TagMapToJson.addresses interp self >>= fun found =>
        TagMapToJson.writing interp found.1 found.2) ∧
    (∃ map types, state.maps.lookup data = some map ∧
      state.maps.lookup dataTypes = some types ∧
      TagMapToJson.writing interp data dataTypes state =
        TagMapToJson.document interp map.content
          (TagMapToJson.recorded types.content) state) ∧
    (TypesLive data dataTypes past state ↔
      ∀ key, (MapOperation.reference past key).isSome →
        JsonKind.ofText ((MapOperation.firstType past key).getD []) =
          .ofText (MapOperation.askedType past key)) := by
  obtain ⟨map, types, tables⟩ := history.tables
  refine ⟨TagMapToJson.execute_writing interp, ?_, ?_⟩
  · exact ⟨map, types, tables.live, tables.typesLive,
      TagMapToJson.writing_document interp tables.live tables.typesLive⟩
  · have inside (key : Str) : key ∈ map.content ↔
        (MapOperation.reference past key).isSome := by
      rw [← tables.present key]
      exact AList.lookup_isSome.symm
    constructor
    · intro live key present
      have same := live map types tables.live tables.typesLive key
        ((inside key).mpr present)
      unfold TagMapToJson.recorded at same
      rw [tables.first key] at same
      exact same
    · intro first found typesFound here typesHere key member
      rw [tables.live] at here
      cases here
      rw [tables.typesLive] at typesHere
      cases typesHere
      unfold TagMapToJson.recorded
      rw [tables.first key]
      exact first key ((inside key).mp member)

/-- A tag that gives the key `k` a value of a type. -/
def typedSetTag (type value : String) : Tag :=
  .mk 2 .mapSet
    [("name".toList, "m".toList), ("key".toList, "k".toList),
      ("type".toList, type.toList), ("value".toList, value.toList)] [] []

def unsetTag : Tag :=
  .mk 3 .mapUnset
    [("name".toList, "m".toList), ("key".toList, "k".toList)] [] []

/-- A state inside of a `dbp:map` with the name `m`, whose values and types are
at the addresses 7 and 8. -/
def typedState (maps : AList fun _ : Nat => StringMap) : St Unit :=
  { contexts := [{ Context.newLocal with
      stack := [((∅ : Vars).insert (upName (mapHandle "m".toList))
        "7".toList).insert (upName (mapTypesHandle "m".toList)) "8".toList] }]
    vectors := ∅
    maps
    nextAddr := 9
    world := ()
    trace := [] }

/-- A tag of the state that asks for an operation. -/
theorem typedHistory_next {past : List MapOperation} {kind : MapTag}
    {tag : Tag} {maps later : AList fun _ : Nat => StringMap}
    {operation : MapOperation}
    (history : TypedHistory mapInterp 7 8 past (typedState maps))
    (asked : kind.asks mapInterp ⟨tag, []⟩ none (typedState maps) =
      ⟨typedState maps, [], .value ⟨"m".toList, 7, some operation⟩⟩)
    (performed : (operation.perform mapInterp "m".toList 7
      (typedState maps)).state = typedState later) :
    TypedHistory mapInterp 7 8 (operation :: past) (typedState later) := by
  have ended : (kind.execute mapInterp ⟨tag, []⟩ none
      (typedState maps)).state = typedState later := by
    rw [MapTag.execute_eq, Prog.bind_eq asked]
    exact performed
  cases ran : kind.execute mapInterp ⟨tag, []⟩ none (typedState maps) with
  | mk final out outcome =>
      rw [ran] at ended
      obtain rfl : final = typedState later := ended
      exact .next history asked rfl ran

def mapOfOne (value : String) : StringMap :=
  StringMap.insert (Outside.closed Unit) ⟨∅, []⟩ "k".toList value.toList

/-- The map and its types, before and after a `map-set` with a type. -/
def mapsEmpty : AList fun _ : Nat => StringMap :=
  ((∅ : AList fun _ : Nat => StringMap).insert 8 ⟨∅, []⟩).insert 7 ⟨∅, []⟩

def mapsTyped : AList fun _ : Nat => StringMap :=
  (mapsEmpty.insert 7 (mapOfOne "1")).insert 8 (mapOfOne "integer")

/-- The map after the key has been removed, and with a new value. -/
def mapsRemoved : AList fun _ : Nat => StringMap :=
  mapsTyped.insert 7 (StringMap.erase (mapOfOne "1") "k".toList)

def mapsAgain : AList fun _ : Nat => StringMap :=
  mapsRemoved.insert 7 (StringMap.insert (Outside.closed Unit)
    (StringMap.erase (mapOfOne "1") "k".toList) "k".toList "x".toList)

/-- The map after it has got an integer once more. -/
def mapsRenewed : AList fun _ : Nat => StringMap :=
  (mapsRemoved.insert 7 (StringMap.insert (Outside.closed Unit)
    (StringMap.erase (mapOfOne "1") "k".toList) "k".toList "2".toList)).insert 8
    (mapOfOne "integer")

theorem typed_once : TypedHistory mapInterp 7 8
    [.set "k".toList "integer".toList "1".toList] (typedState mapsTyped) := by
  apply @typedHistory_next _ .set (typedSetTag "integer" "1") mapsEmpty
  · exact .start (by decide) rfl rfl
  · rfl
  · rfl

theorem typed_removed : TypedHistory mapInterp 7 8
    [.unset "k".toList, .set "k".toList "integer".toList "1".toList]
    (typedState mapsRemoved) := by
  apply @typedHistory_next _ .unset unsetTag mapsTyped
  · exact typed_once
  · rfl
  · rfl

/-- An integer is removed, and the key gets a value without a type. -/
theorem typed_then_untyped : TypedHistory mapInterp 7 8
    [.set "k".toList [] "x".toList, .unset "k".toList,
      .set "k".toList "integer".toList "1".toList]
    (typedState mapsAgain) := by
  apply @typedHistory_next _ .set (typedSetTag "" "x") mapsRemoved
  · exact typed_removed
  · rfl
  · rfl

/-- An integer is removed, and the key gets an integer again. -/
theorem typed_twice : TypedHistory mapInterp 7 8
    [.set "k".toList "integer".toList "2".toList, .unset "k".toList,
      .set "k".toList "integer".toList "1".toList]
    (typedState mapsRenewed) := by
  apply @typedHistory_next _ .set (typedSetTag "integer" "2") mapsRemoved
  · exact typed_removed
  · rfl
  · rfl

/-- The second integer has its type. -/
theorem types_live_once :
    TypesLive 7 8
      [.set "k".toList "integer".toList "2".toList, .unset "k".toList,
        .set "k".toList "integer".toList "1".toList]
      (typedState mapsRenewed) := by
  apply (types_live_iff mapInterp 7 8 _ _ typed_twice).2.2.mpr
  intro key present
  by_cases same : key = "k".toList
  · subst same
    rfl
  · simp only [MapOperation.reference, if_neg same] at present
    cases present

/-- The type of the removed integer is still there. -/
theorem removed_type_used :
    ¬ ∀ (past : List MapOperation) (state : St Unit),
      TypedHistory mapInterp 7 8 past state → TypesLive 7 8 past state := by
  intro live
  have first := (types_live_iff mapInterp 7 8 _ _ typed_then_untyped).2.2.mp
    (live _ _ typed_then_untyped) "k".toList rfl
  exact absurd first (by decide)

end DbPager
