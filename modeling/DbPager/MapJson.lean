import DbPager.MapTypes

/-!
# Maps as JSON documents

`map-to-json` builds its document member by member from a null value, and
`map-from-json` passes over everything that is not an object.  Given a reader
that inverts the writer, the statements say which maps survive the way through
a document.
-/

namespace DbPager

open Effect

variable {W : Type}

namespace Json

/-- The members of an object, sorted by name as the library keeps them. -/
def Sorted (members : List (Str × Json)) : Prop :=
  members.Pairwise fun first second => first.1 < second.1

theorem mem_setMember {name : Str} {value : Json} {member : Str × Json}
    {members : List (Str × Json)}
    (inside : member ∈ setMember name value members) :
    member = (name, value) ∨ member ∈ members := by
  induction members with
  | nil => exact .inl (List.mem_singleton.mp inside)
  | cons first members induction =>
      unfold setMember at inside
      split at inside
      · exact List.mem_cons.mp inside
      · split at inside
        · rcases List.mem_cons.mp inside with same | later
          · exact .inl same
          · exact .inr (List.mem_cons_of_mem _ later)
        · rcases List.mem_cons.mp inside with same | later
          · exact .inr (same ▸ List.mem_cons_self)
          · rcases induction later with same | later
            · exact .inl same
            · exact .inr (List.mem_cons_of_mem _ later)

theorem Sorted.setMember {members : List (Str × Json)} (sorted : Sorted members)
    (name : Str) (value : Json) : Sorted (setMember name value members) := by
  induction members with
  | nil => exact List.pairwise_singleton _ _
  | cons first members induction =>
      obtain ⟨above, rest⟩ := List.pairwise_cons.mp sorted
      unfold Json.setMember
      split
      · rename_i below
        refine List.pairwise_cons.mpr ⟨?_, sorted⟩
        intro member inside
        rcases List.mem_cons.mp inside with same | later
        · rw [same]
          exact below
        · exact List.lt_trans below (above member later)
      · rename_i notBelow
        split
        · rename_i same
          refine List.pairwise_cons.mpr ⟨?_, rest⟩
          intro member inside
          rw [same]
          exact above member inside
        · rename_i different
          refine List.pairwise_cons.mpr ⟨?_, induction rest⟩
          intro member inside
          rcases mem_setMember inside with same | later
          · rw [same]
            exact str_lt_of_not_lt notBelow different
          · exact above member later

theorem lookup_setMember (name : Str) (value : Json)
    (members : List (Str × Json)) (other : Str) :
    (setMember name value members).lookup other =
      if other = name then some value else members.lookup other := by
  induction members with
  | nil => exact lookup_entry (name, value) [] other
  | cons first members induction =>
      unfold setMember
      split
      · exact lookup_entry (name, value) (first :: members) other
      · split
        · rename_i equal
          rw [lookup_entry, lookup_entry, equal]
          by_cases same : other = first.1
          · rw [if_pos same, if_pos same]
          · rw [if_neg same, if_neg same, if_neg same]
        · rename_i different
          rw [lookup_entry, lookup_entry, induction]
          by_cases same : other = first.1
          · rw [same, if_pos rfl, if_neg (Ne.symm different), if_pos rfl]
          · rw [if_neg same, if_neg same]

end Json

namespace TagMapToJson

section Strings

variable (interp : Interp W)

/-- The members of a document in which every value is a string. -/
def stringMembers (entries : List (Sigma fun _ : Str => Str))
    (written : List (Str × Json)) : List (Str × Json) :=
  entries.foldl (fun members entry =>
    Json.setMember entry.1 (interp.outside.json.ofString entry.2) members)
    written

/-- The document of a map of strings; it is null without a member. -/
def stringDocument (content : Vars) : Json :=
  if (stringMembers interp content.entries []).isEmpty then .null
  else .object (stringMembers interp content.entries [])

theorem typedMembers_strings {kindAt : Str → JsonKind}
    {entries : List (Sigma fun _ : Str => Str)}
    (strings : ∀ entry ∈ entries, kindAt entry.1 = .string)
    (written : List (Str × Json)) :
    typedMembers interp kindAt entries written =
      pure (stringMembers interp entries written) := by
  induction entries generalizing written with
  | nil => rfl
  | cons entry entries induction =>
      have here := strings entry List.mem_cons_self
      have rest := induction fun later member =>
        strings later (List.mem_cons_of_mem _ member)
      unfold typedMembers
      rw [here]
      exact rest _

theorem document_strings {content : Vars} {kindAt : Str → JsonKind}
    (strings : ∀ key ∈ content, kindAt key = .string) (state : St W) :
    document interp content kindAt state =
      ⟨state, interp.outside.json.write (stringDocument interp content),
        .value ()⟩ := by
  have each : ∀ entry ∈ content.entries, kindAt entry.1 = .string := by
    intro entry member
    exact strings entry.1 (AList.mem_keys.mpr
      (List.mem_keys_of_mem member))
  unfold document
  rw [typedMembers_strings interp each]
  rfl

theorem stringMembers_sorted (entries : List (Sigma fun _ : Str => Str))
    {written : List (Str × Json)} (sorted : Json.Sorted written) :
    Json.Sorted (stringMembers interp entries written) := by
  induction entries generalizing written with
  | nil => exact sorted
  | cons entry entries induction => exact induction (sorted.setMember _ _)

theorem stringMembers_strings (entries : List (Sigma fun _ : Str => Str))
    {written : List (Str × Json)}
    (strings : ∀ member ∈ written, ∃ text,
      member.2 = interp.outside.json.ofString text) :
    ∀ member ∈ stringMembers interp entries written, ∃ text,
      member.2 = interp.outside.json.ofString text := by
  induction entries generalizing written with
  | nil => exact strings
  | cons entry entries induction =>
      apply induction
      intro member inside
      rcases Json.mem_setMember inside with same | earlier
      · exact ⟨entry.2, same ▸ rfl⟩
      · exact strings member earlier

/-- Every key of the map is a member, and no other name. -/
theorem lookup_stringMembers {entries : List (Sigma fun _ : Str => Str)}
    (nodup : entries.NodupKeys) (written : List (Str × Json)) (key : Str) :
    (stringMembers interp entries written).lookup key =
      ((entries.dlookup key).map interp.outside.json.ofString).or
        (written.lookup key) := by
  induction entries generalizing written with
  | nil => rfl
  | cons entry entries induction =>
      obtain ⟨fresh, rest⟩ := List.nodupKeys_cons.mp nodup
      have later := induction rest (Json.setMember entry.1
        (interp.outside.json.ofString entry.2) written)
      unfold stringMembers at later ⊢
      rw [List.foldl_cons, later, Json.lookup_setMember]
      by_cases same : key = entry.1
      · subst same
        have absent : entries.dlookup entry.1 = none :=
          List.dlookup_eq_none.mpr fresh
        rw [absent, if_pos rfl, List.dlookup_cons_eq]
        rfl
      · rw [if_neg same, List.dlookup_cons_ne _ _ same]

end Strings

end TagMapToJson

/-- The reader of the library inverts its writer, on null and on objects of
strings, and a text that becomes a value is the text of that value. -/
structure JsonApi.Inverts (json : JsonApi) : Prop where
  parse_null : json.parse (json.write .null) = some .null
  parse_object : ∀ members, Json.Sorted members →
    (∀ member ∈ members, ∃ text, member.2 = json.ofString text) →
    json.parse (json.write (.object members)) = some (.object members)
  write_ne_nil : ∀ value, json.write value ≠ []
  elementText_ofString : ∀ text,
    Json.elementText json.write (json.ofString text) = text

namespace TagMapFromJson

variable (interp : Interp W) (self : Loc) (caller : Option Loc)

/-- The tag without its parameters. -/
def loading (name : Str) (data : Nat) : M W Unit := do
  let root ← childJson interp self caller
  MapChange.perform interp
    ⟨name, data, MapTag.ofJson interp.outside.json.write root⟩

theorem execute_loading :
    execute interp self caller =
      interp.getParameter self "name" >>= fun name =>
        mapPointer interp name >>= fun data =>
          loading interp self caller name data := by
  have whole := MapTag.execute_eq interp self caller .fromJson
  simp only [MapTag.asks, Prog.bind_assoc, Prog.pure_bind] at whole
  exact whole

variable {interp self caller}

/-- The document the children have written. -/
theorem childJson_written {before middle : St W} {value : Json}
    (inverts : interp.outside.json.parse (interp.outside.json.write value) =
      some value)
    (present : interp.outside.json.write value ≠ [])
    (ran : interp.executeChilds self caller before =
      ⟨middle, interp.outside.json.write value, .value ()⟩) :
    childJson interp self caller before = ⟨middle, [], .value (some value)⟩ := by
  unfold childJson
  rw [Prog.bind_silent (Prog.capture_eq ran),
    if_neg (mt List.isEmpty_iff.mp present), inverts]
  rfl

theorem loading_null {name : Str} {data : Nat} {before middle : St W}
    (read : childJson interp self caller before =
      ⟨middle, [], .value (some .null)⟩) :
    loading interp self caller name data before =
      ⟨middle, [], .value ()⟩ := by
  unfold loading
  rw [Prog.bind_silent read]
  rfl

theorem loading_object {name : Str} {data : Nat} {before middle : St W}
    {members : List (Str × Json)} {map : StringMap}
    (read : childJson interp self caller before =
      ⟨middle, [], .value (some (.object members))⟩)
    (live : middle.maps.lookup data = some map) :
    loading interp self caller name data before =
      ⟨{ middle with
          maps := middle.maps.insert data
            ((MapOperation.fromJson (members.map fun member =>
              (member.1, Json.elementText interp.outside.json.write
                member.2))).apply interp.outside map) }, [], .value ()⟩ := by
  unfold loading
  rw [Prog.bind_silent read]
  exact Prog.bind_silent (MapOperation.getMap_eq live) _

end TagMapFromJson

theorem lookup_map_snd {α β : Type} (change : α → β)
    (members : List (Str × α)) (key : Str) :
    (members.map fun member => (member.1, change member.2)).lookup key =
      (members.lookup key).map change := by
  induction members with
  | nil => rfl
  | cons member members induction =>
      rw [List.map_cons, List.lookup_cons, List.lookup_cons]
      cases key == member.1 with
      | true => rfl
      | false => exact induction

/-- The document that `map-to-json` writes for a map with the first content,
none of whose keys has a type, turns a map with the second content into one
that is equal to the first. -/
def RoundTrips (interp : Interp W) (first second : Vars) : Prop :=
  ∀ (state : St W) (data dataTypes : Nat) (map types : StringMap),
    state.maps.lookup data = some map → map.content = first →
    state.maps.lookup dataTypes = some types →
    (∀ key ∈ first, types.content.lookup key = none) →
    ∃ text, TagMapToJson.writing interp data dataTypes state =
        ⟨state, text, .value ()⟩ ∧
      ∀ (self : Loc) (caller : Option Loc) (name : Str) (target : Nat)
        (before middle : St W) (old : StringMap),
        interp.executeChilds self caller before =
          ⟨middle, text, .value ()⟩ →
        middle.maps.lookup target = some old → old.content = second →
        ∃ final later,
          TagMapFromJson.loading interp self caller name target before =
            ⟨final, [], .value ()⟩ ∧
          final.maps.lookup target = some later ∧
          ∀ key, later.content.lookup key = first.lookup key

section RoundTrip

variable {interp : Interp W} (inverts : interp.outside.json.Inverts)

include inverts in
/-- Reading the members of a document gives the map back. -/
theorem lookup_members (content : Vars) (key : Str) :
    ((TagMapToJson.stringMembers interp content.entries []).map fun member =>
        (member.1, Json.elementText interp.outside.json.write
          member.2)).lookup key = content.lookup key := by
  rw [lookup_map_snd, TagMapToJson.lookup_stringMembers interp
    content.nodupKeys, List.lookup_nil, Option.or_none, Option.map_map]
  have same : Json.elementText interp.outside.json.write ∘
      interp.outside.json.ofString = id :=
    funext inverts.elementText_ofString
  rw [same, Option.map_id]
  rfl

/-- The document of a map is null exactly when the map is empty. -/
theorem stringDocument_cases (content : Vars) :
    (content.entries = [] ∧
      TagMapToJson.stringDocument interp content = .null) ∨
    (content.entries ≠ [] ∧ TagMapToJson.stringDocument interp content =
      .object (TagMapToJson.stringMembers interp content.entries [])) := by
  unfold TagMapToJson.stringDocument
  cases entries : content.entries with
  | nil => exact .inl ⟨rfl, rfl⟩
  | cons entry rest =>
      refine .inr ⟨List.cons_ne_nil _ _, if_neg ?_⟩
      intro empty
      have found := TagMapToJson.lookup_stringMembers interp
        content.nodupKeys [] entry.1
      rw [entries, List.isEmpty_iff.mp empty, List.dlookup_cons_eq] at found
      cases found

include inverts in
theorem parse_stringDocument (content : Vars) :
    interp.outside.json.parse (interp.outside.json.write
      (TagMapToJson.stringDocument interp content)) =
        some (TagMapToJson.stringDocument interp content) := by
  rcases @stringDocument_cases W interp content with
    ⟨_, null⟩ | ⟨_, object⟩
  · rw [null]
    exact inverts.parse_null
  · rw [object]
    apply inverts.parse_object
    · exact TagMapToJson.stringMembers_sorted interp _ List.Pairwise.nil
    · apply TagMapToJson.stringMembers_strings interp
      intro member inside
      cases inside

/-- What `map-to-json` writes for a map without types. -/
theorem writing_untyped {state : St W} {data dataTypes : Nat}
    {map types : StringMap} (live : state.maps.lookup data = some map)
    (typesLive : state.maps.lookup dataTypes = some types)
    (untyped : ∀ key ∈ map.content, types.content.lookup key = none) :
    TagMapToJson.writing interp data dataTypes state =
      ⟨state, interp.outside.json.write
        (TagMapToJson.stringDocument interp map.content), .value ()⟩ := by
  rw [TagMapToJson.writing_document interp live typesLive]
  apply TagMapToJson.document_strings
  intro key member
  unfold TagMapToJson.recorded
  rw [untyped key member]
  rfl

include inverts in
theorem roundTrips {first second : Vars}
    (survives : first.entries ≠ [] ∨ second.entries = []) :
    RoundTrips interp first second := by
  intro state data dataTypes map types live content typesLive untyped
  subst content
  refine ⟨_, writing_untyped live typesLive untyped, ?_⟩
  intro self caller name target before middle old ran there held
  have read := TagMapFromJson.childJson_written
    (parse_stringDocument inverts map.content) (inverts.write_ne_nil _) ran
  rcases @stringDocument_cases W interp map.content with
    ⟨empty, null⟩ | ⟨_, object⟩
  · rw [null] at read
    refine ⟨middle, old, TagMapFromJson.loading_null read, there, ?_⟩
    intro key
    have none : second.entries = [] :=
      survives.resolve_left (not_not.mpr empty)
    rw [held, AList.ext (none.trans empty.symm)]
  · rw [object] at read
    refine ⟨_, _, TagMapFromJson.loading_object read there,
      AList.lookup_insert _, ?_⟩
    intro key
    unfold MapOperation.apply
    rw [StringMap.lookup_foldl_insert, lookup_members inverts]
    rfl

include inverts in
/-- An empty map is written as null, which is passed over. -/
theorem not_roundTrips [Inhabited W] {first second : Vars}
    (empty : first.entries = []) (held : second.entries ≠ []) :
    ¬ RoundTrips interp first second := by
  intro trips
  let state : St W :=
    { contexts := []
      vectors := ∅
      maps := (((∅ : AList fun _ : Nat => StringMap).insert 3
        ⟨second, []⟩).insert 2 ⟨∅, []⟩).insert 1 ⟨first, []⟩
      nextAddr := 4
      world := default
      trace := [] }
  obtain ⟨text, written, loads⟩ := trips state 1 2 ⟨first, []⟩ ⟨∅, []⟩ rfl rfl
    rfl (fun _ _ => rfl)
  have whole := @writing_untyped _ interp state 1 2 ⟨first, []⟩ ⟨∅, []⟩ rfl rfl
    (fun _ _ => rfl)
  rw [whole] at written
  obtain rfl : interp.outside.json.write
      (TagMapToJson.stringDocument interp first) = text :=
    congrArg Run.out written
  have null : TagMapToJson.stringDocument interp first = .null := by
    unfold TagMapToJson.stringDocument
    rw [empty]
    rfl
  let reader : Loc := ⟨.mk 0 .mapFromJson [] [] (interp.outside.json.write
    (TagMapToJson.stringDocument interp first)), []⟩
  have ran : interp.executeChilds reader none state =
      ⟨state, interp.outside.json.write
        (TagMapToJson.stringDocument interp first), .value ()⟩ := rfl
  obtain ⟨final, later, loaded, found, agrees⟩ := loads reader none [] 3 state
    state ⟨second, []⟩ ran rfl rfl
  have read := TagMapFromJson.childJson_written
    (parse_stringDocument inverts first) (inverts.write_ne_nil _) ran
  have nothing : childJson interp reader none state =
      ⟨state, [], .value (some .null)⟩ := by
    rw [read, null]
  rw [TagMapFromJson.loading_null nothing] at loaded
  cases loaded
  cases found
  cases entries : second.entries with
  | nil => exact held entries
  | cons entry rest =>
      have here := agrees entry.1
      unfold AList.lookup at here
      rw [empty, entries, List.dlookup_cons_eq] at here
      cases here

end RoundTrip

/-- A map survives the way through a document exactly when it is not empty,
or the map that reads the document is.  The equations say what the two tags do
with the maps they have found by their names. -/
theorem map_json_round_trip_iff [Inhabited W] (interp : Interp W)
    (inverts : interp.outside.json.Inverts) (first second : Vars) :
    (∀ self, TagMapToJson.execute interp self =
      TagMapToJson.addresses interp self >>= fun found =>
        TagMapToJson.writing interp found.1 found.2) ∧
    (∀ self caller, TagMapFromJson.execute interp self caller =
      interp.getParameter self "name" >>= fun name =>
        mapPointer interp name >>= fun data =>
          TagMapFromJson.loading interp self caller name data) ∧
    (RoundTrips interp first second ↔
      first.entries ≠ [] ∨ second.entries = []) := by
  refine ⟨TagMapToJson.execute_writing interp,
    TagMapFromJson.execute_loading interp, ?_⟩
  constructor
  · intro trips
    by_contra neither
    rw [not_or, not_not] at neither
    exact not_roundTrips inverts neither.1 neither.2 trips
  · exact roundTrips inverts

/-! ## A library for flat documents -/

namespace FlatJson

/-- A string with its quotes; quotes and backslashes are escaped. -/
def quoted (text : Str) : Str :=
  '"' :: text.flatMap
    (fun c => if c = '"' ∨ c = '\\' then ['\\', c] else [c]) ++ ['"']

/-- The members behind the first one and the end of the document. -/
def writeRest : List (Str × Str) → Str
  | [] => "\x7d\n".toList
  | member :: members =>
      ',' :: (quoted member.1 ++ ':' :: (quoted member.2 ++ writeRest members))

def writeObject (members : List (Str × Str)) : Str :=
  '\x7b' :: (if members.isEmpty then writeRest [] else (writeRest members).tail)

/-- The text up to the closing quote and what comes after it; a character
behind a backslash stands for itself. -/
def readString : Bool → Str → Option (Str × Str)
  | _, [] => none
  | escaped, c :: rest =>
      if !escaped && c == '"' then some ([], rest)
      else if !escaped && c == '\\' then readString true rest
      else (readString false rest).map fun found => (c :: found.1, found.2)

def expect (c : Char) (text : Str) : Option Str :=
  if text.head? = some c then some text.tail else none

def readRest : Nat → Str → Option (List (Str × Str))
  | 0, _ => none
  | budget + 1, text =>
      if text = writeRest [] then some []
      else do
        let text ← expect ',' text
        let text ← expect '"' text
        let (name, text) ← readString false text
        let text ← expect ':' text
        let text ← expect '"' text
        let (value, text) ← readString false text
        let members ← readRest budget text
        pure ((name, value) :: members)

def readObject (text : Str) : Option (List (Str × Str)) := do
  let rest ← expect '\x7b' text
  if rest = writeRest [] then pure []
  else readRest text.length (',' :: rest)

theorem readString_quoted (text rest : Str) :
    readString false (text.flatMap
        (fun c => if c = '"' ∨ c = '\\' then ['\\', c] else [c]) ++
      '"' :: rest) = some (text, rest) := by
  induction text with
  | nil => rfl
  | cons c text induction =>
      rw [List.flatMap_cons]
      by_cases special : c = '"' ∨ c = '\\'
      · rw [if_pos special]
        simp [readString, induction]
      · rw [if_neg special]
        obtain ⟨notQuote, notSlash⟩ := not_or.mp special
        simp [readString, notQuote, notSlash, induction]

theorem readRest_writeRest (members : List (Str × Str)) {budget : Nat}
    (enough : members.length < budget) :
    readRest budget (writeRest members) = some members := by
  induction members generalizing budget with
  | nil =>
      obtain ⟨less, rfl⟩ := Nat.exists_eq_succ_of_ne_zero
        (Nat.ne_of_gt enough)
      rfl
  | cons member members induction =>
      obtain ⟨less, rfl⟩ := Nat.exists_eq_succ_of_ne_zero
        (Nat.ne_of_gt (Nat.lt_of_le_of_lt (Nat.zero_le _) enough))
      have later := induction (Nat.lt_of_succ_lt_succ enough)
      have name := readString_quoted member.1
        (':' :: (quoted member.2 ++ writeRest members))
      have value := readString_quoted member.2 (writeRest members)
      unfold readRest
      rw [if_neg (by simp [writeRest])]
      simp only [writeRest, quoted, List.cons_append, List.append_assoc,
        List.nil_append] at name value ⊢
      simp [expect, name, value, later]

theorem length_writeRest (members : List (Str × Str)) :
    members.length + 2 ≤ (writeRest members).length := by
  induction members with
  | nil => exact Nat.le_refl 2
  | cons member members induction =>
      simp only [writeRest, List.length_cons, List.length_append]
      omega

theorem readObject_writeObject (members : List (Str × Str)) :
    readObject (writeObject members) = some members := by
  cases members with
  | nil => rfl
  | cons member members =>
      have long := length_writeRest (member :: members)
      have whole : ',' :: (writeRest (member :: members)).tail =
          writeRest (member :: members) := rfl
      have different : (writeRest (member :: members)).tail ≠
          writeRest [] := by
        simp [writeRest, quoted]
      have read := readRest_writeRest (member :: members)
        (Nat.lt_of_lt_of_le (Nat.lt_add_of_pos_right Nat.zero_lt_two) long)
      have text : writeObject (member :: members) =
          '\x7b' :: (writeRest (member :: members)).tail := rfl
      have length : (writeObject (member :: members)).length =
          (writeRest (member :: members)).length := rfl
      unfold readObject
      rw [length, text]
      simp only [expect, List.head?_cons, ↓reduceIte, List.tail_cons,
        Option.bind_eq_bind, Option.bind_some, if_neg different, whole]
      exact read

def write : Json → Str
  | .null => "null\n".toList
  | .scalar text _ => quoted text ++ "\n".toList
  | .array _ => "[]\n".toList
  | .object members => writeObject (members.map fun member =>
      (member.1, Json.elementText (fun _ => []) member.2))

def parse (text : Str) : Option Json :=
  if text = "null\n".toList then some .null
  else (readObject text).map fun members =>
    .object (members.map fun member =>
      (member.1, .scalar member.2 member.2))

/-- The library: strings are scalars with their own text. -/
def api : JsonApi :=
  { (Outside.closed Unit).json with parse, write }

theorem api_inverts : api.Inverts where
  parse_null := rfl
  write_ne_nil := by
    intro value
    cases value <;> exact List.cons_ne_nil _ _
  elementText_ofString _ := rfl
  parse_object := by
    intro members _ strings
    have same : (members.map fun member =>
          (member.1, Json.elementText (fun _ => []) member.2)).map
        (fun member => (member.1, Json.scalar member.2 member.2)) =
          members := by
      rw [List.map_map]
      apply (List.map_congr_left _).trans (List.map_id members)
      intro member inside
      obtain ⟨text, string⟩ := strings member inside
      obtain ⟨name, value⟩ := member
      subst string
      rfl
    have read := readObject_writeObject (members.map fun member =>
      (member.1, Json.elementText (fun _ => []) member.2))
    change parse (writeObject _) = _
    unfold parse
    rw [if_neg (by simp [writeObject]), read, Option.map_some, same]

end FlatJson

/-- An interpreter that only has the library for flat documents. -/
def flatInterp : Interp Unit :=
  { outside := { Outside.closed Unit with json := FlatJson.api }
    budget := 1
    run := fun _ _ => pure ()
    evaluate := fun _ _ => pure [] }

/-- One member replaces another. -/
theorem map_json_round_trip_member :
    RoundTrips flatInterp ((∅ : Vars).insert "k".toList "v".toList)
      ((∅ : Vars).insert "x".toList "y".toList) :=
  (map_json_round_trip_iff flatInterp FlatJson.api_inverts _ _).2.2.mpr
    (.inl (List.cons_ne_nil _ _))

/-- An empty map does not clear the other one. -/
theorem empty_map_lost :
    ¬ ∀ first second : Vars, RoundTrips flatInterp first second := by
  intro trips
  have survives := (map_json_round_trip_iff flatInterp FlatJson.api_inverts ∅
    ((∅ : Vars).insert "x".toList "y".toList)).2.2.mp (trips _ _)
  rcases survives with present | empty
  · exact present rfl
  · cases empty

end DbPager
