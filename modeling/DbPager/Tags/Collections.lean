import DbPager.Tags.Control

/-!
# Lists and maps

`dbp:list` and `dbp:map` keep a container in a local variable of the
`execute` method and publish its address in a variable of the script, under
a name that starts with `@LIST@` or `@MAP@`.  The tags below look the
address up by name.
-/

namespace DbPager

open Effect

variable {W : Type}

def listHandle (name : Str) : Str := "@LIST@".toList ++ name

def mapHandle (name : Str) : Str := "@MAP@".toList ++ name

def mapTypesHandle (name : Str) : Str := "@MAP_TYPES@".toList ++ name

/-- The address a handle variable holds, or the exception for an unknown
name. -/
def handle (interp : Interp W) (variableName name : Str) (message : String) :
    M W Nat := do
  let pointer ← M.getValue variableName
  if pointer.isEmpty then Prog.throw (interp.dcl.exception message [name])
  else M.pointer interp.dcl pointer

def listPointer (interp : Interp W) (name : Str) : M W Nat :=
  handle interp (listHandle name) name
    "list '\x7b0\x7d' was not defined in the current context"

def mapPointer (interp : Interp W) (name : Str) : M W Nat :=
  handle interp (mapHandle name) name
    "map '\x7b0\x7d' was not defined in the current context"

def mapTypesPointer (interp : Interp W) (name : Str) : M W Nat :=
  handle interp (mapTypesHandle name) name
    "map '\x7b0\x7d' was not defined in the current context"

namespace Json

/-- The text an element of a JSON array or object is stored as. -/
def elementText (write : Json → Str) : Json → Str
  | null => []
  | scalar asString _ => asString
  | value => write value

/-- `root[name] = value`: members are kept sorted by name. -/
def setMember (name : Str) (value : Json) :
    List (Str × Json) → List (Str × Json)
  | [] => [(name, value)]
  | (other, old) :: members =>
      if name < other then (name, value) :: (other, old) :: members
      else if name = other then (name, value) :: members
      else (other, old) :: setMember name value members

end Json

/-- The JSON text a tag's children produce, parsed; nothing for an empty
text. -/
def childJson (interp : Interp W) (self : Loc) (caller : Option Loc) :
    M W (Option Json) := do
  let buf ← (interp.executeChilds self caller).capture
  if buf.isEmpty then pure none
  else
    let root ← Prog.orThrow
      (interp.dcl.exception "invalid JSON structure '\x7b0\x7d'" [buf])
      (interp.outside.json.parse buf)
    pure (some root)

section Lists

/-- `push_back`. -/
def Vector.pushBack (outside : Outside W) (vector : Vector) (value : Str) :
    Vector :=
  vector.change (vector.content ++ [value])
    (.grown
      (outside.vectorMoves vector.changes.length vector.content.length))

def Vector.pushAll (outside : Outside W) (vector : Vector)
    (values : List Str) : Vector :=
  values.foldl (Vector.pushBack outside) vector

/-- A position of a vector survives a change that neither moves the elements
nor erases one at or before the position. -/
def Vector.keepsPosition (position : Nat) : Change Nat → Bool
  | .grown moved => !moved
  | .erased erased => decide (position < erased)
  | .cleared => false

/-- `tag_list`. -/
def TagList.execute (interp : Interp W) (self : Loc) (caller : Option Loc) :
    M W Unit := do
  let name ← interp.getParameter self "name"
  M.withVector fun addr =>
    M.withLayer do
      M.addValue interp.dcl (listHandle name) (interp.dcl.toStringPtr addr)
      interp.executeChilds self caller

/-- `tag_list_add`. -/
def TagListAdd.execute (interp : Interp W) (self : Loc) : M W Unit := do
  let name ← interp.getParameter self "name"
  let value ← interp.getParameter self "value"
  let addr ← listPointer interp name
  let vector ← M.getVector addr
  M.setVector addr (vector.pushBack interp.outside value)

/-- `tag_list_remove`; an index out of range is not checked. -/
def TagListRemove.execute (interp : Interp W) (self : Loc) : M W Unit := do
  let name ← interp.getParameter self "name"
  let key ← interp.getParameter self "number"
  let addr ← listPointer interp name
  let vector ← M.getVector addr
  let index ← M.int interp.dcl key
  if 0 ≤ index ∧ index < vector.content.length then
    M.setVector addr
      (vector.change (vector.content.eraseIdx index.toNat)
        (.erased index.toNat))
  else Prog.halt .fault

/-- `data->at(index)`. -/
def Vector.at (vector : Vector) (index : Int) : M W Str :=
  match index with
  | .ofNat position =>
      Prog.orThrow ⟨.std, "vector::_M_range_check".toList, 0⟩
        vector.content[position]?
  | .negSucc _ => Prog.throw ⟨.std, "vector::_M_range_check".toList, 0⟩

/-- `tag_list_element`. -/
def TagListElement.execute (interp : Interp W) (self : Loc)
    (caller : Option Loc) : M W Unit := do
  let name ← interp.getParameter self "name"
  let key ← interp.getParameter self "number"
  let addr ← listPointer interp name
  M.withLayer do
    let index ← M.int interp.dcl key
    let vector ← M.getVector addr
    let value ← vector.at index
    M.addValue interp.dcl (name ++ "_value".toList) value
    interp.executeChilds self caller

/-- The loop of `tag_list_elements`.  The iterator is kept while the body
runs; using it after a change that invalidates it is not defined. -/
def TagListElements.loop (interp : Interp W) (self : Loc)
    (caller : Option Loc) (name : Str) (addr : Nat) : Nat → Nat → M W Unit
  | 0, _ => Prog.halt .timeout
  | budget + 1, position => do
      let vector ← M.getVector addr
      match vector.content[position]? with
      | none => pure ()
      | some value =>
          M.withLayer do
            M.addValue interp.dcl (name ++ "_value".toList) value
            interp.executeChilds self caller
          let after ← M.getVector addr
          if (after.changesSince vector).all
              (Vector.keepsPosition position) then
            loop interp self caller name addr budget (position + 1)
          else Prog.halt .fault

/-- `tag_list_elements`. -/
def TagListElements.execute (interp : Interp W) (self : Loc)
    (caller : Option Loc) : M W Unit := do
  let name ← interp.getParameter self "name"
  let addr ← listPointer interp name
  TagListElements.loop interp self caller name addr interp.budget 0

/-- `tag_list_from_json`. -/
def TagListFromJson.execute (interp : Interp W) (self : Loc)
    (caller : Option Loc) : M W Unit := do
  let name ← interp.getParameter self "name"
  let addr ← listPointer interp name
  let store (elements : List Json) : M W Unit := do
    let vector ← M.getVector addr
    M.setVector addr
      (Vector.pushAll interp.outside (vector.change [] .cleared)
        (elements.map (Json.elementText interp.outside.json.write)))
  match ← childJson interp self caller with
  | some (.array elements) => store elements
  | some (.object members) => store (members.map Prod.snd)
  | _ => pure ()

end Lists

section Maps

/-- Put a new key at a position of the iteration order. -/
def insertAt (position : Nat) (key value : Str) (vars : Vars)
    (absent : key ∉ vars) : Vars :=
  ⟨vars.entries.insertIdx (min position vars.entries.length) ⟨key, value⟩, by
    have perm := List.perm_insertIdx
      (⟨key, value⟩ : Sigma fun _ : Str => Str) vars.entries
      (Nat.min_le_right position vars.entries.length)
    refine (List.perm_nodupKeys perm).mpr ?_
    exact List.nodupKeys_cons.mpr ⟨absent, vars.nodupKeys⟩⟩

/-- `insert({key, value})`: a key that is there already keeps its value. -/
def StringMap.insert (outside : Outside W) (map : StringMap)
    (key value : Str) : StringMap :=
  if absent : key ∈ map.content then map
  else
    map.change
      (insertAt (outside.mapPosition map.content key) key value map.content
        absent)
      (.grown
        (outside.mapMoves map.changes.length map.content.entries.length))

/-- `erase(key)`. -/
def StringMap.erase (map : StringMap) (key : Str) : StringMap :=
  if key ∈ map.content then
    map.change (map.content.erase key) (.erased key)
  else map

/-- The iterator at a key survives a change that neither moves the elements
nor erases the key. -/
def StringMap.keepsPosition (position : Str) : Change Str → Bool
  | .grown moved => !moved
  | .erased erased => decide (erased ≠ position)
  | .cleared => false

/-- The entry that follows a key in the iteration order. -/
def entryAfter (key : Str) :
    List (Sigma fun _ : Str => Str) → Option (Str × Str)
  | [] => none
  | entry :: rest =>
      if entry.1 = key then rest.head?.map fun next => (next.1, next.2)
      else entryAfter key rest

/-- `tag_map`. -/
def TagMap.execute (interp : Interp W) (self : Loc) (caller : Option Loc) :
    M W Unit := do
  let name ← interp.getParameter self "name"
  M.withMap fun data =>
    M.withMap fun dataTypes =>
      M.withLayer do
        M.addValue interp.dcl (mapHandle name) (interp.dcl.toStringPtr data)
        M.addValue interp.dcl (mapTypesHandle name)
          (interp.dcl.toStringPtr dataTypes)
        interp.executeChilds self caller

/-- `tag_map_set`. -/
def TagMapSet.execute (interp : Interp W) (self : Loc) : M W Unit := do
  let name ← interp.getParameter self "name"
  let key ← interp.getParameter self "key"
  let type ← interp.getParameter self "type"
  let value ← interp.getParameter self "value"
  let data ← mapPointer interp name
  let map ← M.getMap data
  M.setMap data (map.insert interp.outside key value)
  Prog.when (!type.isEmpty) do
    let dataTypes ← mapTypesPointer interp name
    let types ← M.getMap dataTypes
    M.setMap dataTypes (types.insert interp.outside key type)

/-- `tag_map_unset`. -/
def TagMapUnset.execute (interp : Interp W) (self : Loc) : M W Unit := do
  let name ← interp.getParameter self "name"
  let key ← interp.getParameter self "key"
  let data ← mapPointer interp name
  let map ← M.getMap data
  M.setMap data (map.erase key)

/-- Bind a variable to the value found, if any. -/
def TagMapElement.bind (interp : Interp W) (name : Str) :
    Option Str → M W Unit
  | some value => M.addValue interp.dcl name value
  | none => pure ()

/-- `tag_map_element`. -/
def TagMapElement.execute (interp : Interp W) (self : Loc)
    (caller : Option Loc) : M W Unit := do
  let name ← interp.getParameter self "name"
  let key ← interp.getParameter self "key"
  let data ← mapPointer interp name
  M.withLayer do
    let map ← M.getMap data
    TagMapElement.bind interp (name ++ '_' :: key) (map.content.lookup key)
    interp.executeChilds self caller

/-- The loop of `tag_map_elements`, with the entry its iterator points at. -/
def TagMapElements.loop (interp : Interp W) (self : Loc)
    (caller : Option Loc) (name : Str) (data : Nat) :
    Nat → Option (Str × Str) → M W Unit
  | 0, _ => Prog.halt .timeout
  | _ + 1, none => pure ()
  | budget + 1, some (key, value) => do
      let before ← M.getMap data
      M.withLayer do
        M.addValue interp.dcl (name ++ "_key".toList) key
        M.addValue interp.dcl (name ++ "_value".toList) value
        interp.executeChilds self caller
      let after ← M.getMap data
      if (after.changesSince before).all (StringMap.keepsPosition key) then
        loop interp self caller name data budget
          (entryAfter key after.content.entries)
      else Prog.halt .fault

/-- `tag_map_elements`. -/
def TagMapElements.execute (interp : Interp W) (self : Loc)
    (caller : Option Loc) : M W Unit := do
  let name ← interp.getParameter self "name"
  let data ← mapPointer interp name
  let map ← M.getMap data
  TagMapElements.loop interp self caller name data interp.budget
    (map.content.entries.head?.map fun entry => (entry.1, entry.2))

/-- `tag_map_values`. -/
def TagMapValues.execute (interp : Interp W) (self : Loc)
    (caller : Option Loc) : M W Unit := do
  let name ← interp.getParameter self "name"
  let parameter ← interp.getParameter self "prefix"
  let stem := if parameter.isEmpty then name else parameter
  let data ← mapPointer interp name
  M.withLayer do
    let map ← M.getMap data
    Prog.forEach (fun entry =>
        M.addValue interp.dcl (stem ++ '_' :: entry.1) entry.2)
      map.content.entries
    interp.executeChilds self caller

/-- `tag_map_from_json`. -/
def TagMapFromJson.execute (interp : Interp W) (self : Loc)
    (caller : Option Loc) : M W Unit := do
  let name ← interp.getParameter self "name"
  let data ← mapPointer interp name
  match ← childJson interp self caller with
  | some (.object members) =>
      let map ← M.getMap data
      M.setMap data
        (members.foldl (fun map member =>
            map.insert interp.outside member.1
              (Json.elementText interp.outside.json.write member.2))
          (map.change ∅ .cleared))
  | _ => pure ()

/-- The JSON value of an entry with the given recorded type. -/
def TagMapToJson.value (interp : Interp W) (type : Option Str) (text : Str) :
    M W Json :=
  let json := interp.outside.json
  if type = some "integer".toList then
    Prog.orThrow ⟨.std, "stoi".toList, 0⟩ (json.ofInteger text)
  else if type = some "number".toList then
    Prog.orThrow ⟨.std, "stod".toList, 0⟩ (json.ofNumber text)
  else if type = some "boolean".toList then
    pure (json.ofBoolean (text == "true".toList))
  else if type = some "object".toList then
    Prog.orThrow
      (interp.dcl.exception "invalid JSON structure '\x7b0\x7d'" [text])
      (json.parse text)
  else pure (json.ofString text)

/-- The members of the document, entry by entry. -/
def TagMapToJson.members (interp : Interp W) (types : Vars) :
    List (Sigma fun _ : Str => Str) → List (Str × Json) →
      M W (List (Str × Json))
  | [], members => pure members
  | entry :: entries, written => do
      let value ← TagMapToJson.value interp (types.lookup entry.1) entry.2
      TagMapToJson.members interp types entries
        (Json.setMember entry.1 value written)

/-- The recorded types; the pointer to them is only used for an entry. -/
def TagMapToJson.types (dataTypes : Nat) (map : StringMap) : M W Vars :=
  if map.content.entries.isEmpty then pure ∅
  else do pure (← M.getMap dataTypes).content

/-- `tag_map_to_json`.  The document is a null value until its first member
is written. -/
def TagMapToJson.execute (interp : Interp W) (self : Loc) : M W Unit := do
  let name ← interp.getParameter self "name"
  let data ← mapPointer interp name
  let dataTypes ← mapTypesPointer interp name
  let map ← M.getMap data
  let types ← TagMapToJson.types dataTypes map
  let members ← TagMapToJson.members interp types map.content.entries []
  Prog.emit (interp.outside.json.write
    (if members.isEmpty then .null else .object members))

end Maps

end DbPager
