import DbPager.Expression
import DbPager.Library.Tree

/-!
# The parser

`dbpx_parser` reads a document through the libxml2 reader, which reports an
event for every element, text and CDATA section, with the depth of the node,
and an event for the end of every element that was not written as an empty
one.  The parser keeps a current node.  Since an empty element has no end
event, the current node is not always the element that is open: the place
of a new node is found by comparing depths.
-/

namespace DbPager

open Effect Rose

/-- An attribute as the reader reports it, namespace declarations included.
The local name and the namespace are only looked at when it is prefixed. -/
structure Attribute where
  name : Str
  localName : Str
  prefixed : Bool
  uri : Str
  value : Str

/-- An element: local name, namespace, qualified name and attributes. -/
structure Element where
  object : XmlName
  uri : Str
  name : XmlName
  attributes : List Attribute

inductive ReaderEvent where
  | element (element : Element) (depth : Nat)
  | endElement
  | text (value : Str) (depth : Nat)
  | cdata (value : Str) (depth : Nat)
  /-- Comments, processing instructions, blanks between elements. -/
  | other

/-- What reading a file yields: the events, and the reader's message if it
stops with an error. -/
structure Source where
  events : List ReaderEvent
  failure : Option Str

/-- What the parser uses from outside. -/
structure ParserApi where
  dcl : Dcl
  /-- The iteration order of a hash map filled with the given entries. -/
  mapOrder : List (Str × Str) → List (Str × Str)
  /-- The tags of the plugins registered for a namespace. -/
  plugin : Str → Option (Str → Option Kind)
  /-- `tag_factory::create` gives every tag the name it was asked for. -/
  plugin_named : ∀ uri create object kind, plugin uri = some create →
    create object = some kind → kind.getName = object
  /-- The value of an expression in an empty context. -/
  evaluate : Str → Outcome Exc Str
  /-- The location of an included file: the current one and `href`. -/
  resolve : Str → Str → Str
  /-- `xmlReaderForFile` and the reads up to the end of the file. -/
  fetch : Str → Option Source

def dbpagerUri : Str := "http://dbpager.org.ru/schemas/dbp/3.0".toList

def dbpagerCustomUri : Str :=
  "http://dbpager.org.ru/schemas/dbp/3.0/custom".toList

def itsUri : Str := "http://www.w3.org/2005/11/its".toList

/-- The tags `tag_factory` registers for the namespace of the server. -/
def builtinTags : List Kind :=
  [.module, .include, .var, .set, .map, .mapSet, .mapUnset, .mapElement,
    .mapElements, .mapValues, .mapFromJson, .mapToJson, .list, .listAdd,
    .listRemove, .listElement, .listElements, .listFromJson, .try, .catch,
    .throw, .case, .switch, .while, .split, .substr, .regexp, .tag none,
    .call, .execute, .read, .write, .locale, .system, .delete, .rename, .log,
    .http, .async]

/-- Change the definition a `tag_usr` is linked to. -/
def Kind.relink (change : Option Nat → Option Nat) : Kind → Kind
  | .usr name link => .usr name (change link)
  | kind => kind

theorem Kind.relink_relink (first second : Option Nat → Option Nat)
    (kind : Kind) :
    (kind.relink first).relink second =
      kind.relink fun link => second (first link) := by
  cases kind <;> rfl

@[simp] theorem Kind.getName_relink (change : Option Nat → Option Nat)
    (kind : Kind) : (kind.relink change).getName = kind.getName := by
  cases kind <;> rfl

/-- What a tag object holds besides its children. -/
structure Head where
  addr : Nat
  depth : Nat
  kind : Kind
  params : List (Str × Str)
  text : Str

/-- A tag that is being linked into the tree. -/
abbrev Node := LabelTree Head

namespace Node

def getName (node : Node) : Str :=
  node.label.kind.getName

/-- The tag below a parent at the given depth: `set_parent`. -/
def adopt (depth : Nat) (node : Node) : Node :=
  node.setLabel { node.label with depth := depth + 1 }

def setLink (link : Option Nat) (node : Node) : Node :=
  node.setLabel
    { node.label with kind := node.label.kind.relink fun _ => link }

/-- The tree of an included file, with numbers of its own for its tags. -/
def renumber (next : Nat) : Node → Node :=
  LabelTree.map fun head =>
    { head with
      addr := head.addr + next
      kind := head.kind.relink (Option.map (· + next)) }

end Node

/-- The current node, if there is one, and the number for the next tag. -/
structure Parsing where
  cursor : Option (Cursor Head)
  next : Nat

/-- `tag_usr::link`: the first child called `@name` of the nearest ancestor
that has one.  The ancestors are the frames above the given tag. -/
def link (name : Str) : Node → List (Frame Head) → Option Nat
  | _, [] => none
  | node, frame :: frames =>
      match (frame.close node).childs.find? fun child =>
          Node.getName child == '@' :: name with
      | some definition => some definition.label.addr
      | none => link name (frame.close node) frames

namespace DbpxParser

section Elements

variable (api : ParserApi)

def unknownTag (object : Str) : Exc :=
  api.dcl.exception "unknown tag found (\x7b0\x7d)" [object]

/-- `tag_factory::create`.  For a namespace nobody has registered, the
function uses a null pointer. -/
def create (uri object : Str) : Outcome Exc Kind :=
  if uri = dbpagerUri then
    match builtinTags.find? fun kind => kind.getName == object with
    | some kind => .value kind
    | none => .error (unknownTag api object)
  else
    match api.plugin uri with
    | some create =>
        match create object with
        | some kind => .value kind
        | none => .error (unknownTag api object)
    | none => .halt .fault

/-- The parameters `process_attributes` adds to a tag. -/
def parameters (attributes : List Attribute) : List (Str × Str) :=
  attributes.filterMap fun entry =>
    if !entry.prefixed then some (entry.name, setText entry.value)
    else if dbpagerUri.isPrefixOf entry.uri then
      some ("@DBP:PARAM@".toList ++ entry.localName, setText entry.value)
    else none

/-- `insert` keeps the entry that is already there. -/
def insertAll (entries : List (Str × Str)) : List (Str × Str) :=
  entries.foldl (fun inserted entry =>
    if inserted.any fun earlier => earlier.1 == entry.1 then inserted
    else inserted ++ [entry]) []

def processAttributes (element : Element) : List (Str × Str) :=
  api.mapOrder (insertAll (parameters element.attributes))

/-- `tag_tag::add_parameter`: the parameter `name` is evaluated at once. -/
def nameTag (element : Element) : Kind → Outcome Exc Kind
  | .tag _ =>
      match (parameters element.attributes).find? fun param =>
          param.1 == "name".toList with
      | some param => do pure (.tag (some (← api.evaluate param.2)))
      | none => pure (.tag none)
  | kind => pure kind

/-- The tag for an element; elements of the ITS namespace have none. -/
def elementKind (element : Element) : Outcome Exc (Option Kind) :=
  if dbpagerCustomUri.isPrefixOf element.uri then
    pure (some (.usr element.object none))
  else if dbpagerUri.isPrefixOf element.uri then do
    let kind ← create api element.uri element.object.text
    pure (some (← nameTag api element kind))
  else if element.uri = itsUri then pure none
  else pure (some (.unknown element.name))

/-- `rslt->get_parameter(ctx, "href")` of an include. -/
def href (element : Element) : Outcome Exc Str :=
  match (processAttributes api element).find? fun param =>
      param.1 == "href".toList with
  | some param => api.evaluate param.2
  | none => pure []

end Elements

/-- `dbpx_parser::make_relationship`: how many steps up from the current
node the parent of a node of the given depth is. -/
def makeRelationship (dcl : Dcl) (name : Str) (depth : Nat)
    (current : Cursor Head) : Outcome Exc Nat :=
  let nested := dcl.exception "invalid nested tags (\x7b0\x7d)" [name]
  if depth = current.tree.label.depth then
    match current.up with
    | none => .error nested
    | some _ => .value 1
  else if depth > current.tree.label.depth then .value 0
  else
    match current.up with
    | none => .halt .fault
    | some parent =>
        match parent.ancestor (current.tree.label.depth - depth) with
        | none => .error nested
        | some _ => .value (1 + (current.tree.label.depth - depth))

section Events

/-- Parsing programs. -/
abbrev P := Prog Parsing Exc Char

def ofOutcome {α : Type} (outcome : Outcome Exc α) : P α :=
  Prog.act fun state => (state, outcome)

variable (api : ParserApi)

/-- `add_child` for a node that does not become the current one. -/
def addLeaf (current : Cursor Head) (level : Nat) (head : Head) :
    Option (Cursor Head) :=
  (current.ancestor level).map fun parent =>
    current.addAt level
      (Node.adopt parent.tree.label.depth (.node head []))

/-- `add_child` for an element; it becomes the current node and, if it is a
`tag_usr`, is linked. -/
def addElement (current : Cursor Head) (level : Nat) (head : Head) :
    Option (Cursor Head) :=
  (current.ancestor level).map fun parent =>
    let entered := parent.descend
      (Node.adopt parent.tree.label.depth (.node head []))
    { entered with
      tree := Node.setLink
        (link (Node.getName entered.tree) entered.tree entered.frames)
        entered.tree }

/-- Link a new tag into the tree. -/
def attach (add : Cursor Head → Nat → Head → Option (Cursor Head))
    (name : Str) (head : Head) (current : Cursor Head) : P Unit := do
  let level ← ofOutcome (makeRelationship api.dcl name head.depth current)
  match add current level head with
  | some cursor => Prog.modify fun state =>
      { cursor := some cursor, next := state.next + 1 }
  | none => Prog.halt .fault

/-- A text or CDATA event.  Without a current node the tag is lost. -/
def processText (kind : Kind) (name value : Str) (depth : Nat) : P Unit := do
  let state ← Prog.read id
  match state.cursor with
  | none => pure ()
  | some current =>
      attach api addLeaf name ⟨state.next, depth, kind, [], setText value⟩
        current

/-- `r->move_childs_to(current_node)`. -/
def moveChilds (root : Node) (current : Cursor Head) : Cursor Head :=
  root.childs.foldl (fun cursor child =>
    cursor.addAt 0 (Node.adopt cursor.tree.label.depth child)) current

/-- An element called `include`: the children of the root of the included
file become children of the current node. -/
def processInclude (load : Str → Outcome Exc (Option Node × Nat))
    (url : Str) (element : Element) : P Unit := do
  let target ← ofOutcome (href api element)
  if target.isEmpty then
    Prog.throw
      (api.dcl.exception "href parameter missing for tag include" [])
  else
    let (root, count) ← ofOutcome (load (api.resolve url target))
    match root with
    | none => Prog.halt .fault
    | some root =>
        let state ← Prog.read id
        match state.cursor with
        | none => if root.childs.isEmpty then pure () else Prog.halt .fault
        | some current =>
            Prog.modify fun _ =>
              { cursor := some (moveChilds (Node.renumber state.next root) current)
                next := state.next + count }

/-- An element event. -/
def processElement (load : Str → Outcome Exc (Option Node × Nat))
    (url : Str) (element : Element) (depth : Nat) : P Unit := do
  match ← ofOutcome (elementKind api element) with
  | none => pure ()
  | some kind =>
      if kind.getName == "include".toList then
        processInclude api load url element
      else
        let state ← Prog.read id
        let head : Head :=
          ⟨state.next, depth, kind, processAttributes api element, []⟩
        match state.cursor with
        | none => Prog.modify fun _ =>
            { cursor := some ⟨.node head [], []⟩, next := state.next + 1 }
        | some current => attach api addElement element.name.text head current

/-- An end event: the parent becomes the current node, if there is one. -/
def processEnd : P Unit :=
  Prog.act fun state =>
    match state.cursor with
    | none => (state, .halt .fault)
    | some current =>
        if Node.getName current.tree == "module".toList then (state, .value ())
        else
          match current.up with
          | some parent => ({ state with cursor := some parent }, .value ())
          | none => (state, .value ())

/-- `dbpx_parser::process_node`. -/
def processNode (load : Str → Outcome Exc (Option Node × Nat)) (url : Str) :
    ReaderEvent → P Unit
  | .element element depth => processElement api load url element depth
  | .endElement => processEnd
  | .text value depth =>
      processText api .expression "#text".toList value depth
  | .cdata value depth =>
      processText api .cdata "#cdata-section".toList value depth
  | .other => pure ()

/-- The root of the tree and the number of its tags, when all is read. -/
def finish (url : Str) (source : Source) (run : Run Parsing Exc Char Unit) :
    Outcome Exc (Option Node × Nat) := do
  let _ ← run.outcome
  match source.failure with
  | some message =>
      .error (api.dcl.exception "failed to parse file '\x7b0\x7d'. \x7b1\x7d"
        [url, message])
  | none => .value (run.state.cursor.map Cursor.root, run.state.next)

/-- `dbpx_parser::parse`, with a bound on the depth of includes. -/
def parse : Nat → Str → Outcome Exc (Option Node × Nat)
  | 0, _ => .halt .timeout
  | depth + 1, url =>
      match api.fetch url with
      | none =>
          .error (api.dcl.exception "unable to open file '\x7b0\x7d'. \x7b1\x7d"
            [url, []])
      | some source =>
          finish api url source
            (Prog.forEach (processNode api (parse depth) url) source.events
              ⟨none, 0⟩)

end Events

end DbpxParser

end DbPager
