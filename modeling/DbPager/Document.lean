import DbPager.Parser

/-!
# Documents and the trees they parse to

A well-formed document is a tree; the reader turns it into a stream of
events.  This file states what tree of tags a document stands for, with the
included files in the place of their `include` elements, and follows the
parser's current node through the events of a document: it is always the
open element or a tag below it, and the depths say how far below.
-/

namespace DbPager

open Effect Rose

inductive Xml where
  /-- An element written as `<x/>`. -/
  | empty (element : Element)
  | element (element : Element) (childs : List Xml)
  | text (value : Str)
  | cdata (value : Str)
  | other

namespace Xml

mutual

/-- What the reader reports for a node at the given depth. -/
def events (depth : Nat) : Xml → List ReaderEvent
  | .empty start => [.element start depth]
  | .element start childs =>
      .element start depth :: (eventsAll (depth + 1) childs ++ [.endElement])
  | .text value => [.text value depth]
  | .cdata value => [.cdata value depth]
  | .other => [.other]

def eventsAll (depth : Nat) : List Xml → List ReaderEvent
  | [] => []
  | xml :: xmls => events depth xml ++ eventsAll depth xmls

end

end Xml

/-- A document: its root element, empty or with content, and the comments
and processing instructions around it. -/
structure Document where
  prolog : Nat
  root : Element
  content : Option (List Xml)
  epilog : Nat

namespace Document

def xml (document : Document) : Xml :=
  match document.content with
  | none => .empty document.root
  | some childs => .element document.root childs

def events (document : Document) : List ReaderEvent :=
  List.replicate document.prolog .other ++ document.xml.events 0 ++
    List.replicate document.epilog .other

end Document

namespace Head

/-- What a tag says about its element: neither its address nor its depth nor
the definition it was linked to. -/
def plain (head : Head) : Head :=
  { head with addr := 0, depth := 0, kind := head.kind.relink fun _ => none }

end Head

namespace Node

def plain : Node → Node :=
  LabelTree.map Head.plain

mutual

/-- Every tag has the depth of its place in the tree. -/
def Leveled (depth : Nat) : Node → Prop
  | .node head childs => head.depth = depth ∧ LeveledAll (depth + 1) childs

def LeveledAll (depth : Nat) : List Node → Prop
  | [] => True
  | node :: nodes => Leveled depth node ∧ LeveledAll depth nodes

end

end Node

namespace DbpxParser

section Reference

variable (api : ParserApi) (load : Str → Outcome Exc (Option Node × Nat))
  (url : Str)

/-- A `dbp:include` element. -/
def isInclude (element : Element) : Bool :=
  element.uri == dbpagerUri && element.object.text == "include".toList

/-- The tag that stands for an element which is not replaced by an included
file.  An element of the ITS namespace has no class of its own. -/
def elementHead (element : Element) : Outcome Exc Head := do
  let kind ← elementKind api element
  pure ⟨0, 0, kind.getD (.unknown element.name),
    processAttributes api element, []⟩

/-- The root of the file an `include` element names. -/
def includedRoot (element : Element) : Outcome Exc Node := do
  let target ← href api element
  if target.isEmpty then
    .error (api.dcl.exception "href parameter missing for tag include" [])
  else
    let (root, _) ← load (api.resolve url target)
    match root with
    | none => .halt .fault
    | some root => pure root

mutual

/-- The tags a node of the document stands for, with every empty
`dbp:include` replaced by the children of the root of its file. -/
def splice : Xml → Outcome Exc (List Node)
  | .empty element =>
      if isInclude element then do
        let root ← includedRoot api load url element
        pure (root.childs.map Node.plain)
      else do
        let head ← elementHead api element
        pure [.node head.plain []]
  | .element element childs => do
      let head ← elementHead api element
      let nodes ← spliceAll childs
      pure [.node head.plain nodes]
  | .text value => pure [.node ⟨0, 0, .expression, [], setText value⟩ []]
  | .cdata value => pure [.node ⟨0, 0, .cdata, [], setText value⟩ []]
  | .other => pure []

def spliceAll : List Xml → Outcome Exc (List Node)
  | [] => pure []
  | xml :: xmls => do
      let first ← splice xml
      let rest ← spliceAll xmls
      pure (first ++ rest)

end

/-- The tree a document stands for. -/
def spliceRoot (document : Document) : Outcome Exc Node := do
  let head ← elementHead api document.root
  let nodes ← spliceAll api load url (document.content.getD [])
  pure (.node head.plain nodes)

/-- The name of the tag for an element. -/
def elementName (element : Element) : Str :=
  match elementKind api element with
  | .value (some kind) => kind.getName
  | _ => []

mutual

/-- The names of the tags from the current node up to, but not including,
the open element, after a node has been read. -/
def trail : Xml → List Str → List Str
  | .empty element, names =>
      if isInclude element then names else [elementName api element]
  | .element element childs, _ =>
      let below := trailAll childs [] ++ [elementName api element]
      if below.head? = some "module".toList then below else below.tail
  | _, names => names

def trailAll : List Xml → List Str → List Str
  | [], names => names
  | xml :: xmls, names => trailAll xmls (trail xml names)

end

mutual

/-- Every included file that has anything to include is included while the
current node is the open element. -/
def InPlace : Xml → List Str → Prop
  | .empty element, names =>
      isInclude element = true →
        names = [] ∨ splice api load url (.empty element) = .value []
  | .element _ childs, _ => InPlaceAll childs []
  | _, _ => True

def InPlaceAll : List Xml → List Str → Prop
  | [], _ => True
  | xml :: xmls, names =>
      InPlace xml names ∧ InPlaceAll xmls (trail api xml names)

end

/-- The element becomes a tag of the tree, if it can be created at all. -/
def Ordinary (element : Element) : Prop :=
  ∀ kind, elementKind api element = .value kind →
    ∃ created, kind = some created ∧ created.getName ≠ "include".toList

mutual

/-- Every element becomes a tag, if it can be created at all. -/
def AllOrdinary : Xml → Prop
  | .empty element => Ordinary api element
  | .element element childs => Ordinary api element ∧ AllOrdinaryAll childs
  | _ => True

def AllOrdinaryAll : List Xml → Prop
  | [] => True
  | xml :: xmls => AllOrdinary xml ∧ AllOrdinaryAll xmls

end

mutual

/-- Only an empty `dbp:include` is called `include`, and no element is from
the ITS namespace. -/
def Proper : Xml → Prop
  | .empty element => isInclude element = true ∨ Ordinary api element
  | .element element childs => Ordinary api element ∧ ProperAll childs
  | _ => True

def ProperAll : List Xml → Prop
  | [] => True
  | xml :: xmls => Proper xml ∧ ProperAll xmls

end

end Reference

/-- The current node is the tag of the open element, `top`, or a tag below
it; `names` are the names on the way up. -/
inductive Over (top : Cursor Head) : List Str → Cursor Head → Prop where
  | here : Over top [] top
  | under {names : List Str} {cursor parent : Cursor Head} :
      Over top names parent → cursor.up = some parent →
      cursor.tree.label.depth = parent.tree.label.depth + 1 →
      Over top (Node.getName cursor.tree :: names) cursor

namespace Over

variable {top current : Cursor Head} {names : List Str}

theorem depth_eq (beneath : Over top names current) :
    current.tree.label.depth = top.tree.label.depth + names.length := by
  induction beneath with
  | here => rfl
  | under _ _ depth induction =>
      rw [depth, induction]
      simp only [List.length_cons]
      omega

theorem ancestor_eq (beneath : Over top names current) :
    current.ancestor names.length = some top := by
  induction beneath with
  | here => rfl
  | under _ step _ induction =>
      simp [Cursor.ancestor, step, induction]

/-- A node one level below the open element is attached to that element. -/
theorem makeRelationship_eq (beneath : Over top names current) (dcl : Dcl)
    (name : Str) :
    makeRelationship dcl name (top.tree.label.depth + 1) current =
      .value names.length := by
  have depth := beneath.depth_eq
  have reached := beneath.ancestor_eq
  unfold makeRelationship
  cases beneath with
  | here =>
      rw [if_neg (by omega), if_pos (by omega)]
      rfl
  | @under names _ parent above step here =>
      cases names with
      | nil =>
          simp only [List.length_cons, List.length_nil] at depth
          rw [if_pos (by omega)]
          simp [step]
      | cons first names =>
          simp only [List.length_cons] at depth
          rw [if_neg (by omega), if_neg (by omega)]
          have steps : current.tree.label.depth -
              (top.tree.label.depth + 1) = (first :: names).length := by
            simp only [List.length_cons]
            omega
          simp only [step, steps]
          rw [above.ancestor_eq]
          simp only [List.length_cons, Outcome.value.injEq]
          omega

/-- Appending to the open element leaves the current node below it. -/
theorem addAt (beneath : Over top names current) (child : Node) :
    Over (top.addAt 0 child) names (current.addAt names.length child) := by
  induction beneath with
  | here => exact .here
  | @under names cursor parent above step depth induction =>
      have named : Node.getName cursor.tree =
          Node.getName (cursor.addAt (names.length + 1) child).tree := by
        simp [Node.getName]
      rw [named]
      apply Over.under induction (Cursor.up_addAt step child)
      simpa using depth

/-- The open element becomes a tag below its own parent. -/
theorem close (beneath : Over top names current) {parent : Cursor Head}
    (step : top.up = some parent)
    (depth : top.tree.label.depth = parent.tree.label.depth + 1) :
    Over parent (names ++ [Node.getName top.tree]) current := by
  induction beneath with
  | here => exact .under .here step depth
  | under _ here level induction => exact .under induction here level

/-- A change of the current node changes the open element with it. -/
theorem change (beneath : Over top names current) {changed : Node}
    (same : changed.label = current.tree.label) {more : Nat}
    (grown : changed.pathLength current.frames.length =
      current.tree.pathLength current.frames.length + more) :
    ∃ tree : Node, tree.label = top.tree.label ∧
      Over { top with tree } names { current with tree := changed } ∧
      tree.pathLength top.frames.length =
        top.tree.pathLength top.frames.length + more := by
  induction beneath generalizing changed with
  | here => exact ⟨changed, same, .here, grown⟩
  | @under names cursor parent above step depth induction =>
      obtain ⟨tree, frames⟩ := cursor
      cases frames with
      | nil => simp [Cursor.up] at step
      | cons frame frames =>
          simp only [Cursor.up, Option.some.injEq] at step
          rw [← step] at induction depth
          have outer : (frame.close changed).pathLength frames.length =
              (frame.close tree).pathLength frames.length + more := by
            simp only [List.length_cons] at grown
            simp only [Frame.close, LabelTree.pathLength,
              LabelTree.pathLengthAll_append, LabelTree.pathLengthAll, grown]
            omega
          obtain ⟨whole, label, beneath, length⟩ :=
            @induction (frame.close changed) rfl outer
          refine ⟨whole, label, ?_, length⟩
          have named : Node.getName tree = Node.getName changed := by
            simp only [Node.getName]
            rw [same]
          simp only at same
          rw [show Node.getName (Cursor.mk tree (frame :: frames)).tree =
            Node.getName (Cursor.mk changed (frame :: frames)).tree from named]
          apply Over.under beneath rfl
          simp only [same]
          exact depth

end Over

/-- How the open element has changed when nodes that stand for `nodes` have
been read.  Whatever stands in the wrong place stands too deep. -/
structure Fills (top : Cursor Head) (nodes : List Node)
    (inPlace ordinary : Prop) (tree : Node) : Prop where
  label : tree.label = top.tree.label
  filled : inPlace → ∃ added : List Node,
    tree.childs = top.tree.childs ++ added ∧
      added.map Node.plain = nodes ∧
      (ordinary → Node.LeveledAll (top.tree.label.depth + 1) added)
  least : top.tree.pathLength top.frames.length +
      LabelTree.pathLengthAll (top.frames.length + 1) nodes ≤
    tree.pathLength top.frames.length
  more : ¬ inPlace → top.tree.pathLength top.frames.length +
      LabelTree.pathLengthAll (top.frames.length + 1) nodes <
    tree.pathLength top.frames.length

namespace Fills

theorem refl (top : Cursor Head) : Fills top [] True True top.tree where
  label := rfl
  filled := fun _ => ⟨[], by simp, rfl, fun _ => trivial⟩
  least := by simp [LabelTree.pathLengthAll]
  more := by simp

theorem congr {top : Cursor Head} {nodes : List Node}
    {inPlace otherwise ordinary known : Prop} {tree : Node}
    (fills : Fills top nodes inPlace ordinary tree)
    (same : inPlace ↔ otherwise) (weaker : known → ordinary) :
    Fills top nodes otherwise known tree where
  label := fills.label
  filled := by
    intro holds
    obtain ⟨added, childs, stands, levels⟩ := fills.filled (same.mpr holds)
    exact ⟨added, childs, stands, fun given => levels (weaker given)⟩
  least := fills.least
  more := fun wrong => fills.more fun holds => wrong (same.mp holds)

theorem leveledAll_append {depth : Nat} {left right : List Node}
    (first : Node.LeveledAll depth left)
    (second : Node.LeveledAll depth right) :
    Node.LeveledAll depth (left ++ right) := by
  induction left with
  | nil => exact second
  | cons node nodes induction => exact ⟨first.1, induction first.2⟩

theorem trans {top : Cursor Head} {first second : List Node}
    {firstInPlace secondInPlace firstOrdinary secondOrdinary : Prop}
    {middle tree : Node}
    (one : Fills top first firstInPlace firstOrdinary middle)
    (two : Fills { top with tree := middle } second secondInPlace
      secondOrdinary tree) :
    Fills top (first ++ second) (firstInPlace ∧ secondInPlace)
      (firstOrdinary ∧ secondOrdinary) tree where
  label := two.label.trans one.label
  filled := by
    intro inPlace
    obtain ⟨added, childs, stands, levels⟩ := one.filled inPlace.1
    obtain ⟨later, moreChilds, moreStands, moreLevels⟩ :=
      two.filled inPlace.2
    refine ⟨added ++ later, ?_, by simp [stands, moreStands], ?_⟩
    · simp only at moreChilds
      rw [moreChilds, childs, List.append_assoc]
    · intro ordinary
      have deeper := moreLevels ordinary.2
      simp only [one.label] at deeper
      exact leveledAll_append (levels ordinary.1) deeper
  least := by
    have left := one.least
    have right := two.least
    simp only at right
    rw [LabelTree.pathLengthAll_append]
    omega
  more := by
    intro wrong
    have left := one.least
    have right := two.least
    simp only at right
    rw [LabelTree.pathLengthAll_append]
    by_cases inPlace : firstInPlace
    · have strict := two.more fun later => wrong ⟨inPlace, later⟩
      simp only at strict
      omega
    · have strict := one.more inPlace
      omega

theorem pathLength_addChild (depth : Nat) (tree child : Node) :
    (tree.addChild child).pathLength depth =
      tree.pathLength depth + child.pathLength (depth + 1) := by
  cases tree with
  | node head childs =>
      simp [LabelTree.addChild, LabelTree.pathLength, LabelTree.pathLengthAll]
      omega

/-- An element that has been read becomes a child of the open element. -/
theorem child {top : Cursor Head} {head : Head} {frames : List (Frame Head)}
    {nodes : List Node} {inPlace ordinary : Prop} {inner : Node}
    (enclosed : Fills ⟨.node head [], frames⟩ nodes inPlace ordinary inner)
    (deeper : frames.length = top.frames.length + 1)
    (depth : head.depth = top.tree.label.depth + 1) :
    Fills top [.node head.plain nodes] inPlace ordinary
      (top.tree.addChild inner) where
  label := rfl
  filled := by
    intro holds
    obtain ⟨added, childs, stands, levels⟩ := enclosed.filled holds
    have whole : inner = .node head added := by
      have label := enclosed.label
      cases inner with
      | node label inside =>
          simp only [LabelTree.childs_node, List.nil_append] at childs
          simp only [LabelTree.label_node] at label
          rw [childs, label]
    refine ⟨[inner], rfl, ?_, ?_⟩
    · simp only [List.map_cons, List.map_nil, whole, Node.plain, LabelTree.map,
        LabelTree.mapAll_eq]
      rw [← stands]
      rfl
    · intro known
      rw [whole]
      refine ⟨⟨depth, ?_⟩, trivial⟩
      rw [← depth]
      exact levels known
  least := by
    have inside := enclosed.least
    simp only [LabelTree.pathLength, LabelTree.pathLengthAll, deeper] at inside
    rw [pathLength_addChild]
    simp only [LabelTree.pathLengthAll, LabelTree.pathLength]
    omega
  more := by
    intro wrong
    have inside := enclosed.more wrong
    simp only [LabelTree.pathLength, LabelTree.pathLengthAll, deeper] at inside
    rw [pathLength_addChild]
    simp only [LabelTree.pathLengthAll, LabelTree.pathLength]
    omega

end Fills

/-- Linking a tag changes nothing but its link. -/
theorem setLink_leaf (definition : Option Nat) (head : Head) :
    ∃ linked : Head,
      Node.setLink definition (.node head []) = .node linked [] ∧
        linked.depth = head.depth ∧
        linked.kind.getName = head.kind.getName ∧
        linked.plain = head.plain := by
  refine ⟨{ head with kind := head.kind.relink fun _ => definition }, rfl, rfl,
    Kind.getName_relink _ _, ?_⟩
  simp [Head.plain, Kind.relink_relink]

theorem plain_adopt (depth : Nat) (node : Node) :
    (node.adopt depth).plain = node.plain := by
  cases node with
  | node head childs =>
      simp [Node.adopt, Node.plain, LabelTree.setLabel, LabelTree.map,
        Head.plain]

theorem plain_renumber (next : Nat) (node : Node) :
    (node.renumber next).plain = node.plain := by
  unfold Node.renumber Node.plain
  rw [LabelTree.map_map]
  simp [Head.plain, Kind.relink_relink]
  rfl

theorem pathLength_plain (depth : Nat) (node : Node) :
    node.plain.pathLength depth = node.pathLength depth :=
  LabelTree.pathLength_map _ _ _

theorem pathLengthAll_plain (depth : Nat) (nodes : List Node) :
    LabelTree.pathLengthAll depth (nodes.map Node.plain) =
      LabelTree.pathLengthAll depth nodes := by
  induction nodes with
  | nil => rfl
  | cons node nodes induction =>
      simp only [List.map_cons, LabelTree.pathLengthAll, pathLength_plain,
        induction]

theorem childs_renumber (next : Nat) (node : Node) :
    (node.renumber next).childs.map Node.plain =
      node.childs.map Node.plain := by
  have whole := plain_renumber next node
  cases same : node.renumber next with
  | node label childs =>
      rw [same] at whole
      cases node with
      | node head inside =>
          simp only [Node.plain, LabelTree.map, LabelTree.mapAll_eq,
            LabelTree.node.injEq] at whole
          exact whole.2

/-- The children of an included root end up behind those of the current
node. -/
theorem moveChilds_eq (root : Node) (current : Cursor Head) :
    moveChilds root current =
      { current with
        tree := .node current.tree.label (current.tree.childs ++
          root.childs.map (Node.adopt current.tree.label.depth)) } := by
  unfold moveChilds
  generalize root.childs = childs
  induction childs generalizing current with
  | nil =>
      obtain ⟨tree, frames⟩ := current
      cases tree with
      | node head inside => simp
  | cons child childs induction =>
      rw [List.foldl_cons, induction]
      simp [Cursor.addAt, LabelTree.addChild]

theorem Over.length_frames {top current : Cursor Head} {names : List Str}
    (beneath : Over top names current) :
    current.frames.length = top.frames.length + names.length := by
  induction beneath with
  | here => rfl
  | under _ step _ induction =>
      rw [Cursor.length_frames_of_up step, induction]
      simp only [List.length_cons]
      omega

section Reading

variable (api : ParserApi) (load : Str → Outcome Exc (Option Node × Nat))
  (url : Str)

def read : List ReaderEvent → P Unit :=
  Prog.forEach (processNode api load url)

/-- Reading the events below an element of the given depth, with the current
node below it as `names` says: if the nodes can be created, they fill the
element and the current node is where `after` says; else reading ends as the
creation of the first such node does. -/
def Reads (events : List ReaderEvent) (depth : Nat) (names after : List Str)
    (inPlace ordinary : Prop) (reference : Outcome Exc (List Node)) : Prop :=
  ∀ (top current : Cursor Head) (next : Nat),
    top.tree.label.depth = depth → Over top names current →
    match reference with
    | .value nodes =>
        ∃ (tree : Node) (reached : Cursor Head) (later : Nat),
          read api load url events ⟨some current, next⟩ =
              ⟨⟨some reached, later⟩, [], .value ()⟩ ∧
            Fills top nodes inPlace ordinary tree ∧
            Over { top with tree } after reached
    | .error exception =>
        (read api load url events ⟨some current, next⟩).outcome =
          .error exception
    | .halt reason =>
        (read api load url events ⟨some current, next⟩).outcome = .halt reason

namespace Reads

variable {api load url}

theorem congr {events : List ReaderEvent} {depth : Nat}
    {names after : List Str} {inPlace otherwise ordinary known : Prop}
    {reference : Outcome Exc (List Node)}
    (reads : Reads api load url events depth names after inPlace ordinary
      reference)
    (same : inPlace ↔ otherwise) (weaker : known → ordinary) :
    Reads api load url events depth names after otherwise known
      reference := by
  intro top current next level beneath
  have ran := reads top current next level beneath
  cases reference with
  | value nodes =>
      obtain ⟨tree, reached, later, ran, fills, below⟩ := ran
      exact ⟨tree, reached, later, ran, fills.congr same weaker, below⟩
  | error exception => exact ran
  | halt reason => exact ran

theorem nil (depth : Nat) (names : List Str) :
    Reads api load url [] depth names names True True (pure []) := by
  intro top current next _ beneath
  exact ⟨top.tree, current, next, rfl, Fills.refl top, beneath⟩

theorem append {first second : List ReaderEvent} {depth : Nat}
    {names middle after : List Str}
    {firstInPlace secondInPlace firstOrdinary secondOrdinary : Prop}
    {one two : Outcome Exc (List Node)}
    (left : Reads api load url first depth names middle firstInPlace
      firstOrdinary one)
    (right : Reads api load url second depth middle after secondInPlace
      secondOrdinary two) :
    Reads api load url (first ++ second) depth names after
      (firstInPlace ∧ secondInPlace) (firstOrdinary ∧ secondOrdinary)
      (do let nodes ← one; let rest ← two; pure (nodes ++ rest)) := by
  intro top current next level beneath
  have began := left top current next level beneath
  unfold read at *
  rw [Prog.forEach_append]
  cases one with
  | value nodes =>
      obtain ⟨tree, reached, later, ran, fills, below⟩ := began
      have ended := right { top with tree } reached later
        (by rw [fills.label]; exact level) below
      unfold read at ended
      rw [Prog.bind_silent ran]
      cases two with
      | value rest =>
          obtain ⟨final, last, number, ranRest, fillsRest, belowRest⟩ := ended
          exact ⟨final, last, number, ranRest, fills.trans fillsRest, belowRest⟩
      | error exception => exact ended
      | halt reason => exact ended
  | error exception => exact Prog.outcome_bind_error began _
  | halt reason => exact Prog.outcome_bind_halt began _

theorem other (depth : Nat) (names : List Str) :
    Reads api load url [.other] depth names names True True (pure []) := by
  intro top current next _ beneath
  exact ⟨top.tree, current, next, rfl, Fills.refl top, beneath⟩

/-- A text or a CDATA section becomes a child of the open element. -/
theorem text {event : ReaderEvent} {depth : Nat} {kind : Kind}
    {name value : Str} (names : List Str)
    (process : processNode api load url event =
      processText api kind name value (depth + 1))
    (linked : (Head.plain ⟨0, 0, kind, [], setText value⟩) =
      ⟨0, 0, kind, [], setText value⟩) :
    Reads api load url [event] depth names names True True
      (pure [.node ⟨0, 0, kind, [], setText value⟩ []]) := by
  intro top current next level beneath
  let head : Head := ⟨next, depth + 1, kind, [], setText value⟩
  have adopted : Node.adopt top.tree.label.depth (.node head []) =
      .node head [] := by
    simp [Node.adopt, LabelTree.setLabel, head, level]
  have placed : addLeaf current names.length head =
      some (current.addAt names.length (.node head [])) := by
    simp [addLeaf, beneath.ancestor_eq, adopted]
  refine ⟨top.tree.addChild (.node head []),
    current.addAt names.length (.node head []), next + 1, ?_, ?_,
    beneath.addAt (.node head [])⟩
  · have related := beneath.makeRelationship_eq api.dcl name
    rw [level] at related
    unfold read
    rw [Prog.forEach_singleton, process]
    change attach api addLeaf name head current ⟨some current, next⟩ = _
    have found : ofOutcome (makeRelationship api.dcl name head.depth current)
        ⟨some current, next⟩ =
        ⟨⟨some current, next⟩, [], .value names.length⟩ := by
      simp [ofOutcome, Prog.act, head, related]
    unfold attach
    rw [Prog.bind_silent found, placed]
    rfl
  · have inside : Fills top _ _ _ _ := Fills.child
      (Fills.refl ⟨.node head [], ⟨top.tree.label, top.tree.childs, []⟩ ::
        top.frames⟩) rfl (by simp [head, level])
    have same : head.plain = ⟨0, 0, kind, [], setText value⟩ := by
      rw [← linked]
      rfl
    rw [same] at inside
    exact inside

variable (load url) in
/-- A tag that has been created is entered. -/
theorem start {element : Element} {created : Kind}
    (creation : elementKind api element = .value (some created))
    (ordinary : created.getName ≠ "include".toList)
    {top current : Cursor Head} {names : List Str} (next : Nat)
    (beneath : Over top names current) :
    ∃ head : Head, head.depth = top.tree.label.depth + 1 ∧
      head.kind.getName = created.getName ∧
      head.plain =
        Head.plain ⟨0, 0, created, processAttributes api element, []⟩ ∧
      processElement api load url element (top.tree.label.depth + 1)
          ⟨some current, next⟩ =
        ⟨⟨some (top.descend (.node head [])), next + 1⟩, [], .value ()⟩ := by
  let fresh : Head := ⟨next, top.tree.label.depth + 1, created,
    processAttributes api element, []⟩
  have adopted : Node.adopt top.tree.label.depth (.node fresh []) =
      .node fresh [] := by
    simp [Node.adopt, LabelTree.setLabel, fresh]
  let entered := top.descend (.node fresh [])
  obtain ⟨head, linked, depth, named, plain⟩ := setLink_leaf
    (link (Node.getName entered.tree) entered.tree entered.frames) fresh
  refine ⟨head, depth, named, plain, ?_⟩
  have placed : addElement current names.length fresh =
      some (top.descend (.node head [])) := by
    simp only [addElement, beneath.ancestor_eq, Option.map_some, adopted]
    have same : entered.tree = .node fresh [] := rfl
    rw [show top.descend (.node fresh []) = entered from rfl]
    rw [← same] at linked
    rw [linked]
    rfl
  have found : ofOutcome (makeRelationship api.dcl element.name.text
      fresh.depth current) ⟨some current, next⟩ =
      ⟨⟨some current, next⟩, [], .value names.length⟩ := by
    simp [ofOutcome, Prog.act, fresh,
      beneath.makeRelationship_eq api.dcl element.name.text]
  have known : ofOutcome (elementKind api element) ⟨some current, next⟩ =
      ⟨⟨some current, next⟩, [], .value (some created)⟩ := by
    simp [ofOutcome, Prog.act, creation]
  unfold processElement
  rw [Prog.bind_silent known]
  simp only [beq_iff_eq, if_neg ordinary]
  change attach api addElement element.name.text fresh current
    ⟨some current, next⟩ = _
  unfold attach
  rw [Prog.bind_silent found, placed]
  rfl

variable (load url) in
/-- An element that cannot be created ends the reading. -/
theorem processElement_error {element : Element} {exception : Exc}
    (creation : elementKind api element = .error exception) (depth : Nat)
    (state : Parsing) :
    processElement api load url element depth state =
      ⟨state, [], .error exception⟩ := by
  unfold processElement
  apply Prog.bind_error
  simp [ofOutcome, Prog.act, creation]

variable (load url) in
theorem processElement_halt {element : Element} {reason : Halt}
    (creation : elementKind api element = .halt reason) (depth : Nat)
    (state : Parsing) :
    processElement api load url element depth state =
      ⟨state, [], .halt reason⟩ := by
  unfold processElement
  apply Prog.bind_halt
  simp [ofOutcome, Prog.act, creation]

/-- The end of an element. -/
theorem processEnd_eq {top current : Cursor Head} {first : Str}
    {names : List Str} (next : Nat)
    (beneath : Over top (first :: names) current) :
    ∃ reached : Cursor Head,
      processEnd ⟨some current, next⟩ =
          ⟨⟨some reached, next⟩, [], .value ()⟩ ∧
        Over top
          (if first = "module".toList then first :: names else names)
          reached := by
  cases beneath with
  | @under _ _ parent above step depth =>
      by_cases named : Node.getName current.tree = "module".toList
      · refine ⟨current, by simp [processEnd, Prog.act, named], ?_⟩
        rw [if_pos named]
        exact .under above step depth
      · refine ⟨parent, ?_, ?_⟩
        · simp only [processEnd, Prog.act, beq_iff_eq, if_neg named, step]
        · rw [if_neg named]
          exact above

end Reads

end Reading

end DbpxParser

end DbPager
