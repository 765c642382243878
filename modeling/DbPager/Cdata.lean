import Mathlib.Data.List.Chain
import DbPager.Nesting
import DbPager.Rendering

/-!
# CDATA sections

The text of a CDATA section goes through `set_text` when the section is
parsed, is written with stand-ins for the delimiters inside of HTML, passes
the conversions of the elements around it and is restored by the outermost
one.  All stages but the first leave the text as it is.
-/

namespace DbPager

open Effect

variable {W : Type}

/-- No control characters, and no two blanks in a row. -/
def Settled (text : Str) : Prop :=
  (∀ c ∈ text, c.toNat ≤ 32 → c = ' ') ∧
    text.IsChain fun first second => ¬ (first = ' ' ∧ second = ' ')

theorem settled_cons {c : Char} {text : Str} :
    Settled (c :: text) ↔
      (c.toNat ≤ 32 → c = ' ') ∧ (c = ' ' → text.head? ≠ some ' ') ∧
        Settled text := by
  unfold Settled
  rw [List.forall_mem_cons, List.isChain_cons]
  constructor
  · rintro ⟨⟨one, all⟩, next, chain⟩
    refine ⟨one, fun blank first => ?_, all, chain⟩
    exact next ' ' first ⟨blank, rfl⟩
  · rintro ⟨one, next, all, chain⟩
    refine ⟨⟨one, all⟩, fun second first both => ?_, chain⟩
    rw [both.2] at first
    exact next both.1 first

theorem setText_go_eq_self_iff (wasSpace : Bool) (text : Str) :
    setText.go wasSpace text = text ↔
      (wasSpace = true → text.head? ≠ some ' ') ∧ Settled text := by
  induction text generalizing wasSpace with
  | nil =>
      constructor
      · intro _
        exact ⟨fun _ => by simp, List.forall_mem_nil _, .nil⟩
      · intro _
        rfl
  | cons c text induction =>
      rw [setText.go, settled_cons, List.head?_cons]
      by_cases blank : c.toNat ≤ 32
      · rw [if_pos blank]
        cases wasSpace with
        | true =>
            -- A blank behind a blank is dropped, so the text gets shorter.
            constructor
            · intro same
              have shorter := length_setText_go true text
              rw [if_pos rfl] at same
              rw [same, List.length_cons] at shorter
              omega
            · rintro ⟨first, settled, -⟩
              rw [settled blank] at first
              exact absurd rfl (first rfl)
        | false =>
            rw [if_neg Bool.false_ne_true, List.cons.injEq, induction]
            constructor
            · rintro ⟨space, first, settled⟩
              exact ⟨fun never => absurd never Bool.false_ne_true,
                fun _ => space.symm, fun _ => first rfl, settled⟩
            · rintro ⟨-, space, next, settled⟩
              exact ⟨(space blank).symm, fun _ => next (space blank), settled⟩
      · rw [if_neg blank, List.cons.injEq, induction]
        have other : c ≠ ' ' := by
          rintro rfl
          exact blank (by decide)
        constructor
        · rintro ⟨-, -, settled⟩
          refine ⟨fun _ same => other (Option.some.inj same), ?_, ?_, settled⟩
          · exact fun low => absurd low blank
          · exact fun same => absurd same other
        · rintro ⟨-, -, -, settled⟩
          exact ⟨rfl, fun never => absurd never Bool.false_ne_true, settled⟩

/-- The texts `set_text` leaves as they are. -/
theorem setText_eq_self_iff (text : Str) : setText text = text ↔ Settled text := by
  rw [setText, setText_go_eq_self_iff]
  constructor
  · exact And.right
  · exact fun settled => ⟨fun never => absurd never Bool.false_ne_true,
      settled⟩

/-- Whatever `set_text` stores has no control characters. -/
theorem noMarkers_setText (text : Str) : Html.NoMarkers (setText text) := by
  have go (wasSpace : Bool) : Html.NoMarkers (setText.go wasSpace text) := by
    induction text generalizing wasSpace with
    | nil => exact List.forall_mem_nil _
    | cons c text induction =>
        rw [setText.go]
        split
        · split
          · exact induction true
          · exact List.forall_mem_cons.mpr ⟨by decide, induction true⟩
        · next high =>
            refine List.forall_mem_cons.mpr ⟨?_, induction false⟩
            rw [Html.isMarker]
            simp only [Bool.and_eq_false_iff, decide_eq_false_iff_not]
            omega
  exact go false

/-- A program that runs another one once, in the state `entered`, writes
`left` before and `right` after it, and leaves its output alone. -/
structure Around (program inner : M W Unit)
    (state entered reached final : St W) (left right : Str) : Prop where
  split : ∃ first second : M W Unit,
    program state = (first >>= fun _ => inner >>= fun _ => second) state ∧
      first state = ⟨entered, left, .value ()⟩ ∧
      second reached = ⟨final, right, .value ()⟩

theorem Around.run_eq {program inner : M W Unit}
    {state entered reached final : St W} {left right own : Str}
    (around : Around program inner state entered reached final left right)
    (ran : inner entered = ⟨reached, own, .value ()⟩) :
    program state = ⟨final, left ++ (own ++ right), .value ()⟩ := by
  obtain ⟨first, second, same, before, after⟩ := around.split
  rw [same, Prog.bind_eq before, Prog.bind_eq ran, after]

/-- The children of a tag are executed in order. -/
theorem Around.childs {interp : Interp W} {self : Loc} {caller : Option Loc}
    {before after : List Tag} {child : Tag}
    {state entered reached final : St W} {left right : Str}
    (listed : self.tag.childs = before ++ child :: after)
    (first : Prog.forEach (fun tag => interp.run (self.child tag) caller)
      before state = ⟨entered, left, .value ()⟩)
    (second : Prog.forEach (fun tag => interp.run (self.child tag) caller)
      after reached = ⟨final, right, .value ()⟩) :
    Around (interp.executeChilds self caller)
      (interp.run (self.child child) caller) state entered reached final left
      (right ++ self.tag.text) := by
  refine ⟨⟨_, Prog.forEach (fun tag => interp.run (self.child tag) caller)
    after >>= fun _ => Prog.emit self.tag.text, ?_, first, ?_⟩⟩
  · rw [Interp.executeChilds, listed, Prog.forEach_append, Prog.forEach]
    simp only [Prog.bind_assoc]
  · rw [Prog.bind_eq second]
    rfl

/-- Nothing stands between the delimiters of a void element. -/
def closesAtOnce (self : Loc) (data : Str) : Bool :=
  voidElements.contains self.tag.getName && data.isEmpty

/-- What an element writes up to a place in its content. -/
def opened (self : Loc) (attributes data left : Str) : Str :=
  Char.ofNat 3 :: self.tag.getName ++ attributes ++
    if closesAtOnce self data then []
    else Char.ofNat 4 :: TagUnknown.convert self left

/-- What an element writes from a place in its content on. -/
def closed (self : Loc) (data right : Str) : Str :=
  if closesAtOnce self data then ['/', Char.ofNat 4]
  else TagUnknown.convert self right ++ Char.ofNat 3 :: '/' ::
    self.tag.getName ++ [Char.ofNat 4]

theorem convert_append (self : Loc) (left right : Str) :
    TagUnknown.convert self (left ++ right) =
      TagUnknown.convert self left ++ TagUnknown.convert self right := by
  rw [Html.convert_eq, Html.convertWith_eq, Html.convertWith_eq,
    Html.convertWith_eq, List.flatMap_append]

/-- No conversion changes what has been written with stand-ins. -/
theorem convert_stub (self : Loc) (text : Str) :
    TagUnknown.convert self (stub text) = stub text := by
  rw [Html.convert_eq]
  exact Html.convertWith_plain _ fun c member =>
    @Html.not_isDelimiter_convertWith true text c member

theorem element_split (self : Loc) (attributes left text right : Str) :
    Char.ofNat 3 :: self.tag.getName ++ (attributes ++
      TagUnknown.content self.tag.getName (TagUnknown.convert self)
        (left ++ (stub text ++ right))) =
      opened self attributes (left ++ (stub text ++ right)) left ++
        (stub text ++ closed self (left ++ (stub text ++ right)) right) := by
  unfold TagUnknown.content opened closed closesAtOnce
  split
  · next void =>
      have nothing : stub text = [] := by
        simp only [Bool.and_eq_true, List.isEmpty_iff, List.append_eq_nil_iff]
          at void
        exact void.2.2.1
      simp [nothing]
  · rw [convert_append, convert_append, convert_stub]
    simp

/-- The run of an element whose children write `data`. -/
theorem realExecute_run {interp : Interp W} {self : Loc}
    {caller : Option Loc} {state started final : St W}
    {attributes data : Str}
    (params : Prog.forEach (TagUnknown.writeParam interp self)
      self.tag.params state = ⟨started, attributes, .value ()⟩)
    (childs : interp.executeChilds self caller started =
      ⟨final, data, .value ()⟩) :
    TagUnknown.realExecute interp self caller state =
      ⟨final, Char.ofNat 3 :: self.tag.getName ++ (attributes ++
        TagUnknown.content self.tag.getName (TagUnknown.convert self) data),
        .value ()⟩ := by
  have opening : (Prog.emit (Char.ofNat 3 :: self.tag.getName) : M W Unit)
      state = ⟨state, Char.ofNat 3 :: self.tag.getName, .value ()⟩ := rfl
  unfold TagUnknown.realExecute
  rw [Prog.bind_eq opening, Prog.bind_eq params,
    Prog.bind_silent (Prog.capture_eq childs)]
  rfl

/-- Whether the mark of the outermost element is set. -/
def isInside (state : St W) : Bool :=
  !(Chain.getValue htmlFirst state.contexts).isEmpty

section Elements

variable {outside : Outside W} {depth : Nat} {self : Loc} {name : XmlName}
  {caller : Option Loc} {state marked ended final : St W} {out : Str}

/-- An element inside of another one is written as it is. -/
theorem execute_nested (element : self.tag.kind = .unknown name)
    (mark : isInside state = true)
    (ran : TagUnknown.realExecute
      (Interp.ofRun outside depth (execute outside depth)) self caller state =
        ⟨final, out, .value ()⟩) :
    execute outside (depth + 1) self caller state =
      ⟨final, out, .value ()⟩ := by
  have root : (Chain.getValue htmlFirst state.contexts).isEmpty = false := by
    simpa [isInside] using mark
  unfold execute dispatch
  rw [element]
  simp only
  unfold TagUnknown.execute
  rw [Prog.bind_silent (M.getValue_eq htmlFirst state), root]
  exact ran

/-- The outermost element restores the delimiters. -/
theorem execute_outermost (element : self.tag.kind = .unknown name)
    (mark : isInside state = false)
    (added : M.addValue outside.dcl htmlFirst "1".toList
      (state.withLayer ∅) = ⟨marked, [], .value ()⟩)
    (ran : TagUnknown.realExecute
      (Interp.ofRun outside depth (execute outside depth)) self caller marked =
        ⟨ended, out, .value ()⟩)
    (left : M.leave ended = ⟨final, [], .value ()⟩) :
    execute outside (depth + 1) self caller state =
      ⟨final, htmlentitiesout out, .value ()⟩ := by
  have root : (Chain.getValue htmlFirst state.contexts).isEmpty = true := by
    simpa [isInside] using mark
  have body : (do
      M.addValue outside.dcl htmlFirst "1".toList
      let data ← (TagUnknown.realExecute
        (Interp.ofRun outside depth (execute outside depth)) self
        caller).capture
      Prog.emit (htmlentitiesout data)) (state.withLayer ∅) =
      ⟨ended, htmlentitiesout out, .value ()⟩ := by
    rw [Prog.bind_silent added, Prog.bind_silent (Prog.capture_eq ran)]
    rfl
  unfold execute dispatch
  rw [element]
  simp only
  unfold TagUnknown.execute
  rw [Prog.bind_silent (M.getValue_eq htmlFirst state), root]
  exact M.withLayer_left body left

end Elements

/-- A run that executes the tag of a section once, directly or inside of HTML
elements: what it writes before the section and after it.  The Boolean says
whether the run is inside of an element; the mark says the same wherever it
is asked for. -/
inductive Carries (outside : Outside W) (cdata : Tag) :
    Bool → M W Unit → St W → Str → Str → St W → Prop
  /-- The tag itself. -/
  | here {depth : Nat} {up : List Tag} {caller : Option Loc}
      {state : St W} :
      Carries outside cdata (isInside state)
        (execute outside (depth + 1) ⟨cdata, up⟩ caller) state [] [] state
  /-- A program that leaves the output of the inner one alone. -/
  | through {inside : Bool} {program inner : M W Unit}
      {state entered reached final : St W} {left right before after : Str}
      (around : Around program inner state entered reached final left right)
      (carries : Carries outside cdata inside inner entered before after
        reached) :
      Carries outside cdata inside program state (left ++ before)
        (after ++ right) final
  /-- An element inside of another one. -/
  | nested {depth : Nat} {self : Loc} {name : XmlName}
      {caller : Option Loc} {state started final : St W}
      {attributes before after : Str}
      (element : self.tag.kind = .unknown name)
      (mark : isInside state = true)
      (params : Prog.forEach (TagUnknown.writeParam
        (Interp.ofRun outside depth (execute outside depth)) self)
        self.tag.params state = ⟨started, attributes, .value ()⟩)
      (carries : Carries outside cdata true
        ((Interp.ofRun outside depth (execute outside depth)).executeChilds
          self caller) started before after final) :
      Carries outside cdata true (execute outside (depth + 1) self caller)
        state
        (opened self attributes (before ++ (stub cdata.text ++ after))
          before)
        (closed self (before ++ (stub cdata.text ++ after)) after) final
  /-- The outermost element. -/
  | outermost {depth : Nat} {self : Loc} {name : XmlName}
      {caller : Option Loc} {state marked started ended final : St W}
      {attributes before after : Str}
      (element : self.tag.kind = .unknown name)
      (mark : isInside state = false)
      (added : M.addValue outside.dcl htmlFirst "1".toList
        (state.withLayer ∅) = ⟨marked, [], .value ()⟩)
      (params : Prog.forEach (TagUnknown.writeParam
        (Interp.ofRun outside depth (execute outside depth)) self)
        self.tag.params marked = ⟨started, attributes, .value ()⟩)
      (carries : Carries outside cdata true
        ((Interp.ofRun outside depth (execute outside depth)).executeChilds
          self caller) started before after ended)
      (left : M.leave ended = ⟨final, [], .value ()⟩) :
      Carries outside cdata false (execute outside (depth + 1) self caller)
        state
        (htmlentitiesout (opened self attributes
          (before ++ (stub cdata.text ++ after)) before))
        (htmlentitiesout (closed self
          (before ++ (stub cdata.text ++ after)) after)) final

theorem Carries.inside {outside : Outside W} {cdata : Tag} {depth : Nat}
    {up : List Tag} {caller : Option Loc} {state : St W} {mode : Bool}
    (mark : isInside state = mode) :
    Carries outside cdata mode (execute outside (depth + 1) ⟨cdata, up⟩ caller)
      state [] [] state :=
  mark ▸ .here

theorem htmlentitiesout_append (left right : Str) :
    htmlentitiesout (left ++ right) =
      htmlentitiesout left ++ htmlentitiesout right :=
  List.map_append

/-- The delimiters are restored. -/
theorem htmlentitiesout_stub {text : Str} (clean : Html.NoMarkers text) :
    htmlentitiesout (stub text) = text :=
  (Html.restores_value true text).2.mpr clean

/-- What the section itself writes. -/
def ownText (inside : Bool) (text : Str) : Str :=
  if inside then stub text else text

theorem Carries.run_eq {outside : Outside W} {addr : Nat} {text : Str}
    {inside : Bool} {program : M W Unit} {state final : St W}
    {before after : Str} (clean : Html.NoMarkers text)
    (carries : Carries outside (.mk addr .cdata [] [] text) inside program
      state before after final) :
    program state =
      ⟨final, before ++ (ownText inside text ++ after), .value ()⟩ := by
  induction carries with
  | here =>
      rename_i depth up caller state
      change TagCdata.execute _ state = _
      unfold TagCdata.execute ownText isInside
      rw [Prog.bind_silent (M.getValue_eq htmlFirst state)]
      cases (Chain.getValue htmlFirst state.contexts).isEmpty <;>
        simp [Prog.emit, Tag.text]
  | through around carries induction =>
      rw [around.run_eq induction]
      simp
  | nested element mark params carries induction =>
      have ran := realExecute_run params induction
      rw [ownText, if_pos rfl, element_split] at ran
      exact execute_nested element mark ran
  | outermost element mark added params carries left induction =>
      have ran := realExecute_run params induction
      rw [ownText, if_pos rfl, element_split] at ran
      rw [execute_outermost element mark added ran left,
        htmlentitiesout_append, htmlentitiesout_append,
        htmlentitiesout_stub clean]
      rfl

namespace DbpxParser

open Rose

/-- The node `process_node` makes of a CDATA section. -/
def cdataNode (addr depth : Nat) (content : Str) : Node :=
  .node ⟨addr, depth, .cdata, [], setText content⟩ []

/-- Whatever the document, the event of a section links this node into the
tree. -/
theorem processNode_cdata (api : ParserApi)
    (load : Str → Outcome Exc (Option Node × Nat)) (url content : Str)
    (depth next : Nat) (current : Cursor Head) :
    processNode api load url (.cdata content depth) ⟨some current, next⟩ =
      attach api addLeaf "#cdata-section".toList
        (cdataNode next depth content).label current ⟨some current, next⟩ :=
  rfl

/-- Comments and processing instructions have no tag. -/
def hasTag : Xml → Bool
  | .other => false
  | _ => true

/-- A section with the given content, and the path of its tag. -/
inductive CdataAt (content : Str) : List Nat → Xml → Prop
  | here : CdataAt content [] (.cdata content)
  | within {path : List Nat} {child : Xml} (element : Element)
      (before after : List Xml) (inner : CdataAt content path child) :
      CdataAt content (before.countP hasTag :: path)
        (.element element (before ++ child :: after))

variable {api : ParserApi}

theorem length_tags {xml : Xml} {nodes : List Node}
    (made : tags api xml = .value nodes) :
    nodes.length = [xml].countP hasTag := by
  cases xml with
  | empty element =>
      obtain ⟨head, -, same⟩ := Outcome.bind_eq_value.mp made
      cases same
      rfl
  | element element childs =>
      obtain ⟨head, -, rest⟩ := Outcome.bind_eq_value.mp made
      obtain ⟨below, -, same⟩ := Outcome.bind_eq_value.mp rest
      cases same
      rfl
  | text value => cases made; rfl
  | cdata value => cases made; rfl
  | other => cases made; rfl

theorem tagsAll_append {before after : List Xml} {nodes : List Node}
    (made : tagsAll api (before ++ after) = .value nodes) :
    ∃ left right, tagsAll api before = .value left ∧
      tagsAll api after = .value right ∧ nodes = left ++ right ∧
      left.length = before.countP hasTag := by
  induction before generalizing nodes with
  | nil => exact ⟨[], nodes, rfl, made, rfl, rfl⟩
  | cons xml before induction =>
      obtain ⟨first, one, rest⟩ := Outcome.bind_eq_value.mp made
      obtain ⟨others, all, same⟩ := Outcome.bind_eq_value.mp rest
      obtain ⟨left, right, ahead, behind, split, counted⟩ := induction all
      cases same
      refine ⟨first ++ left, right, ?_, behind, ?_, ?_⟩
      · exact Outcome.bind_eq_value.mpr
          ⟨first, one, Outcome.bind_eq_value.mpr ⟨left, ahead, rfl⟩⟩
      · rw [split, List.append_assoc]
      · have alone := length_tags one
        rw [List.countP_cons, List.countP_nil] at alone
        rw [List.length_append, List.countP_cons, alone, counted]
        omega

/-- The tag of a section stands where the section stands. -/
theorem tags_cdataAt {content : Str} {path : List Nat} {xml : Xml}
    (stands : CdataAt content path xml) {nodes : List Node}
    (made : tags api xml = .value nodes) :
    ∃ node, nodes = [node] ∧ node.at? path = some (cdataNode 0 0 content) := by
  induction stands generalizing nodes with
  | here =>
      cases made
      exact ⟨_, rfl, rfl⟩
  | within element before after inner induction =>
      obtain ⟨head, -, rest⟩ := Outcome.bind_eq_value.mp made
      obtain ⟨below, all, same⟩ := Outcome.bind_eq_value.mp rest
      cases same
      obtain ⟨left, right, -, behind, rfl, counted⟩ := tagsAll_append all
      obtain ⟨first, one, others⟩ := Outcome.bind_eq_value.mp behind
      obtain ⟨later, -, same⟩ := Outcome.bind_eq_value.mp others
      cases same
      obtain ⟨node, rfl, there⟩ := induction one
      refine ⟨_, rfl, ?_⟩
      rw [LabelTree.at?, LabelTree.childs_node, ← counted]
      simp [there]

theorem eq_cdataNode {node : Node} {content : Str}
    (same : node.plain = cdataNode 0 0 content) :
    ∃ addr level, node = cdataNode addr level content := by
  obtain ⟨⟨addr, level, kind, params, text⟩, childs⟩ := node
  simp only [Node.plain, LabelTree.map, Head.plain, cdataNode,
    LabelTree.node.injEq, Head.mk.injEq, true_and] at same
  obtain ⟨⟨linked, rfl, rfl⟩, below⟩ := same
  have leaf : childs = [] := by
    rw [LabelTree.mapAll_eq] at below
    exact List.map_eq_nil_iff.mp below
  have isCdata : kind = .cdata := by
    cases kind <;> first | rfl | cases linked
  rw [leaf, isCdata]
  exact ⟨addr, level, rfl⟩

/-- In the tree of a document without included files, the node of a section
stands where the section stands. -/
theorem parse_cdata {url : Str} {depth count : Nat} {document : Document}
    {root : Node} {content : Str} {path : List Nat}
    (source : api.fetch url = some ⟨document.events, none⟩)
    (ordinary : Ordinary api document.root)
    (childs : AllOrdinaryAll api (document.content.getD []))
    (stands : CdataAt content path
      (.element document.root (document.content.getD [])))
    (parsed : parse api (depth + 1) url = .value (some root, count)) :
    ∃ addr level, root.at? path = some (cdataNode addr level content) := by
  have isomorphic := parse_isomorphic depth source ordinary childs
  cases tree : documentTree api document with
  | error exception =>
      rw [tree, parsed] at isomorphic
      cases isomorphic
  | halt reason =>
      rw [tree, parsed] at isomorphic
      cases isomorphic
  | value node =>
      rw [tree, parsed] at isomorphic
      obtain ⟨other, total, same, stood, -⟩ := isomorphic
      cases same
      obtain ⟨head, made, rest⟩ := Outcome.bind_eq_value.mp tree
      obtain ⟨nodes, below, whole⟩ := Outcome.bind_eq_value.mp rest
      cases whole
      have tagged : tags api
          (.element document.root (document.content.getD [])) =
          .value [.node head.plain nodes] :=
        Outcome.bind_eq_value.mpr
          ⟨head, made, Outcome.bind_eq_value.mpr ⟨nodes, below, rfl⟩⟩
      obtain ⟨found, one, there⟩ := tags_cdataAt stands tagged
      cases one
      rw [← stood, Node.plain, LabelTree.at?_map, Option.map_eq_some_iff]
        at there
      obtain ⟨reached, here, same⟩ := there
      obtain ⟨addr, level, rfl⟩ := eq_cdataNode same
      exact ⟨addr, level, here⟩

end DbpxParser

mutual

/-- The tag the interpreter executes for a node of the parser. -/
def Node.toTag : Node → Tag
  | .node head childs =>
      .mk head.addr head.kind head.params (Node.toTags childs) head.text

def Node.toTags : List Node → List Tag
  | [] => []
  | node :: nodes => Node.toTag node :: Node.toTags nodes

end

/-- The event of a section links a node with its text into the tree, and in a
document without included files the node stands where the section stands.  In
the place of such a node the output has the content of the section, with every
run of blanks and control characters as one blank; it has the content itself
exactly when there is none but single blanks. -/
theorem cdata_output {outside : Outside W} {addr level : Nat} {content : Str}
    {program : M W Unit} {state final : St W} {before after : Str}
    (carries : Carries outside
      (DbpxParser.cdataNode addr level content).toTag false program state
      before after final) :
    (∀ (api : ParserApi) (load : Str → Outcome Exc (Option Node × Nat))
      (url : Str) (depth next : Nat) (current : Rose.Cursor Head),
      DbpxParser.processNode api load url (.cdata content depth)
          ⟨some current, next⟩ =
        DbpxParser.attach api DbpxParser.addLeaf "#cdata-section".toList
          (DbpxParser.cdataNode next depth content).label current
          ⟨some current, next⟩) ∧
    (∀ (api : ParserApi) (url : Str) (depth count : Nat)
      (document : Document) (root : Node) (path : List Nat),
      api.fetch url = some ⟨document.events, none⟩ →
      DbpxParser.Ordinary api document.root →
      DbpxParser.AllOrdinaryAll api (document.content.getD []) →
      DbpxParser.CdataAt content path
        (.element document.root (document.content.getD [])) →
      DbpxParser.parse api (depth + 1) url = .value (some root, count) →
      ∃ addr level,
        root.at? path = some (DbpxParser.cdataNode addr level content)) ∧
    program state = ⟨final, before ++ (setText content ++ after), .value ()⟩ ∧
      ((program state).out = before ++ (content ++ after) ↔
        Settled content) := by
  have ran := carries.run_eq (noMarkers_setText content)
  rw [ownText, if_neg Bool.false_ne_true] at ran
  refine ⟨?_, ?_, ran, ?_⟩
  · intro api load url depth next current
    exact DbpxParser.processNode_cdata api load url content depth next current
  · intro api url depth count document root path source ordinary childs stands
      parsed
    exact DbpxParser.parse_cdata source ordinary childs stands parsed
  · rw [ran, ← setText_eq_self_iff]
    simp

def paragraphName : XmlName :=
  ⟨"p".toList, paragraph_name⟩

/-- `<p><![CDATA[...]]></p>`. -/
def paragraphNode (content : Str) : Node :=
  .node ⟨1, 1, .unknown paragraphName, [], []⟩
    [DbpxParser.cdataNode 2 2 content]

/-- The paragraph writes its section between its delimiters. -/
theorem paragraph_carries (content : Str) :
    Carries Outside.plain (DbpxParser.cdataNode 2 2 content).toTag false
      (execute Outside.plain 2 ⟨(paragraphNode content).toTag, []⟩ none)
      (St.fresh [contextWith "x"]) "<p>".toList "</p>".toList
      (St.fresh [contextWith "x"]) := by
  let cdata := (DbpxParser.cdataNode 2 2 content).toTag
  let page : Loc := ⟨(paragraphNode content).toTag, []⟩
  let interp := Interp.ofRun Outside.plain 1 (execute Outside.plain 1)
  let marked := (St.fresh [contextWith "x"]).withLayer
    (AList.insert (upName htmlFirst) "1".toList ∅)
  have here : Carries Outside.plain cdata true
      (execute Outside.plain 1 ⟨cdata, [page.tag]⟩ none) marked [] []
      marked := .inside rfl
  have around : Around (interp.executeChilds page none)
      (execute Outside.plain 1 ⟨cdata, [page.tag]⟩ none) marked marked marked
      marked [] [] := @Around.childs _ interp page none [] [] cdata _ _ _ _ _ _
        rfl rfl rfl
  have mark : isInside (St.fresh [contextWith "x"]) = false := rfl
  exact .outermost rfl mark rfl rfl (.through around here) rfl

/-- The delimiters come out as they are. -/
theorem cdata_output_paragraph :
    (execute Outside.plain 2 ⟨(paragraphNode "a<b".toList).toTag, []⟩ none
      (St.fresh [contextWith "x"])).out = "<p>a<b</p>".toList := by
  obtain ⟨-, -, ran, -⟩ := cdata_output (paragraph_carries "a<b".toList)
  rw [ran]
  rfl

/-- `<dbp:module><p><![CDATA[...]]></p></dbp:module>`. -/
def sectionDocument (content : Str) : Document :=
  ⟨0, DbpxParser.dbpElement DbpxParser.moduleName,
    some [.element (DbpxParser.htmlElement paragraphName) [.cdata content]],
    0⟩

/-- A line break in a section becomes a blank, and the blanks behind it are
gone. -/
theorem line_break_lost :
    DbpxParser.parse (DbpxParser.plainParser fun _ =>
        some ⟨(sectionDocument "a\n  b".toList).events, none⟩) 1 [] =
      .value (some (.node ⟨0, 0, .module, [], []⟩
        [paragraphNode "a\n  b".toList]), 3) ∧
    (execute Outside.plain 2 ⟨(paragraphNode "a\n  b".toList).toTag, []⟩ none
      (St.fresh [contextWith "x"])).out = "<p>a b</p>".toList ∧
    (execute Outside.plain 2 ⟨(paragraphNode "a\n  b".toList).toTag, []⟩ none
      (St.fresh [contextWith "x"])).out ≠ "<p>a\n  b</p>".toList := by
  have written := (paragraph_carries "a\n  b".toList).run_eq
    (noMarkers_setText _)
  rw [written]
  refine ⟨rfl, rfl, by decide⟩

end DbPager
