import DbPager.Document
import DbPager.Plain

/-!
# The parsed tree and the document

Every node of a document that becomes a tag becomes a child of the tag of
its parent, in document order.  An included file is spliced in place exactly
when the current node is the open element at that moment; otherwise its tags
end up deeper than they should.
-/

namespace DbPager

open Effect Rose

namespace DbpxParser

section Reading

variable {api : ParserApi} {load : Str → Outcome Exc (Option Node × Nat)}
  {url : Str}

theorem elementKind_include {element : Element}
    (included : isInclude element = true) :
    elementKind api element = .value (some .include) := by
  simp only [isInclude, Bool.and_eq_true, beq_iff_eq] at included
  have found : (builtinTags.find? fun kind =>
      kind.getName == element.object.text) = some .include := by
    rw [included.2]
    rfl
  have custom : dbpagerCustomUri.isPrefixOf dbpagerUri = false := rfl
  have own : dbpagerUri.isPrefixOf dbpagerUri = true := rfl
  simp only [elementKind, create, included.1, found, custom, own]
  rfl

theorem not_include_of_ordinary {element : Element}
    (ordinary : Ordinary api element) : isInclude element = false := by
  by_contra included
  rw [Bool.not_eq_false] at included
  obtain ⟨created, same, named⟩ :=
    ordinary _ (elementKind_include included)
  cases same
  exact named rfl

namespace Reads

/-- An empty element becomes the current node. -/
theorem empty {element : Element} (ordinary : Ordinary api element)
    (depth : Nat) (names : List Str) :
    Reads api load url [.element element (depth + 1)] depth names
      [elementName api element] True True
      (do let head ← elementHead api element
          pure [.node head.plain []]) := by
  intro top current next level beneath
  unfold read elementHead
  rw [Prog.forEach_singleton]
  cases creation : elementKind api element with
  | value kind =>
      obtain ⟨created, rfl, named⟩ := ordinary kind creation
      obtain ⟨head, deeper, name, plain, ran⟩ :=
        start load url creation named next beneath
      refine ⟨top.tree.addChild (.node head []), top.descend (.node head []),
        next + 1, ?_, ?_, ?_⟩
      · rw [← level]
        exact ran
      · have inside : Fills top _ _ _ _ := Fills.child
          (Fills.refl (top.descend (.node head []))) rfl deeper
        rw [plain] at inside
        exact inside
      · have below := Over.under .here
          (Cursor.up_descend (.node head []) top) deeper
        have same : Node.getName (top.descend (.node head [])).tree =
            elementName api element := by
          unfold elementName
          simp only [creation]
          exact name
        rw [same] at below
        exact below
  | error exception =>
      simp [processNode, processElement_error load url creation]
  | halt reason =>
      simp [processNode, processElement_halt load url creation]

/-- The content of an element is read below it; the end event moves the
current node up. -/
theorem element {element : Element} {childs : List Xml}
    (ordinary : Ordinary api element) {depth : Nat} (names : List Str)
    {inPlace known : Prop} {reference : Outcome Exc (List Node)}
    {inner : List Str}
    (content : Reads api load url (Xml.eventsAll (depth + 2) childs)
      (depth + 1) [] inner inPlace known reference) :
    Reads api load url
      ((Xml.element element childs).events (depth + 1)) depth names
      (let below := inner ++ [elementName api element]
       if below.head? = some "module".toList then below else below.tail)
      inPlace known
      (do let head ← elementHead api element
          let nodes ← reference
          pure [.node head.plain nodes]) := by
  intro top current next level beneath
  unfold read elementHead
  rw [Xml.events, ← List.singleton_append, Prog.forEach_append,
    Prog.forEach_singleton, Prog.forEach_append]
  cases creation : elementKind api element with
  | value kind =>
      obtain ⟨created, rfl, named⟩ := ordinary kind creation
      obtain ⟨head, deeper, name, plain, ran⟩ :=
        start load url creation named next beneath
      rw [level] at ran
      have entered : processNode api load url
          (.element element (depth + 1)) ⟨some current, next⟩ = _ := ran
      rw [Prog.bind_silent entered]
      have inside := content (top.descend (.node head [])) _ (next + 1)
        (deeper.trans (by rw [level])) .here
      unfold read at inside
      cases reference with
      | value nodes =>
          obtain ⟨tree, reached, later, ranContent, fills, below⟩ := inside
          have step : ({ top.descend (.node head []) with tree } :
              Cursor Head).up =
              some { top with tree := top.tree.addChild tree } := by
            simp [Cursor.descend, Cursor.up, Frame.close, LabelTree.addChild]
          have closed := below.close step (by
            simp only [fills.label]
            exact deeper)
          have same : Node.getName
              ({ top.descend (.node head []) with tree } :
                Cursor Head).tree = elementName api element := by
            unfold elementName
            simp only [Node.getName, fills.label, creation]
            exact name
          rw [same] at closed
          rw [Prog.bind_silent ranContent, Prog.forEach_singleton]
          have whole : Fills top [.node head.plain nodes] inPlace known
              (top.tree.addChild tree) :=
            Fills.child fills rfl deeper
          rw [plain] at whole
          cases trailed : inner ++ [elementName api element] with
          | nil => simp at trailed
          | cons first rest =>
              rw [trailed] at closed
              obtain ⟨final, ended, last⟩ := processEnd_eq later closed
              refine ⟨top.tree.addChild tree, final, later, ended, whole, ?_⟩
              simp only [List.head?_cons, Option.some.injEq, List.tail_cons]
              exact last
      | error exception => exact Prog.outcome_bind_error inside _
      | halt reason => exact Prog.outcome_bind_halt inside _
  | error exception =>
      have ended := processElement_error load url creation (depth + 1)
        ⟨some current, next⟩
      exact congrArg Run.outcome (Prog.bind_error ended _)
  | halt reason =>
      have ended := processElement_halt load url creation (depth + 1)
        ⟨some current, next⟩
      exact congrArg Run.outcome (Prog.bind_halt ended _)

/-- Tags appended to the current node grow the open element; below the open
element itself they stand too deep. -/
theorem fills_include {top current : Cursor Head} {names : List Str}
    (beneath : Over top names current) (childs : List Node) :
    ∃ tree : Node,
      Fills top (childs.map Node.plain) (names = [] ∨ childs = []) False tree ∧
        Over { top with tree } names
          { current with
            tree := .node current.tree.label
              (current.tree.childs ++ childs) } := by
  by_cases empty : childs = []
  · refine ⟨top.tree, ?_, ?_⟩
    · have same := Fills.refl top
      subst empty
      exact ⟨rfl, fun _ => ⟨[], by simp, rfl, False.elim⟩, same.least,
        by simp⟩
    · have same : LabelTree.node current.tree.label
          (current.tree.childs ++ childs) = current.tree := by
        cases whole : current.tree with
        | node head inside => simp [empty]
      rw [same]
      exact beneath
  · have grown : (LabelTree.node current.tree.label
        (current.tree.childs ++ childs)).pathLength current.frames.length =
        current.tree.pathLength current.frames.length +
          LabelTree.pathLengthAll (current.frames.length + 1) childs := by
      cases same : current.tree with
      | node head inside => simp [LabelTree.pathLength, Nat.add_assoc]
    obtain ⟨tree, label, below, length⟩ :=
      @Over.change _ _ _ beneath (.node current.tree.label _) rfl _ grown
    rw [beneath.length_frames] at length
    refine ⟨tree, ⟨label, ?_, ?_, ?_⟩, below⟩
    · intro inPlace
      refine ⟨childs, ?_, rfl, False.elim⟩
      rcases inPlace with rfl | none
      · cases beneath
        cases below
        rfl
      · exact absurd none empty
    · rw [pathLengthAll_plain, length]
      rcases Nat.eq_zero_or_pos names.length with zero | positive
      · rw [zero]
      · have deeper := LabelTree.pathLengthAll_le
          (Nat.add_lt_add_left (Nat.succ_lt_succ positive) top.frames.length)
          childs
        simp only [Nat.succ_eq_add_one, Nat.zero_add] at deeper
        rw [← Nat.add_assoc] at deeper
        omega
    · intro wrong
      have positive : 0 < names.length := by
        apply List.length_pos_of_ne_nil
        intro none
        exact wrong (.inl none)
      have deeper := LabelTree.pathLengthAll_lt
        (Nat.add_lt_add_left (Nat.succ_lt_succ positive) top.frames.length)
        empty
      simp only [Nat.succ_eq_add_one, Nat.zero_add] at deeper
      rw [← Nat.add_assoc] at deeper
      rw [pathLengthAll_plain, length]
      omega

/-- The children of the included root go to the current node. -/
theorem processInclude_eq (element : Element) (current : Cursor Head)
    (next : Nat) :
    match includedRoot api load url element with
    | .value root => ∃ count : Nat,
        processInclude api load url element ⟨some current, next⟩ =
          ⟨⟨some (moveChilds (root.renumber next) current), next + count⟩, [],
            .value ()⟩
    | .error exception =>
        (processInclude api load url element ⟨some current, next⟩).outcome =
          .error exception
    | .halt reason =>
        (processInclude api load url element ⟨some current, next⟩).outcome =
          .halt reason := by
  unfold processInclude includedRoot
  cases target : href api element with
  | value file =>
      rw [Outcome.value_bind]
      have asked : ofOutcome (.value file) (⟨some current, next⟩ : Parsing) =
          ⟨⟨some current, next⟩, [], .value file⟩ := rfl
      rw [Prog.bind_silent asked]
      by_cases missing : file.isEmpty = true
      · rw [if_pos missing, if_pos missing]
        rfl
      · rw [if_neg missing, if_neg missing]
        cases loaded : load (api.resolve url file) with
        | value result =>
            obtain ⟨root, count⟩ := result
            cases root with
            | none => rfl
            | some root => exact ⟨count, rfl⟩
        | error exception => rfl
        | halt reason => rfl
  | error exception => rfl
  | halt reason => rfl

/-- Reading an empty `dbp:include`. -/
theorem «include» {element : Element} (included : isInclude element = true)
    (depth : Nat) (names : List Str) :
    Reads api load url [.element element (depth + 1)] depth names names
      (names = [] ∨ splice api load url (.empty element) = .value [])
      False (splice api load url (.empty element)) := by
  intro top current next level beneath
  have known : ofOutcome (elementKind api element) ⟨some current, next⟩ =
      ⟨⟨some current, next⟩, [], .value (some .include)⟩ := by
    simp [ofOutcome, Prog.act, elementKind_include included]
  have begun : read api load url [.element element (depth + 1)]
      ⟨some current, next⟩ =
      processInclude api load url element ⟨some current, next⟩ := by
    unfold read
    rw [Prog.forEach_singleton]
    simp only [processNode]
    unfold processElement
    rw [Prog.bind_silent known]
    rfl
  rw [begun]
  simp only [splice, if_pos included]
  have processed := @processInclude_eq api load url element current next
  cases found : includedRoot api load url element with
  | value root =>
      rw [found] at processed
      obtain ⟨count, ran⟩ := processed
      let childs := (Node.renumber next root).childs.map
        (Node.adopt current.tree.label.depth)
      have stands : childs.map Node.plain = root.childs.map Node.plain := by
        rw [← childs_renumber next root, List.map_map]
        exact List.map_congr_left fun child _ => plain_adopt _ child
      obtain ⟨tree, fills, below⟩ := fills_include beneath childs
      rw [moveChilds_eq] at ran
      refine ⟨tree, _, _, ran, ?_, below⟩
      have same : (names = [] ∨ childs = []) = (names = [] ∨
          (do let root ← Outcome.value root
              pure (root.childs.map Node.plain)) =
            (Outcome.value [] : Outcome Exc (List Node))) := by
        rw [Outcome.value_bind, ← stands]
        simp [pure]
      rw [← same, ← stands]
      exact fills
  | error exception =>
      rw [found] at processed
      exact processed
  | halt reason =>
      rw [found] at processed
      exact processed

mutual

/-- Reading a node of a document. -/
theorem xml : (node : Xml) → Proper api node → (depth : Nat) →
    (names : List Str) →
    Reads api load url (node.events (depth + 1)) depth names
      (trail api node names) (InPlace api load url node names)
      (AllOrdinary api node) (splice api load url node)
  | .empty element, proper, depth, names => by
      by_cases included : isInclude element = true
      · have reads : Reads api load url _ _ _ _ _ _ _ :=
          Reads.include included depth names
        rw [trail, if_pos included]
        apply reads.congr
        · simp [InPlace, included]
        · intro ordinary
          have not := not_include_of_ordinary ordinary
          rw [included] at not
          cases not
      · have ordinary := proper.resolve_left included
        rw [trail, if_neg included, splice, if_neg included]
        apply (Reads.empty ordinary depth names).congr
        · simp [InPlace, included]
        · exact fun _ => trivial
  | .element element childs, proper, depth, names => by
      apply (Reads.element proper.1 names
        (all childs proper.2 (depth + 1) [])).congr
      · exact Iff.rfl
      · exact fun known => known.2
  | .text value, _, depth, names => Reads.text names rfl rfl
  | .cdata value, _, depth, names => Reads.text names rfl rfl
  | .other, _, depth, names => Reads.other depth names

theorem all : (nodes : List Xml) → ProperAll api nodes → (depth : Nat) →
    (names : List Str) →
    Reads api load url (Xml.eventsAll (depth + 1) nodes) depth names
      (trailAll api nodes names) (InPlaceAll api load url nodes names)
      (AllOrdinaryAll api nodes) (spliceAll api load url nodes)
  | [], _, depth, names => Reads.nil depth names
  | node :: nodes, proper, depth, names =>
      Reads.append (xml node proper.1 depth names)
        (all nodes proper.2 depth (trail api node names))

end

end Reads

theorem Over.root_eq {top current : Cursor Head} {names : List Str}
    (beneath : Over top names current) : current.root = top.root := by
  induction beneath with
  | here => rfl
  | under _ step _ induction => rw [← Cursor.root_eq_of_up step, induction]

/-- Comments and processing instructions change nothing. -/
theorem read_others (count : Nat) (state : Parsing) :
    read api load url (List.replicate count .other) state =
      ⟨state, [], .value ()⟩ := by
  unfold read
  have ran := @Prog.forEach_eq Parsing Exc Char ReaderEvent
    (processNode api load url) state (fun _ => [])
    (List.replicate count .other) (by
      intro event member
      rw [List.eq_of_mem_replicate member]
      rfl)
  rw [ran]
  simp

/-- The root element becomes the first current node. -/
theorem start_root {element : Element} {created : Kind}
    (creation : elementKind api element = .value (some created))
    (ordinary : created.getName ≠ "include".toList) (next : Nat) :
    processElement api load url element 0 ⟨none, next⟩ =
      ⟨⟨some ⟨.node ⟨next, 0, created, processAttributes api element, []⟩ [],
        []⟩, next + 1⟩, [], .value ()⟩ := by
  have known : ofOutcome (elementKind api element) ⟨none, next⟩ =
      ⟨⟨none, next⟩, [], .value (some created)⟩ := by
    simp [ofOutcome, Prog.act, creation]
  unfold processElement
  rw [Prog.bind_silent known]
  simp only [beq_iff_eq, if_neg ordinary]
  rfl

/-- The end of the root element does not change the tree. -/
theorem read_end {top current : Cursor Head} {names : List Str} (next : Nat)
    (outermost : top.frames = []) (beneath : Over top names current) :
    ∃ reached : Cursor Head,
      read api load url [.endElement] ⟨some current, next⟩ =
          ⟨⟨some reached, next⟩, [], .value ()⟩ ∧
        reached.root = top.tree := by
  have whole : top.root = top.tree := by
    simp [Cursor.root, outermost]
  unfold read
  rw [Prog.forEach_singleton]
  cases names with
  | nil =>
      cases beneath
      refine ⟨top, ?_, whole⟩
      have stays : top.up = none := by
        obtain ⟨tree, frames⟩ := top
        simp only at outermost
        rw [outermost]
        rfl
      by_cases named : Node.getName top.tree = "module".toList
      · simp only [processNode, processEnd, Prog.act, beq_iff_eq,
          if_pos named]
      · simp only [processNode, processEnd, Prog.act, beq_iff_eq,
          if_neg named, stays]
  | cons first names =>
      obtain ⟨reached, ran, below⟩ := Reads.processEnd_eq next beneath
      exact ⟨reached, ran, by rw [below.root_eq, whole]⟩

/-- What is known of the whole tree once the root element is filled. -/
theorem Fills.whole {head : Head} {nodes : List Node} {inPlace known : Prop}
    {tree : Node} (outermost : head.depth = 0)
    (fills : Fills ⟨.node head [], []⟩ nodes inPlace known tree) :
    (inPlace → tree.plain = .node head.plain nodes ∧
      (known → Node.Leveled 0 tree)) ∧
    (¬ inPlace →
      (LabelTree.node head.plain nodes).pathLength 0 < tree.pathLength 0) := by
  have top := fills.label
  cases tree with
  | node label childs =>
      simp only [LabelTree.label_node] at top
      subst top
      constructor
      · intro holds
        obtain ⟨added, same, stands, levels⟩ := fills.filled holds
        simp only [LabelTree.childs_node, List.nil_append] at same
        subst same
        constructor
        · simp only [Node.plain, LabelTree.map, LabelTree.mapAll_eq]
          rw [← stands]
          rfl
        · intro ordinary
          have below := levels ordinary
          simp only [LabelTree.label_node, outermost] at below
          exact ⟨outermost, below⟩
      · intro wrong
        have longer := fills.more wrong
        simp only [LabelTree.pathLength, LabelTree.pathLengthAll,
          List.length_nil] at longer
        simp only [LabelTree.pathLength]
        omega

/-- Reading the root element. -/
theorem read_root {document : Document}
    (ordinary : Ordinary api document.root)
    (proper : ProperAll api (document.content.getD [])) :
    match spliceRoot api load url document with
    | .value node => ∃ (reached : Cursor Head) (count : Nat) (tree : Node),
        read api load url (document.xml.events 0) ⟨none, 0⟩ =
            ⟨⟨some reached, count⟩, [], .value ()⟩ ∧
          reached.root = tree ∧
          (InPlaceAll api load url (document.content.getD []) [] →
            tree.plain = node ∧
              (AllOrdinaryAll api (document.content.getD []) →
                Node.Leveled 0 tree)) ∧
          (¬ InPlaceAll api load url (document.content.getD []) [] →
            node.pathLength 0 < tree.pathLength 0)
    | .error exception =>
        (read api load url (document.xml.events 0) ⟨none, 0⟩).outcome =
          .error exception
    | .halt reason =>
        (read api load url (document.xml.events 0) ⟨none, 0⟩).outcome =
          .halt reason := by
  have split : read api load url (document.xml.events 0) =
      processElement api load url document.root 0 >>= fun _ =>
        read api load url
          (Xml.eventsAll 1 (document.content.getD []) ++
            if document.content.isSome then [.endElement] else []) := by
    unfold read Document.xml
    cases document.content with
    | none =>
        simp only [Xml.events, Xml.eventsAll, Option.getD_none,
          Option.isSome_none, Bool.false_eq_true, if_false, List.append_nil]
        rfl
    | some childs => rfl
  rw [split]
  unfold spliceRoot elementHead
  cases creation : elementKind api document.root with
  | value kind =>
      obtain ⟨created, rfl, named⟩ := ordinary kind creation
      let head : Head :=
        ⟨0, 0, created, processAttributes api document.root, []⟩
      have begun := @start_root api load url _ _ creation named 0
      rw [Prog.bind_silent begun]
      have inside := @Reads.all api load url (document.content.getD [])
        proper 0 [] ⟨.node head [], []⟩ ⟨.node head [], []⟩ 1 rfl .here
      unfold read at inside ⊢
      rw [Prog.forEach_append]
      cases content : spliceAll api load url (document.content.getD []) with
      | value nodes =>
          rw [content] at inside
          obtain ⟨tree, reached, later, ran, fills, below⟩ := inside
          rw [Prog.bind_silent ran]
          have ending : ∃ final : Cursor Head,
              read api load url
                  (if document.content.isSome then [.endElement] else [])
                  ⟨some reached, later⟩ =
                ⟨⟨some final, later⟩, [], .value ()⟩ ∧
              final.root = tree := by
            split
            · exact read_end later rfl below
            · exact ⟨reached, rfl, below.root_eq⟩
          obtain ⟨final, ended, root⟩ := ending
          exact ⟨final, later, tree, ended, root, fills.whole rfl⟩
      | error exception =>
          rw [content] at inside
          exact Prog.outcome_bind_error inside _
      | halt reason =>
          rw [content] at inside
          exact Prog.outcome_bind_halt inside _
  | error exception =>
      have ended := Reads.processElement_error load url creation 0 ⟨none, 0⟩
      exact congrArg Run.outcome (Prog.bind_error ended _)
  | halt reason =>
      have ended := Reads.processElement_halt load url creation 0 ⟨none, 0⟩
      exact congrArg Run.outcome (Prog.bind_halt ended _)

/-- What parsing a document comes to, when every element becomes a tag or is
an empty `dbp:include`. -/
theorem parse_document {depth : Nat} {document : Document}
    (source : api.fetch url = some ⟨document.events, none⟩)
    (ordinary : Ordinary api document.root)
    (proper : ProperAll api (document.content.getD [])) :
    match spliceRoot api (parse api depth) url document with
    | .value node => ∃ (root : Node) (count : Nat),
        parse api (depth + 1) url = .value (some root, count) ∧
          (InPlaceAll api (parse api depth) url (document.content.getD []) [] →
            root.plain = node ∧
              (AllOrdinaryAll api (document.content.getD []) →
                Node.Leveled 0 root)) ∧
          (¬ InPlaceAll api (parse api depth) url
              (document.content.getD []) [] →
            node.pathLength 0 < root.pathLength 0)
    | .error exception => parse api (depth + 1) url = .error exception
    | .halt reason => parse api (depth + 1) url = .halt reason := by
  have inner := @read_root api (parse api depth) url document ordinary proper
  have before := @read_others api (parse api depth) url document.prolog
    ⟨none, 0⟩
  have whole : parse api (depth + 1) url =
      finish api url ⟨document.events, none⟩
        (read api (parse api depth) url document.events ⟨none, 0⟩) := by
    unfold parse
    rw [source]
    rfl
  have split : read api (parse api depth) url document.events ⟨none, 0⟩ =
      (read api (parse api depth) url (document.xml.events 0) >>= fun _ =>
        read api (parse api depth) url
          (List.replicate document.epilog .other)) ⟨none, 0⟩ := by
    unfold read at before ⊢
    unfold Document.events
    rw [Prog.forEach_append, Prog.forEach_append, Prog.bind_assoc,
      Prog.bind_silent before]
  rw [whole, split]
  cases reference : spliceRoot api (parse api depth) url document with
  | value node =>
      rw [reference] at inner
      obtain ⟨reached, count, tree, ran, root, facts⟩ := inner
      refine ⟨tree, count, ?_, facts⟩
      rw [Prog.bind_silent ran, read_others]
      simp [finish, root]
  | error exception =>
      rw [reference] at inner
      simp only [finish, Prog.outcome_bind_error inner, Outcome.error_bind]
  | halt reason =>
      rw [reference] at inner
      simp only [finish, Prog.outcome_bind_halt inner, Outcome.halt_bind]

end Reading

section Isomorphism

variable (api : ParserApi)

mutual

/-- The tags a node of a document without included files stands for. -/
def tags : Xml → Outcome Exc (List Node)
  | .empty element => do
      let head ← elementHead api element
      pure [.node head.plain []]
  | .element element childs => do
      let head ← elementHead api element
      let nodes ← tagsAll childs
      pure [.node head.plain nodes]
  | .text value => pure [.node ⟨0, 0, .expression, [], setText value⟩ []]
  | .cdata value => pure [.node ⟨0, 0, .cdata, [], setText value⟩ []]
  | .other => pure []

def tagsAll : List Xml → Outcome Exc (List Node)
  | [] => pure []
  | xml :: xmls => do
      let first ← tags xml
      let rest ← tagsAll xmls
      pure (first ++ rest)

end

/-- The tree a document without included files stands for. -/
def documentTree (document : Document) : Outcome Exc Node := do
  let head ← elementHead api document.root
  let nodes ← tagsAll api (document.content.getD [])
  pure (.node head.plain nodes)

variable {api} {load : Str → Outcome Exc (Option Node × Nat)} {url : Str}

mutual

theorem splice_eq_tags : (node : Xml) → AllOrdinary api node →
    splice api load url node = tags api node
  | .empty element, ordinary => by
      rw [splice, not_include_of_ordinary ordinary]
      rfl
  | .element element childs, ordinary => by
      rw [splice, spliceAll_eq_tagsAll childs ordinary.2]
      rfl
  | .text _, _ => rfl
  | .cdata _, _ => rfl
  | .other, _ => rfl

theorem spliceAll_eq_tagsAll : (nodes : List Xml) →
    AllOrdinaryAll api nodes →
    spliceAll api load url nodes = tagsAll api nodes
  | [], _ => rfl
  | node :: nodes, ordinary => by
      rw [spliceAll, splice_eq_tags node ordinary.1,
        spliceAll_eq_tagsAll nodes ordinary.2]
      rfl

end

mutual

theorem proper_of_ordinary : (node : Xml) → AllOrdinary api node →
    Proper api node
  | .empty _, ordinary => .inr ordinary
  | .element _ childs, ordinary =>
      ⟨ordinary.1, properAll_of_ordinary childs ordinary.2⟩
  | .text _, _ => trivial
  | .cdata _, _ => trivial
  | .other, _ => trivial

theorem properAll_of_ordinary : (nodes : List Xml) →
    AllOrdinaryAll api nodes → ProperAll api nodes
  | [], _ => trivial
  | node :: nodes, ordinary =>
      ⟨proper_of_ordinary node ordinary.1,
        properAll_of_ordinary nodes ordinary.2⟩

end

mutual

theorem inPlace_of_ordinary : (node : Xml) → AllOrdinary api node →
    (names : List Str) → InPlace api load url node names
  | .empty element, ordinary, names => by
      intro included
      rw [not_include_of_ordinary ordinary] at included
      cases included
  | .element _ childs, ordinary, _ =>
      inPlaceAll_of_ordinary childs ordinary.2 []
  | .text _, _, _ => trivial
  | .cdata _, _, _ => trivial
  | .other, _, _ => trivial

theorem inPlaceAll_of_ordinary : (nodes : List Xml) →
    AllOrdinaryAll api nodes → (names : List Str) →
    InPlaceAll api load url nodes names
  | [], _, _ => trivial
  | node :: nodes, ordinary, names =>
      ⟨inPlace_of_ordinary node ordinary.1 names,
        inPlaceAll_of_ordinary nodes ordinary.2 _⟩

end

/-- A document in which no element is called `include` or belongs to the ITS
namespace is parsed to the tree it stands for, every tag at its depth; or
else parsing ends as the creation of the first element does that cannot be
created. -/
theorem parse_isomorphic (depth : Nat) {document : Document}
    (source : api.fetch url = some ⟨document.events, none⟩)
    (ordinary : Ordinary api document.root)
    (content : AllOrdinaryAll api (document.content.getD [])) :
    match documentTree api document with
    | .value tree => ∃ (root : Node) (count : Nat),
        parse api (depth + 1) url = .value (some root, count) ∧
          root.plain = tree ∧ Node.Leveled 0 root
    | .error exception => parse api (depth + 1) url = .error exception
    | .halt reason => parse api (depth + 1) url = .halt reason := by
  have parsed := @parse_document api url depth document source ordinary
    (properAll_of_ordinary _ content)
  have same : spliceRoot api (parse api depth) url document =
      documentTree api document := by
    unfold spliceRoot documentTree
    rw [spliceAll_eq_tagsAll _ content]
  rw [same] at parsed
  cases tree : documentTree api document with
  | value node =>
      rw [tree] at parsed
      obtain ⟨root, count, ran, placed, _⟩ := parsed
      obtain ⟨stands, levels⟩ :=
        placed (inPlaceAll_of_ordinary _ content [])
      exact ⟨root, count, ran, stands, levels content⟩
  | error exception =>
      rw [tree] at parsed
      exact parsed
  | halt reason =>
      rw [tree] at parsed
      exact parsed

end Isomorphism

/-- A parser that reads the given files, without plugins, for texts without
expressions. -/
def plainParser (files : Str → Option Source) : ParserApi where
  dcl := .plain
  mapOrder := id
  plugin _ := none
  plugin_named := by simp
  evaluate := .value
  resolve _ target := target
  fetch := files

/-- An element of the server's namespace without attributes. -/
def dbpElement (name : XmlName) : Element :=
  ⟨name, dbpagerUri, name, []⟩

/-- An element of no namespace without attributes. -/
def htmlElement (name : XmlName) : Element :=
  ⟨name, [], name, []⟩

def moduleName : XmlName :=
  ⟨"module".toList, head_ne_at (Char.ne_of_val_ne nofun)⟩

def ruleName : XmlName :=
  ⟨"hr".toList, head_ne_at (Char.ne_of_val_ne nofun)⟩

theorem ordinary_module (files : Str → Option Source) :
    Ordinary (plainParser files) (dbpElement moduleName) := by
  intro kind creation
  have known : elementKind (plainParser files) (dbpElement moduleName) =
      .value (some .module) := rfl
  rw [known] at creation
  cases creation
  exact ⟨.module, rfl, by decide⟩

theorem ordinary_rule (files : Str → Option Source) :
    Ordinary (plainParser files) (htmlElement ruleName) := by
  intro kind creation
  have known : elementKind (plainParser files) (htmlElement ruleName) =
      .value (some (.unknown ruleName)) := rfl
  rw [known] at creation
  cases creation
  exact ⟨.unknown ruleName, rfl, by decide⟩

/-- `<dbp:module><hr/>text</dbp:module>`. -/
def ruleDocument : Document :=
  ⟨0, dbpElement moduleName,
    some [.empty (htmlElement ruleName), .text "text".toList], 0⟩

def ruleFiles (_ : Str) : Option Source :=
  some ⟨ruleDocument.events, none⟩

/-- The text after an empty element is a child of the element's parent. -/
theorem parse_isomorphic_rule :
    ∃ (root : Node) (count : Nat),
      parse (plainParser ruleFiles) 1 [] = .value (some root, count) ∧
        root.plain =
          .node ⟨0, 0, .module, [], []⟩
            [.node ⟨0, 0, .unknown ruleName, [], []⟩ [],
              .node ⟨0, 0, .expression, [], "text".toList⟩ []] ∧
        Node.Leveled 0 root :=
  @parse_isomorphic (plainParser ruleFiles) [] 0 ruleDocument rfl
    (ordinary_module ruleFiles)
    ⟨ordinary_rule ruleFiles, trivial, trivial⟩

def unknownName : XmlName :=
  ⟨"nothing".toList, head_ne_at (Char.ne_of_val_ne nofun)⟩

/-- `<dbp:nothing/>`. -/
def unknownDocument : Document :=
  ⟨0, dbpElement unknownName, none, 0⟩

/-- An element the factory does not know has no tag; parsing raises an
exception. -/
theorem parse_unknown_element :
    isInclude unknownDocument.root = false ∧
      unknownDocument.root.uri ≠ itsUri ∧
      unknownDocument.content = none ∧
      parse (plainParser fun _ => some ⟨unknownDocument.events, none⟩) 1 [] =
        .error (Dcl.plain.exception "unknown tag found (\x7b0\x7d)"
          ["nothing".toList]) := by
  refine ⟨by decide, by decide, rfl, rfl⟩

end DbpxParser

end DbPager
