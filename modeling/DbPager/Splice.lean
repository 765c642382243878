import DbPager.Nesting

/-!
# Included files

When is the tree of a document the one with every `include` element replaced
by the children of the included root?  Besides the place of the current
node, it takes that no other element is dropped from the tree: the parser
drops the elements of the ITS namespace and every element that is merely
called `include`.  The first kind is found out by counting tags, the second
by their names.
-/

namespace DbPager

open Effect Rose

namespace Parsing

/-- The tags of the tree that is being built. -/
def heads (state : Parsing) : List Head :=
  match state.cursor with
  | none => []
  | some cursor => cursor.root.labels

end Parsing

namespace DbpxParser

theorem getName_plain (head : Head) :
    head.plain.kind.getName = head.kind.getName :=
  Kind.getName_relink _ _

theorem labels_plain (node : Node) :
    node.plain.labels = node.labels.map Head.plain :=
  LabelTree.labels_map _ _

theorem labelsAll_plain (nodes : List Node) :
    LabelTree.labelsAll (nodes.map Node.plain) =
      (LabelTree.labelsAll nodes).map Head.plain := by
  unfold Node.plain
  rw [← LabelTree.mapAll_eq, LabelTree.labelsAll_mapAll]

section Growth

variable (api : ParserApi) (load : Str → Outcome Exc (Option Node × Nat))
  (url : Str)

/-- The most tags an event can add to the tree. -/
def atMost : ReaderEvent → Nat
  | .element element _ =>
      match elementKind api element with
      | .value (some kind) =>
          if kind.getName = "include".toList then
            match includedRoot api load url element with
            | .value root => (LabelTree.labelsAll root.childs).length
            | _ => 0
          else 1
      | _ => 0
  | .text _ _ | .cdata _ _ => 1
  | .endElement | .other => 0

/-- The most tags a stream of events can add. -/
def atMostAll : List ReaderEvent → Nat
  | [] => 0
  | event :: events => atMost api load url event + atMostAll events

/-- No file that can be included has a tag called `include`. -/
def LoadsUnnamed : Prop :=
  ∀ target root count, load target = .value (some root, count) →
    ∀ head ∈ root.labels, head.kind.getName ≠ "include".toList

/-- The tags that are new in a state: at most so many, and none of them is
called `include`. -/
def Grows (bound : Nat) (before after : Parsing) : Prop :=
  ∃ more : List Head, after.heads.Perm (before.heads ++ more) ∧
    more.length ≤ bound ∧ ∀ head ∈ more, head.kind.getName ≠ "include".toList

theorem Grows.refl (bound : Nat) (state : Parsing) :
    Grows bound state state :=
  ⟨[], by simp, Nat.zero_le bound, by simp⟩

theorem Grows.trans {first second : Nat} {before middle after : Parsing}
    (one : Grows first before middle) (two : Grows second middle after) :
    Grows (first + second) before after := by
  obtain ⟨more, perm, count, names⟩ := one
  obtain ⟨later, permLater, countLater, namesLater⟩ := two
  refine ⟨more ++ later, ?_, ?_, ?_⟩
  · rw [← List.append_assoc]
    exact permLater.trans (perm.append_right later)
  · rw [List.length_append]
    omega
  · intro head member
    rcases List.mem_append.mp member with member | member
    · exact names head member
    · exact namesLater head member

variable {api load url}

theorem of_ofOutcome {α : Type} {outcome : Outcome Exc α}
    {before after : Parsing} {out : Str} {result : α}
    (ran : ofOutcome outcome before = ⟨after, out, .value result⟩) :
    after = before ∧ out = [] ∧ outcome = .value result := by
  cases ran
  exact ⟨rfl, rfl, rfl⟩

/-- A tag that is linked into the tree is one more tag of the tree. -/
theorem attach_grows {add : Cursor Head → Nat → Head → Option (Cursor Head)}
    {name : Str} {head : Head} {current : Cursor Head} {next : Nat}
    {state : Parsing} {out : Str}
    (named : head.kind.getName ≠ "include".toList)
    (adds : ∀ level cursor, add current level head = some cursor →
      ∃ placed : Head, placed.kind.getName = head.kind.getName ∧
        cursor.root.labels.Perm (current.root.labels ++ [placed]))
    (ran : attach api add name head current ⟨some current, next⟩ =
      ⟨state, out, .value ()⟩) :
    Grows 1 ⟨some current, next⟩ state := by
  unfold attach at ran
  obtain ⟨middle, level, _, _, asked, ran, _⟩ := Prog.of_bind_value ran
  obtain ⟨rfl, rfl, _⟩ := of_ofOutcome asked
  cases placed : add current level head with
  | none =>
      rw [placed] at ran
      cases ran
  | some cursor =>
      rw [placed] at ran
      cases ran
      obtain ⟨tag, same, perm⟩ := adds level cursor placed
      refine ⟨[tag], perm, Nat.le_refl 1, ?_⟩
      intro new member
      rw [List.mem_singleton.mp member, same]
      exact named

theorem addLeaf_adds {current cursor : Cursor Head} {level : Nat} {head : Head}
    (added : addLeaf current level head = some cursor) :
    ∃ placed : Head, placed.kind.getName = head.kind.getName ∧
      cursor.root.labels.Perm (current.root.labels ++ [placed]) := by
  obtain ⟨parent, reached, rfl⟩ := Option.map_eq_some_iff.mp added
  exact ⟨{ head with depth := parent.tree.label.depth + 1 }, rfl,
    Cursor.labels_root_addAt reached _⟩

theorem addElement_adds {current cursor : Cursor Head} {level : Nat}
    {head : Head} (added : addElement current level head = some cursor) :
    ∃ placed : Head, placed.kind.getName = head.kind.getName ∧
      cursor.root.labels.Perm (current.root.labels ++ [placed]) := by
  obtain ⟨parent, reached, rfl⟩ := Option.map_eq_some_iff.mp added
  let adopted : Head := { head with depth := parent.tree.label.depth + 1 }
  let entered := parent.descend (.node adopted [])
  obtain ⟨linked, same, _, named, _⟩ := setLink_leaf
    (link (Node.getName entered.tree) entered.tree entered.frames) adopted
  refine ⟨linked, named, ?_⟩
  rw [← Cursor.root_ancestor reached]
  have whole : ({ entered with
      tree := Node.setLink (link (Node.getName entered.tree) entered.tree
        entered.frames) (.node adopted []) } : Cursor Head) =
      parent.descend (.node linked []) := by
    rw [same]
    rfl
  have placed := Cursor.labels_root_descend (.node linked []) parent
  rw [← whole] at placed
  exact placed

theorem of_includedRoot {element : Element} {root : Node}
    (found : includedRoot api load url element = .value root) :
    ∃ target count, load target = .value (some root, count) := by
  unfold includedRoot at found
  obtain ⟨target, _, found⟩ := Outcome.bind_eq_value.mp found
  split at found
  · cases found
  · obtain ⟨⟨loaded, count⟩, known, found⟩ := Outcome.bind_eq_value.mp found
    cases loaded with
    | none => cases found
    | some loaded =>
        cases found
        exact ⟨_, count, known⟩

/-- The tags of an included file are new. -/
theorem processInclude_grows {element : Element} {current : Cursor Head}
    {next : Nat} {state : Parsing} {out : Str}
    (unnamed : LoadsUnnamed load)
    (ran : processInclude api load url element ⟨some current, next⟩ =
      ⟨state, out, .value ()⟩) :
    ∃ root, includedRoot api load url element = .value root ∧
      Grows (LabelTree.labelsAll root.childs).length ⟨some current, next⟩
        state := by
  have processed := @Reads.processInclude_eq api load url element current next
  rw [ran] at processed
  cases found : includedRoot api load url element with
  | value root =>
      rw [found] at processed
      obtain ⟨count, same⟩ := processed
      cases same
      refine ⟨root, rfl, ?_⟩
      let childs := (Node.renumber next root).childs.map
        (Node.adopt current.tree.label.depth)
      have stands : (LabelTree.labelsAll childs).map Head.plain =
          (LabelTree.labelsAll root.childs).map Head.plain := by
        rw [← labelsAll_plain, ← labelsAll_plain,
          ← childs_renumber next root, List.map_map]
        congr 1
        exact List.map_congr_left fun child _ => plain_adopt _ child
      refine ⟨LabelTree.labelsAll childs, ?_, ?_, ?_⟩
      · rw [moveChilds_eq]
        apply Cursor.labels_root_change current.frames
        cases same : current.tree with
        | node head inside => simp [LabelTree.labels, childs, same]
      · have lengths := congrArg List.length stands
        simp only [List.length_map] at lengths
        exact Nat.le_of_eq lengths
      · intro head member
        have plain : head.plain ∈
            (LabelTree.labelsAll root.childs).map Head.plain := by
          rw [← stands]
          exact List.mem_map_of_mem member
        obtain ⟨original, known, same⟩ := List.mem_map.mp plain
        rw [← getName_plain, ← same, getName_plain]
        obtain ⟨target, count, loaded⟩ := of_includedRoot found
        apply unnamed target root count loaded
        cases root with
        | node top inside => exact List.mem_cons_of_mem _ known
  | error exception =>
      rw [found] at processed
      cases processed
  | halt reason =>
      rw [found] at processed
      cases processed

/-- An included file needs a current node, unless it is empty. -/
theorem processInclude_none {element : Element} {next : Nat}
    {after : Parsing} {out : Str}
    (ran : processInclude api load url element ⟨none, next⟩ =
      ⟨after, out, .value ()⟩) : after = ⟨none, next⟩ := by
  unfold processInclude at ran
  obtain ⟨_, target, _, _, asked, ran, _⟩ := Prog.of_bind_value ran
  obtain ⟨rfl, rfl, _⟩ := of_ofOutcome asked
  split at ran
  · cases ran
  · obtain ⟨_, ⟨root, count⟩, _, _, asked, ran, _⟩ := Prog.of_bind_value ran
    obtain ⟨rfl, rfl, _⟩ := of_ofOutcome asked
    cases root with
    | none => cases ran
    | some root =>
        change (if root.childs.isEmpty then pure ()
          else Prog.halt .fault : P Unit) ⟨none, next⟩ = _ at ran
        split at ran
        · cases ran
          rfl
        · cases ran

theorem atMost_include {element : Element} {kind : Kind} {root : Node}
    (creation : elementKind api element = .value (some kind))
    (named : kind.getName = "include".toList)
    (found : includedRoot api load url element = .value root) (depth : Nat) :
    atMost api load url (.element element depth) =
      (LabelTree.labelsAll root.childs).length := by
  unfold atMost
  simp only [creation, if_pos named, found]

theorem atMost_element {element : Element} {kind : Kind}
    (creation : elementKind api element = .value (some kind))
    (named : kind.getName ≠ "include".toList) (depth : Nat) :
    atMost api load url (.element element depth) = 1 := by
  unfold atMost
  simp only [creation, if_neg named]

theorem processElement_grows {element : Element} {depth : Nat}
    {before after : Parsing} {out : Str} (unnamed : LoadsUnnamed load)
    (ran : processElement api load url element depth before =
      ⟨after, out, .value ()⟩) :
    Grows (atMost api load url (.element element depth)) before after := by
  obtain ⟨cursor, next⟩ := before
  unfold processElement at ran
  obtain ⟨_, kind, _, _, asked, ran, _⟩ := Prog.of_bind_value ran
  obtain ⟨rfl, rfl, creation⟩ := of_ofOutcome asked
  cases kind with
  | none =>
      cases ran
      unfold atMost
      simp only [creation]
      exact .refl _ _
  | some kind =>
      simp only [beq_iff_eq] at ran
      by_cases named : kind.getName = "include".toList
      · rw [if_pos named] at ran
        cases cursor with
        | none =>
            rw [processInclude_none ran]
            exact .refl _ _
        | some current =>
            obtain ⟨root, found, grows⟩ := processInclude_grows unnamed ran
            rw [atMost_include creation named found]
            exact grows
      · rw [if_neg named] at ran
        rw [atMost_element creation named]
        cases cursor with
        | none =>
            cases ran
            refine ⟨[_], List.Perm.refl _, Nat.le_refl 1, ?_⟩
            intro head member
            rw [List.mem_singleton.mp member]
            exact named
        | some current =>
            exact attach_grows named (fun _ _ => addElement_adds) ran

theorem processText_grows {kind : Kind} {name value : Str} {depth : Nat}
    {before after : Parsing} {out : Str}
    (named : kind.getName ≠ "include".toList)
    (ran : processText api kind name value depth before =
      ⟨after, out, .value ()⟩) :
    Grows 1 before after := by
  obtain ⟨cursor, next⟩ := before
  cases cursor with
  | none =>
      cases ran
      exact .refl _ _
  | some current =>
      exact attach_grows named (fun _ _ => addLeaf_adds) ran

theorem processEnd_grows {before after : Parsing} {out : Str}
    (ran : processEnd before = ⟨after, out, .value ()⟩) :
    Grows 0 before after := by
  obtain ⟨cursor, next⟩ := before
  cases cursor with
  | none => cases ran
  | some current =>
      simp only [processEnd, Prog.act] at ran
      split at ran
      · cases ran
        exact .refl _ _
      · cases step : current.up with
        | none =>
            rw [step] at ran
            cases ran
            exact .refl _ _
        | some parent =>
            rw [step] at ran
            cases ran
            refine ⟨[], ?_, Nat.le_refl 0, by simp⟩
            simp [Parsing.heads, Cursor.root_eq_of_up step]

/-- One event. -/
theorem processNode_grows {event : ReaderEvent} {before after : Parsing}
    {out : Str} (unnamed : LoadsUnnamed load)
    (ran : processNode api load url event before = ⟨after, out, .value ()⟩) :
    Grows (atMost api load url event) before after := by
  cases event with
  | element element depth => exact processElement_grows unnamed ran
  | endElement => exact processEnd_grows ran
  | text value depth => exact processText_grows (by decide) ran
  | cdata value depth => exact processText_grows (by decide) ran
  | other =>
      cases ran
      exact .refl _ _

/-- A stream of events. -/
theorem read_grows {events : List ReaderEvent} {before after : Parsing}
    {out : Str} (unnamed : LoadsUnnamed load)
    (ran : read api load url events before = ⟨after, out, .value ()⟩) :
    Grows (atMostAll api load url events) before after := by
  induction events generalizing before out with
  | nil =>
      cases ran
      exact .refl _ _
  | cons event events induction =>
      obtain ⟨middle, _, _, _, first, rest, _⟩ := Prog.of_bind_value ran
      exact (processNode_grows unnamed first).trans (induction rest)

/-- The tags of a parsed file. -/
theorem parse_grows {depth : Nat} {source : Source} {root : Node}
    {count : Nat} (unnamed : LoadsUnnamed (parse api depth))
    (fetched : api.fetch url = some source)
    (parsed : parse api (depth + 1) url = .value (some root, count)) :
    root.labels.length ≤
        atMostAll api (parse api depth) url source.events ∧
      ∀ head ∈ root.labels, head.kind.getName ≠ "include".toList := by
  unfold parse at parsed
  rw [fetched] at parsed
  obtain ⟨_, ended, parsed⟩ := Outcome.bind_eq_value.mp parsed
  cases ran : Prog.forEach (processNode api (parse api depth) url)
      source.events ⟨none, 0⟩ with
  | mk state out outcome =>
      rw [ran] at ended parsed
      simp only at ended
      subst ended
      obtain ⟨more, perm, bound, names⟩ := read_grows unnamed ran
      split at parsed
      · cases parsed
      · simp only [Outcome.value.injEq, Prod.mk.injEq,
          Option.map_eq_some_iff] at parsed
        obtain ⟨⟨cursor, found, rfl⟩, _⟩ := parsed
        simp only [Parsing.heads, found, List.nil_append] at perm
        constructor
        · rw [perm.length_eq]
          exact bound
        · intro head member
          exact names head (perm.mem_iff.mp member)

/-- No tag of a parsed file is called `include`. -/
theorem parse_unnamed (depth : Nat) : LoadsUnnamed (parse api depth) := by
  induction depth with
  | zero =>
      intro target root count parsed
      cases parsed
  | succ depth induction =>
      intro target root count parsed
      cases fetched : api.fetch target with
      | none =>
          unfold parse at parsed
          rw [fetched] at parsed
          cases parsed
      | some source => exact (parse_grows induction fetched parsed).2

end Growth

section Reference

variable (api : ParserApi)

mutual

/-- Only an empty `dbp:include` is called `include`. -/
def Unnamed : Xml → Prop
  | .empty element =>
      isInclude element = true ∨
        elementName api element ≠ "include".toList
  | .element element childs =>
      elementName api element ≠ "include".toList ∧ UnnamedAll childs
  | _ => True

def UnnamedAll : List Xml → Prop
  | [] => True
  | xml :: xmls => Unnamed xml ∧ UnnamedAll xmls

end

variable {api} {load : Str → Outcome Exc (Option Node × Nat)} {url : Str}

/-- An element called `include` is called so in the tree as well. -/
theorem elementHead_named {element : Element} {head : Head}
    (known : elementHead api element = .value head)
    (named : elementName api element = "include".toList) :
    head.plain.kind.getName = "include".toList := by
  obtain ⟨kind, creation, same⟩ := Outcome.bind_eq_value.mp known
  cases same
  rw [getName_plain]
  simp only [elementName, creation] at named
  cases kind with
  | none => cases named
  | some created => exact named

/-- What an element that is not an included file adds: nothing if it is from
the ITS namespace. -/
theorem atMost_ordinary {element : Element} {head : Head}
    (known : elementHead api element = .value head)
    (named : elementName api element ≠ "include".toList) (depth : Nat) :
    atMost api load url (.element element depth) ≤ 1 ∧
      (¬ Ordinary api element →
        atMost api load url (.element element depth) = 0) := by
  obtain ⟨kind, creation, _⟩ := Outcome.bind_eq_value.mp known
  cases kind with
  | none =>
      have nothing : atMost api load url (.element element depth) = 0 := by
        unfold atMost
        simp only [creation]
      exact ⟨by omega, fun _ => nothing⟩
  | some created =>
      simp only [elementName, creation] at named
      constructor
      · rw [atMost_element creation named]
      · intro improper
        apply absurd _ improper
        intro kind same
        rw [creation] at same
        cases same
        exact ⟨created, rfl, named⟩

mutual

theorem exists_named : (xml : Xml) → {nodes : List Node} →
    splice api load url xml = .value nodes → ¬ Unnamed api xml →
    ∃ head ∈ LabelTree.labelsAll nodes, head.kind.getName = "include".toList
  | .empty element, nodes, stands, wrong => by
      have outside : ¬ isInclude element = true :=
        fun included => wrong (.inl included)
      have named : elementName api element = "include".toList := by
        by_contra other
        exact wrong (.inr other)
      rw [splice, if_neg outside] at stands
      obtain ⟨head, known, same⟩ := Outcome.bind_eq_value.mp stands
      cases same
      exact ⟨head.plain, by simp [LabelTree.labelsAll, LabelTree.labels],
        elementHead_named known named⟩
  | .element element childs, nodes, stands, wrong => by
      rw [splice] at stands
      obtain ⟨head, known, stands⟩ := Outcome.bind_eq_value.mp stands
      obtain ⟨inner, content, same⟩ := Outcome.bind_eq_value.mp stands
      cases same
      by_cases named : elementName api element = "include".toList
      · exact ⟨head.plain, by simp [LabelTree.labelsAll, LabelTree.labels],
          elementHead_named known named⟩
      · obtain ⟨found, member, called⟩ := exists_namedAll childs content
          fun fine => wrong ⟨named, fine⟩
        exact ⟨found, by simp [LabelTree.labelsAll, LabelTree.labels, member],
          called⟩
  | .text _, _, _, wrong => absurd trivial wrong
  | .cdata _, _, _, wrong => absurd trivial wrong
  | .other, _, _, wrong => absurd trivial wrong

theorem exists_namedAll : (xmls : List Xml) → {nodes : List Node} →
    spliceAll api load url xmls = .value nodes → ¬ UnnamedAll api xmls →
    ∃ head ∈ LabelTree.labelsAll nodes, head.kind.getName = "include".toList
  | [], _, _, wrong => absurd trivial wrong
  | xml :: xmls, nodes, stands, wrong => by
      rw [spliceAll] at stands
      obtain ⟨first, one, stands⟩ := Outcome.bind_eq_value.mp stands
      obtain ⟨rest, two, same⟩ := Outcome.bind_eq_value.mp stands
      cases same
      rw [LabelTree.labelsAll_append]
      by_cases fine : Unnamed api xml
      · obtain ⟨found, member, called⟩ := exists_namedAll xmls two
          fun later => wrong ⟨fine, later⟩
        exact ⟨found, List.mem_append_right _ member, called⟩
      · obtain ⟨found, member, called⟩ := exists_named xml one fine
        exact ⟨found, List.mem_append_left _ member, called⟩

end

theorem atMostAll_append (first second : List ReaderEvent) :
    atMostAll api load url (first ++ second) =
      atMostAll api load url first + atMostAll api load url second := by
  induction first with
  | nil => simp [atMostAll]
  | cons event events induction =>
      simp only [List.cons_append, atMostAll, induction]
      omega

mutual

/-- The events of a node do not add more tags than it stands for, and fewer
if it contains an element of the ITS namespace. -/
theorem atMost_events : (xml : Xml) → {nodes : List Node} →
    splice api load url xml = .value nodes → Unnamed api xml →
    (depth : Nat) →
    atMostAll api load url (xml.events depth) ≤
        (LabelTree.labelsAll nodes).length ∧
      (¬ Proper api xml →
        atMostAll api load url (xml.events depth) <
          (LabelTree.labelsAll nodes).length)
  | .empty element, nodes, stands, fine, depth => by
      simp only [Xml.events, atMostAll]
      by_cases included : isInclude element = true
      · rw [splice, if_pos included] at stands
        obtain ⟨root, found, same⟩ := Outcome.bind_eq_value.mp stands
        cases same
        rw [atMost_include (elementKind_include included) rfl found,
          labelsAll_plain, List.length_map]
        exact ⟨Nat.le_refl _, fun wrong => absurd (.inl included) wrong⟩
      · rw [splice, if_neg included] at stands
        obtain ⟨head, known, same⟩ := Outcome.bind_eq_value.mp stands
        cases same
        obtain ⟨least, nothing⟩ := @atMost_ordinary api load url _ _ known
          (fine.resolve_left included) depth
        constructor
        · simpa [LabelTree.labelsAll, LabelTree.labels, atMostAll] using least
        · intro wrong
          rw [nothing fun ordinary => wrong (.inr ordinary)]
          simp [LabelTree.labelsAll, LabelTree.labels]
  | .element element childs, nodes, stands, fine, depth => by
      rw [splice] at stands
      obtain ⟨head, known, stands⟩ := Outcome.bind_eq_value.mp stands
      obtain ⟨inner, content, same⟩ := Outcome.bind_eq_value.mp stands
      cases same
      obtain ⟨least, nothing⟩ := @atMost_ordinary api load url _ _ known
        fine.1 depth
      obtain ⟨inside, fewer⟩ := atMost_eventsAll childs content fine.2
        (depth + 1)
      have ends : atMost api load url .endElement = 0 := rfl
      simp only [Xml.events, atMostAll, atMostAll_append, ends,
        LabelTree.labelsAll, LabelTree.labels, List.append_nil,
        List.length_cons]
      constructor
      · omega
      · intro wrong
        by_cases ordinary : Ordinary api element
        · have strict := fewer fun proper => wrong ⟨ordinary, proper⟩
          omega
        · have none := nothing ordinary
          omega
  | .text _, _, stands, _, _ => by
      cases stands
      exact ⟨Nat.le_refl 1, fun wrong => absurd trivial wrong⟩
  | .cdata _, _, stands, _, _ => by
      cases stands
      exact ⟨Nat.le_refl 1, fun wrong => absurd trivial wrong⟩
  | .other, _, stands, _, _ => by
      cases stands
      exact ⟨Nat.le_refl 0, fun wrong => absurd trivial wrong⟩

theorem atMost_eventsAll : (xmls : List Xml) → {nodes : List Node} →
    spliceAll api load url xmls = .value nodes → UnnamedAll api xmls →
    (depth : Nat) →
    atMostAll api load url (Xml.eventsAll depth xmls) ≤
        (LabelTree.labelsAll nodes).length ∧
      (¬ ProperAll api xmls →
        atMostAll api load url (Xml.eventsAll depth xmls) <
          (LabelTree.labelsAll nodes).length)
  | [], _, stands, _, _ => by
      cases stands
      exact ⟨Nat.le_refl 0, fun wrong => absurd trivial wrong⟩
  | xml :: xmls, nodes, stands, fine, depth => by
      rw [spliceAll] at stands
      obtain ⟨first, one, stands⟩ := Outcome.bind_eq_value.mp stands
      obtain ⟨rest, two, same⟩ := Outcome.bind_eq_value.mp stands
      cases same
      obtain ⟨left, fewer⟩ := atMost_events xml one fine.1 depth
      obtain ⟨right, less⟩ := atMost_eventsAll xmls two fine.2 depth
      simp only [Xml.eventsAll, atMostAll_append, LabelTree.labelsAll_append,
        List.length_append]
      constructor
      · omega
      · intro wrong
        by_cases proper : Proper api xml
        · have strict := less fun later => wrong ⟨proper, later⟩
          omega
        · have strict := fewer proper
          omega

end

/-- A tree in which nothing is missing was parsed from a document without
elements that are dropped. -/
theorem proper_of_parse {depth : Nat} {document : Document} {node root : Node}
    {count : Nat} (source : api.fetch url = some ⟨document.events, none⟩)
    (reference : spliceRoot api (parse api depth) url document = .value node)
    (parsed : parse api (depth + 1) url = .value (some root, count))
    (same : root.plain = node) :
    Ordinary api document.root ∧
      ProperAll api (document.content.getD []) := by
  obtain ⟨bound, names⟩ := parse_grows (parse_unnamed depth) source parsed
  obtain ⟨head, known, reference⟩ := Outcome.bind_eq_value.mp reference
  obtain ⟨inner, content, whole⟩ := Outcome.bind_eq_value.mp reference
  cases whole
  have labels := labels_plain root
  rw [same] at labels
  simp only [LabelTree.labels] at labels
  -- A tag called `include` in the reference would have to be in the tree.
  have unnamed : ∀ tag ∈ head.plain :: LabelTree.labelsAll inner,
      tag.kind.getName ≠ "include".toList := by
    intro tag member
    rw [labels] at member
    obtain ⟨original, found, rfl⟩ := List.mem_map.mp member
    rw [getName_plain]
    exact names original found
  have fineRoot : elementName api document.root ≠ "include".toList := by
    intro named
    exact unnamed _ List.mem_cons_self (elementHead_named known named)
  have fine : UnnamedAll api (document.content.getD []) := by
    by_contra wrong
    obtain ⟨tag, member, named⟩ := exists_namedAll _ content wrong
    exact unnamed tag (List.mem_cons_of_mem _ member) named
  -- An element of the ITS namespace would leave the tree too small.
  have size := congrArg List.length labels
  simp only [List.length_cons, List.length_map] at size
  have others : ∀ number, atMostAll api (parse api depth) url
      (List.replicate number .other) = 0 := by
    intro number
    induction number with
    | zero => rfl
    | succ number induction =>
        rw [List.replicate_succ, atMostAll, induction]
        rfl
  have total : atMostAll api (parse api depth) url document.events =
      atMost api (parse api depth) url (.element document.root 0) +
        atMostAll api (parse api depth) url
          (Xml.eventsAll 1 (document.content.getD [])) := by
    unfold Document.events Document.xml
    rw [atMostAll_append, atMostAll_append, others, others]
    cases document.content with
    | none => simp [Xml.events, Xml.eventsAll, atMostAll]
    | some childs =>
        have ends : atMost api (parse api depth) url .endElement = 0 := rfl
        simp only [Xml.events, atMostAll, atMostAll_append, ends,
          Option.getD_some, Nat.zero_add]
        omega
  simp only at bound
  rw [total] at bound
  obtain ⟨least, nothing⟩ := @atMost_ordinary api (parse api depth) url _ _
    known fineRoot 0
  obtain ⟨inside, fewer⟩ := atMost_eventsAll _ content fine 1
  constructor
  · by_contra wrong
    have none := nothing wrong
    omega
  · by_contra wrong
    have strict := fewer wrong
    omega

/-- The tree of a document is the one with every empty `dbp:include` replaced
by the children of the included root exactly when no other element is called
`include`, none is from the ITS namespace, and the current node is the open
element wherever a file that has anything to include is included. -/
theorem parse_splices_iff (depth : Nat) {document : Document} {node : Node}
    (source : api.fetch url = some ⟨document.events, none⟩)
    (reference : spliceRoot api (parse api depth) url document =
      .value node) :
    (∃ (root : Node) (count : Nat),
        parse api (depth + 1) url = .value (some root, count) ∧
          root.plain = node) ↔
      Ordinary api document.root ∧
        ProperAll api (document.content.getD []) ∧
        InPlaceAll api (parse api depth) url (document.content.getD [])
          [] := by
  constructor
  · rintro ⟨root, count, parsed, same⟩
    obtain ⟨ordinary, proper⟩ := proper_of_parse source reference parsed same
    refine ⟨ordinary, proper, ?_⟩
    by_contra wrong
    have known := @parse_document api url depth document source ordinary proper
    rw [reference] at known
    obtain ⟨tree, number, ran, _, longer⟩ := known
    rw [parsed] at ran
    cases ran
    have strict := longer wrong
    rw [← same, pathLength_plain] at strict
    omega
  · rintro ⟨ordinary, proper, inPlace⟩
    have known := @parse_document api url depth document source ordinary proper
    rw [reference] at known
    obtain ⟨root, count, parsed, placed, _⟩ := known
    exact ⟨root, count, parsed, (placed inPlace).1⟩

end Reference

def includeName : XmlName :=
  ⟨"include".toList, head_ne_at (Char.ne_of_val_ne nofun)⟩

/-- `<dbp:include href="part"/>`. -/
def includePart : Element :=
  ⟨includeName, dbpagerUri, includeName,
    [⟨"href".toList, "href".toList, false, [], "part".toList⟩]⟩

/-- `<dbp:module>text</dbp:module>`. -/
def partDocument : Document :=
  ⟨0, dbpElement moduleName, some [.text "text".toList], 0⟩

/-- The file `part` and, under any other name, the given document. -/
def filesWith (document : Document) (name : Str) : Option Source :=
  if name = "part".toList then some ⟨partDocument.events, none⟩
  else some ⟨document.events, none⟩

/-- `<dbp:module><dbp:include href="part"/><hr/></dbp:module>`. -/
def includeFirst : Document :=
  ⟨0, dbpElement moduleName,
    some [.empty includePart, .empty (htmlElement ruleName)], 0⟩

/-- Nothing stands before the included file. -/
theorem parse_splices_iff_first :
    (∃ (root : Node) (count : Nat),
        parse (plainParser (filesWith includeFirst)) 2 [] =
            .value (some root, count) ∧
          root.plain =
            .node ⟨0, 0, .module, [], []⟩
              [.node ⟨0, 0, .expression, [], "text".toList⟩ [],
                .node ⟨0, 0, .unknown ruleName, [], []⟩ []]) ↔
      Ordinary (plainParser (filesWith includeFirst)) includeFirst.root ∧
        ProperAll (plainParser (filesWith includeFirst))
          (includeFirst.content.getD []) ∧
        InPlaceAll (plainParser (filesWith includeFirst))
          (parse (plainParser (filesWith includeFirst)) 1) []
          (includeFirst.content.getD []) [] :=
  @parse_splices_iff (plainParser (filesWith includeFirst)) [] 1 includeFirst _
    rfl rfl

/-- `<dbp:module><hr/><dbp:include href="part"/></dbp:module>`. -/
def includeAfterEmpty : Document :=
  ⟨0, dbpElement moduleName,
    some [.empty (htmlElement ruleName), .empty includePart], 0⟩

/-- After an empty element, the included tags become its children. -/
theorem include_after_empty_element :
    (∃ node, spliceRoot (plainParser (filesWith includeAfterEmpty))
        (parse (plainParser (filesWith includeAfterEmpty)) 1) []
        includeAfterEmpty = .value node ∧
      node = .node ⟨0, 0, .module, [], []⟩
        [.node ⟨0, 0, .unknown ruleName, [], []⟩ [],
          .node ⟨0, 0, .expression, [], "text".toList⟩ []]) ∧
    ∃ (root : Node) (count : Nat),
      parse (plainParser (filesWith includeAfterEmpty)) 2 [] =
          .value (some root, count) ∧
        root.plain = .node ⟨0, 0, .module, [], []⟩
          [.node ⟨0, 0, .unknown ruleName, [], []⟩
            [.node ⟨0, 0, .expression, [], "text".toList⟩ []]] ∧
        root.plain ≠ .node ⟨0, 0, .module, [], []⟩
          [.node ⟨0, 0, .unknown ruleName, [], []⟩ [],
            .node ⟨0, 0, .expression, [], "text".toList⟩ []] := by
  refine ⟨⟨_, rfl, rfl⟩, ⟨_, _, rfl, rfl, ?_⟩⟩
  intro same
  have lengths := congrArg (fun node : Node => node.childs.length) same
  exact absurd lengths (by decide)

end DbpxParser

end DbPager
