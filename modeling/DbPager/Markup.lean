import DbPager.Plain
import DbPager.Template

/-!
# Markup and data

An HTML element writes its delimiters as control bytes, so that the escaping
of its content by the elements around it does not touch them; the outermost
element turns them into the real delimiters.  Here the markup characters of
the output are shown to be those the script wrote, as far as no value brings
a control byte of its own and the form of the void elements is settled.
-/

namespace DbPager

open Effect

variable {W : Type}

namespace Markup

/-- The control bytes that stand for `<` and `>`. -/
def isStandIn (c : Char) : Bool :=
  c == Char.ofNat 3 || c == Char.ofNat 4

def isAngle (c : Char) : Bool :=
  c == '<' || c == '>'

/-- The stand-ins of a text, in order. -/
def standIns (text : Str) : Str :=
  text.filter isStandIn

/-- The markup of a text, in order, be it real or a stand-in. -/
def marks (text : Str) : Str :=
  text.filter fun c => isStandIn c || isAngle c

/-- The name of an attribute, as XML allows it. -/
structure AttributeName where
  text : Str
  plain : text.head? ≠ some '@'
  noMarkup : text.all (fun c => !isStandIn c && !isAngle c) = true

/-- HTML elements whose texts and attribute values are templates. -/
inductive Node where
  | text (template : Template)
  | element (name : XmlName) (attributes : List (AttributeName × Template))
      (childs : List Node)

mutual

/-- The node as the parser builds it. -/
def Node.tag : Node → Tag
  | .text template => .mk 0 .expression [] [] (Template.text template)
  | .element name attributes childs =>
      .mk 0 (.unknown name)
        (attributes.map fun entry => (entry.1.text, Template.text entry.2))
        (Node.tags childs) []

def Node.tags : List Node → List Tag
  | [] => []
  | node :: nodes => node.tag :: Node.tags nodes

end

mutual

/-- The number of elements around the innermost node. -/
def Node.height : Node → Nat
  | .text _ => 0
  | .element _ _ childs => Node.heightAll childs + 1

def Node.heightAll : List Node → Nat
  | [] => 0
  | node :: nodes => max node.height (Node.heightAll nodes)

end

mutual

/-- All templates of the tree. -/
def Node.templates : Node → List Template
  | .text template => [template]
  | .element _ attributes childs =>
      attributes.map Prod.snd ++ Node.templatesAll childs

def Node.templatesAll : List Node → List Template
  | [] => []
  | node :: nodes => node.templates ++ Node.templatesAll nodes

end

mutual

/-- The contents of the void elements of the tree. -/
def Node.voids : Node → List (List Node)
  | .text _ => []
  | .element name _ childs =>
      (if voidElements.contains name.text then [childs] else []) ++
        Node.voidsAll childs

def Node.voidsAll : List Node → List (List Node)
  | [] => []
  | node :: nodes => node.voids ++ Node.voidsAll nodes

end

/-- The names of the variables that occur in the tree. -/
def Node.reads (node : Node) : List Str :=
  node.templates.flatMap Template.reads

/-- What an attribute adds to the opening tag. -/
def attributeText (contexts : List Context) (entry : AttributeName × Template) :
    Str :=
  if entry.1.text.isEmpty then []
  else if (Template.value contexts entry.2).isEmpty then []
  else ' ' :: entry.1.text ++ '=' :: Char.ofNat 2 ::
    htmlentities (Template.value contexts entry.2) ++ [Char.ofNat 2]

mutual

/-- What a node writes inside the outermost element. -/
def Node.output (contexts : List Context) : Node → Str
  | .text template => Template.value contexts template
  | .element name attributes childs =>
      Char.ofNat 3 :: name.text ++ attributes.flatMap (attributeText contexts) ++
        TagUnknown.content name.text htmlentities
          (Node.outputAll contexts childs)

def Node.outputAll (contexts : List Context) : List Node → Str
  | [] => []
  | node :: nodes => node.output contexts ++ Node.outputAll contexts nodes

end

theorem tags_eq (nodes : List Node) : Node.tags nodes = nodes.map Node.tag := by
  induction nodes with
  | nil => rfl
  | cons node nodes induction => simp [Node.tags, induction]

theorem outputAll_eq (contexts : List Context) (nodes : List Node) :
    Node.outputAll contexts nodes = nodes.flatMap (Node.output contexts) := by
  induction nodes with
  | nil => rfl
  | cons node nodes induction => simp [Node.outputAll, induction]

theorem height_le {node : Node} {nodes : List Node} (member : node ∈ nodes) :
    node.height ≤ Node.heightAll nodes := by
  induction nodes with
  | nil => cases member
  | cons first nodes induction =>
      unfold Node.heightAll
      rcases List.mem_cons.mp member with rfl | later
      · omega
      · have bound := induction later
        omega

theorem mem_templatesAll {node : Node} {nodes : List Node}
    {template : Template} (member : node ∈ nodes)
    (inside : template ∈ node.templates) :
    template ∈ Node.templatesAll nodes := by
  induction nodes with
  | nil => cases member
  | cons first nodes induction =>
      unfold Node.templatesAll
      rcases List.mem_cons.mp member with rfl | later
      · simp [inside]
      · simp [induction later]

theorem mem_voidsAll {node : Node} {nodes content : List Node}
    (member : node ∈ nodes) (inside : content ∈ node.voids) :
    content ∈ Node.voidsAll nodes := by
  induction nodes with
  | nil => cases member
  | cons first nodes induction =>
      unfold Node.voidsAll
      rcases List.mem_cons.mp member with rfl | later
      · simp [inside]
      · simp [induction later]

/-- The output depends only on the values of the templates. -/
theorem output_congr {first second : List Context} (bound : Nat) :
    ∀ node : Node, node.height ≤ bound →
      (∀ template ∈ node.templates,
        Template.value first template = Template.value second template) →
      node.output first = node.output second := by
  induction bound with
  | zero =>
      intro node low same
      cases node with
      | text template => exact same template (by simp [Node.templates])
      | element name attributes childs => simp [Node.height] at low
  | succ bound induction =>
      intro node low same
      cases node with
      | text template => exact same template (by simp [Node.templates])
      | element name attributes childs =>
          have written : attributes.flatMap (attributeText first) =
              attributes.flatMap (attributeText second) := by
            apply List.flatMap_congr
            intro entry member
            have value := same entry.2 (by
              simp only [Node.templates, List.mem_append, List.mem_map]
              exact .inl ⟨entry, member, rfl⟩)
            simp [attributeText, value]
          have inner : Node.outputAll first childs =
              Node.outputAll second childs := by
            rw [outputAll_eq, outputAll_eq]
            apply List.flatMap_congr
            intro child member
            have lower := height_le member
            simp only [Node.height] at low
            apply induction child (by omega)
            intro template inside
            apply same
            simp [Node.templates, mem_templatesAll member inside]
          simp only [Node.output, written, inner]

section Execution

variable {outside : Outside W} {budget : Nat}
  {run : Loc → Option Loc → M W Unit}

theorem isPrefixOf_of_head {first : Char} {rest name : Str}
    (plain : name.head? ≠ some first) :
    (first :: rest).isPrefixOf name = false := by
  cases name with
  | nil => rfl
  | cons c name =>
      have different : first ≠ c := by
        rintro rfl
        exact plain rfl
      simp [List.isPrefixOf, different]

/-- The loc of an element has no parameter that starts with `@`. -/
theorem convert_element (name : XmlName)
    (attributes : List (AttributeName × Template)) (childs : List Node)
    (up : List Tag) :
    TagUnknown.convert ⟨Node.tag (.element name attributes childs), up⟩ =
      htmlentities := by
  have absent : Loc.findParam
      ⟨Node.tag (.element name attributes childs), up⟩
      "@DBP:PARAM@asis".toList = none := by
    unfold Loc.findParam
    simp only [Node.tag, Tag.params, Option.map_eq_none_iff,
      List.find?_eq_none, List.mem_map]
    rintro param ⟨entry, member, rfl⟩ same
    have head := entry.1.plain
    simp only [beq_iff_eq] at same
    rw [same] at head
    exact head rfl
  unfold TagUnknown.convert
  rw [absent]
  rfl

theorem executeParam_template (self : Loc) (template : Template)
    (state : St W) :
    (Interp.ofRun outside budget run).executeParam self
        (Template.text template) state =
      ⟨state, [], .value (Template.value state.contexts template)⟩ :=
  Evaluator.evaluate_template outside _ template state

theorem writeParam_eq {self : Loc}
    (escapes : TagUnknown.convert self = htmlentities)
    (entry : AttributeName × Template) (state : St W) :
    TagUnknown.writeParam (Interp.ofRun outside budget run) self
        (entry.1.text, Template.text entry.2) state =
      ⟨state, attributeText state.contexts entry, .value ()⟩ := by
  have notAttr : TagUnknown.isAttrParam entry.1.text = false :=
    isPrefixOf_of_head entry.1.plain
  have notDbp : TagUnknown.isDbpParam entry.1.text = false :=
    isPrefixOf_of_head entry.1.plain
  unfold TagUnknown.writeParam attributeText
  by_cases empty : entry.1.text.isEmpty = true
  · simp [empty, pure, Prog.pure]
  · simp only [empty, notAttr, notDbp, Bool.false_eq_true, if_false]
    rw [Prog.bind_silent (executeParam_template self entry.2 state), escapes]
    by_cases missing :
        (Template.value state.contexts entry.2).isEmpty = true
    · simp [missing, Prog.when, Prog.pure]
    · simp [missing, Prog.when, Prog.emit]

theorem realExecute_eq {self : Loc} {name : XmlName}
    {attributes : List (AttributeName × Template)} {childs : List Node}
    (node : self.tag = Node.tag (.element name attributes childs))
    (caller : Option Loc) (state : St W)
    (ran : ∀ child ∈ childs, run (self.child child.tag) caller state =
      ⟨state, child.output state.contexts, .value ()⟩) :
    TagUnknown.realExecute (Interp.ofRun outside budget run) self caller
        state =
      ⟨state, Node.output state.contexts (.element name attributes childs),
        .value ()⟩ := by
  have escapes : TagUnknown.convert self = htmlentities := by
    rcases self with ⟨tag, up⟩
    cases node
    exact convert_element name attributes childs up
  have named : self.tag.getName = name.text := by
    rw [node]
    rfl
  have params : Prog.forEach
      (TagUnknown.writeParam (Interp.ofRun outside budget run) self)
      self.tag.params state =
      ⟨state, attributes.flatMap (attributeText state.contexts),
        .value ()⟩ := by
    have listed : self.tag.params = attributes.map fun entry =>
        (entry.1.text, Template.text entry.2) := by
      rw [node]
      rfl
    rw [listed, Prog.forEach_map]
    apply Prog.forEach_eq
    intro entry member
    exact writeParam_eq escapes entry state
  have body : (Interp.ofRun outside budget run).executeChilds self caller
      state = ⟨state, Node.outputAll state.contexts childs, .value ()⟩ := by
    have listed : self.tag.childs = childs.map Node.tag := by
      rw [node, ← tags_eq]
      rfl
    have text : self.tag.text = [] := by
      rw [node]
      rfl
    have each : Prog.forEach (fun tag => run (self.child tag) caller)
        self.tag.childs state =
        ⟨state, Node.outputAll state.contexts childs, .value ()⟩ := by
      rw [listed, Prog.forEach_map, outputAll_eq]
      exact Prog.forEach_eq ran
    have whole := Prog.bind_eq each fun _ => Prog.emit []
    simp only [Prog.emit, List.append_nil] at whole
    rw [Interp.executeChilds, text]
    exact whole
  have opened : (Prog.emit (Char.ofNat 3 :: name.text) : M W Unit) state =
      ⟨state, Char.ofNat 3 :: name.text, .value ()⟩ := rfl
  unfold TagUnknown.realExecute
  rw [escapes, named, Prog.bind_eq opened, Prog.bind_eq params,
    Prog.bind_silent (Prog.capture_eq body)]
  simp [Prog.emit, Node.output]

/-- Inside the outermost element a node writes its output and changes
nothing. -/
theorem execute_inside (node : Node) (depth : Nat) (deep : node.height < depth)
    (up : List Tag) (caller : Option Loc) (state : St W)
    (inside : Chain.getValue htmlFirst state.contexts ≠ []) :
    execute outside depth ⟨node.tag, up⟩ caller state =
      ⟨state, node.output state.contexts, .value ()⟩ := by
  induction depth generalizing node up with
  | zero => omega
  | succ depth induction =>
      cases node with
      | text template =>
          have ran := Evaluator.evaluate_template outside
            (Evaluator.executeFunction outside (execute outside depth)
              (Node.tag (.text template) :: up)) template state
          exact Prog.bind_silent ran _
      | element name attributes childs =>
          have ran : TagUnknown.realExecute
              (Interp.ofRun outside depth (execute outside depth))
              ⟨Node.tag (.element name attributes childs), up⟩ caller state =
              ⟨state, Node.output state.contexts
                (.element name attributes childs), .value ()⟩ := by
            apply realExecute_eq rfl
            intro child member
            have lower := height_le member
            unfold Node.height at deep
            exact induction child (by omega) _
          have root : (Chain.getValue htmlFirst state.contexts).isEmpty =
              false := by
            simpa using inside
          change TagUnknown.execute _ _ _ state = _
          unfold TagUnknown.execute
          rw [Prog.bind_silent (M.getValue_eq htmlFirst state), root]
          exact ran

/-- No template reads a variable of the interpreter. -/
theorem htmlFirst_not_mem_reads (template : Template) :
    upName htmlFirst ∉ Template.reads template := by
  intro read
  obtain ⟨piece, member, here⟩ := List.mem_flatMap.mp read
  cases piece with
  | literal text plain => cases here
  | var name plain =>
      have same := List.mem_singleton.mp here
      cases name with
      | nil => cases same
      | cons c name =>
          have head : c = '@' :=
            eq_of_toUpper_eq (List.cons.inj same).1.symm (by decide)
          have isVariable := List.all_eq_true.mp plain c (by simp)
          rw [head] at isVariable
          exact absurd isVariable (by decide)

/-- The mark of the outermost element does not change the output. -/
theorem output_withLayer (node : Node) {contexts : List Context}
    (chain : contexts ≠ []) (value : Str) :
    node.output (Chain.withLayer (AList.insert (upName htmlFirst) value ∅)
      contexts) = node.output contexts := by
  apply output_congr node.height node (Nat.le_refl _)
  intro template member
  apply Template.value_congr
  intro name read
  rw [Chain.getValue_withLayer name _ chain]
  have different : upName name ≠ upName htmlFirst := by
    intro same
    rw [same] at read
    exact htmlFirst_not_mem_reads template read
  rw [AList.lookup_insert_ne different]
  rfl

/-- The outermost element turns the control bytes into delimiters. -/
theorem execute_root (name : XmlName)
    (attributes : List (AttributeName × Template)) (childs : List Node)
    (depth : Nat) (deep : (Node.element name attributes childs).height < depth)
    (up : List Tag) (caller : Option Loc) (state : St W)
    (chain : state.contexts ≠ [])
    (outermost : Chain.getValue htmlFirst state.contexts = []) :
    execute outside depth ⟨Node.tag (.element name attributes childs), up⟩
        caller state =
      ⟨state, htmlentitiesout
        (Node.output state.contexts (.element name attributes childs)),
        .value ()⟩ := by
  cases depth with
  | zero => omega
  | succ depth =>
      obtain ⟨layer, mark⟩ : ∃ layer : Vars,
          AList.insert (upName htmlFirst) "1".toList ∅ = layer := ⟨_, rfl⟩
      have inside : Chain.getValue htmlFirst
          (state.withLayer layer).contexts ≠ [] := by
        change Chain.getValue htmlFirst
          (Chain.withLayer layer state.contexts) ≠ []
        rw [Chain.getValue_withLayer htmlFirst _ chain, ← mark,
          AList.lookup_insert]
        exact List.cons_ne_nil _ _
      have added : M.addValue outside.dcl htmlFirst "1".toList
          (state.withLayer ∅) = ⟨state.withLayer layer, [], .value ()⟩ := by
        rw [← mark]
        exact M.addValue_withLayer outside.dcl htmlFirst _ ∅ chain rfl
      have ran : TagUnknown.realExecute
          (Interp.ofRun outside depth (execute outside depth))
          ⟨Node.tag (.element name attributes childs), up⟩ caller
          (state.withLayer layer) =
          ⟨state.withLayer layer, Node.output (state.withLayer layer).contexts
            (.element name attributes childs), .value ()⟩ := by
        apply realExecute_eq rfl
        intro child member
        have lower := height_le member
        unfold Node.height at deep
        exact execute_inside child depth (by omega) _ caller _ inside
      have same : Node.output (state.withLayer layer).contexts
          (.element name attributes childs) =
          Node.output state.contexts (.element name attributes childs) := by
        rw [← mark]
        exact output_withLayer _ chain _
      rw [same] at ran
      change TagUnknown.execute _ _ _ state = _
      unfold TagUnknown.execute
      rw [Prog.bind_silent (M.getValue_eq htmlFirst state), outermost]
      have left : (state.withLayer layer).contexts =
          Chain.withLayer layer state.contexts := rfl
      have body := Prog.bind_silent added fun _ => do
        let data ← (TagUnknown.realExecute
          (Interp.ofRun outside depth (execute outside depth))
          ⟨Node.tag (.element name attributes childs), up⟩ caller).capture
        Prog.emit (htmlentitiesout data)
      rw [Prog.bind_silent (Prog.capture_eq ran)] at body
      change _ = Run.mk (state.withLayer layer) _ (.value ()) at body
      have whole := M.withLayer_eq chain body left
      exact whole

end Execution

section Marks

@[simp] theorem standIns_nil : standIns [] = [] := rfl

@[simp] theorem standIns_append (left right : Str) :
    standIns (left ++ right) = standIns left ++ standIns right := by
  simp [standIns]

@[simp] theorem marks_nil : marks [] = [] := rfl

@[simp] theorem marks_append (left right : Str) :
    marks (left ++ right) = marks left ++ marks right := by
  simp [marks]

theorem standIns_flatMap {α : Type} (output : α → Str) (items : List α) :
    standIns (items.flatMap output) =
      items.flatMap fun item => standIns (output item) := by
  induction items with
  | nil => rfl
  | cons item items induction => simp [induction]

theorem marks_flatMap {α : Type} (output : α → Str) (items : List α) :
    marks (items.flatMap output) =
      items.flatMap fun item => marks (output item) := by
  induction items with
  | nil => rfl
  | cons item items induction => simp [induction]

theorem standIns_marks (text : Str) : (marks text).filter isStandIn =
    standIns text := by
  simp only [marks, standIns, List.filter_filter]
  apply List.filter_congr
  intro c _
  cases isStandIn c <;> rfl

theorem angles_marks (text : Str) : (marks text).filter isAngle =
    text.filter isAngle := by
  simp only [marks, List.filter_filter]
  apply List.filter_congr
  intro c _
  cases isAngle c <;> simp

/-- Escaping leaves no markup but the stand-ins. -/
theorem marks_htmlentities (text : Str) :
    marks (htmlentities text) = standIns text := by
  have one (c : Char) : marks (htmlEntity c) = standIns [c] := by
    unfold htmlEntity
    split
    · rfl
    · rfl
    · rfl
    · rfl
    · rename_i apos quot lt gt
      have angle : isAngle c = false := by
        simp only [isAngle, Bool.or_eq_false_iff, beq_eq_false_iff_ne]
        exact ⟨lt, gt⟩
      simp only [marks, standIns, List.filter_cons, angle, Bool.or_false,
        List.filter_nil]
  induction text with
  | nil => rfl
  | cons c text induction =>
      have split : htmlentities (c :: text) =
          htmlEntity c ++ htmlentities text := rfl
      rw [split, marks_append, one, induction, ← standIns_append]
      rfl

/-- At the end the stand-ins become markup. -/
theorem angles_htmlentitiesout (text : Str) :
    (htmlentitiesout text).filter isAngle = (marks text).map unstubChar := by
  have one (c : Char) :
      isAngle (unstubChar c) = (isStandIn c || isAngle c) := by
    unfold unstubChar
    split
    · rename_i same
      rw [same]
      decide
    · split
      · rename_i same
        rw [same]
        decide
      · split
        · rename_i same
          rw [same]
          decide
        · split
          · rename_i same
            rw [same]
            decide
          · rename_i first second third fourth
            simp [isStandIn, third, fourth]
  induction text with
  | nil => rfl
  | cons c text induction =>
      simp only [htmlentitiesout, marks, List.map_cons, List.filter_cons, one]
        at induction ⊢
      split <;> simp [induction]

end Marks

section TwoRuns

variable {first second : List Context}

/-- The stand-ins of a template are those of its literal text. -/
theorem standIns_value {template : Template}
    (free : ∀ name, upName name ∈ Template.reads template →
      standIns (Chain.getValue name first) = [] ∧
        standIns (Chain.getValue name second) = []) :
    standIns (Template.value first template) =
      standIns (Template.value second template) := by
  unfold Template.value
  rw [standIns_flatMap, standIns_flatMap]
  apply List.flatMap_congr
  intro piece member
  cases piece with
  | literal text plain => rfl
  | var name plain =>
      obtain ⟨one, two⟩ := free name
        (List.mem_flatMap.mpr ⟨_, member, List.mem_singleton_self _⟩)
      exact one.trans two.symm

/-- An attribute has no markup but the stand-ins of its value, also when it
is left out because the value is empty. -/
theorem marks_attributeText (contexts : List Context)
    (entry : AttributeName × Template) :
    marks (attributeText contexts entry) =
      if entry.1.text.isEmpty then []
      else standIns (Template.value contexts entry.2) := by
  have name : marks entry.1.text = [] := by
    apply List.filter_eq_nil_iff.mpr
    intro c member
    have clean := List.all_eq_true.mp entry.1.noMarkup c member
    simp only [Bool.and_eq_true, Bool.not_eq_true'] at clean
    simp [clean.1, clean.2]
  unfold attributeText
  by_cases empty : entry.1.text.isEmpty = true
  · simp [empty]
  · by_cases missing : (Template.value contexts entry.2).isEmpty = true
    · simp [empty, List.isEmpty_iff.mp missing]
    · have parts : ' ' :: entry.1.text ++ '=' :: Char.ofNat 2 ::
          htmlentities (Template.value contexts entry.2) ++ [Char.ofNat 2] =
          [' '] ++ entry.1.text ++ ['=', Char.ofNat 2] ++
            htmlentities (Template.value contexts entry.2) ++
            [Char.ofNat 2] := by
        simp
      have space : marks [' '] = [] := by decide
      have equals : marks ['=', Char.ofNat 2] = [] := by decide
      have quote : marks [Char.ofNat 2] = [] := by decide
      rw [if_neg empty, if_neg missing, if_neg empty, parts]
      simp only [marks_append, name, space, equals, quote,
        marks_htmlentities, List.nil_append, List.append_nil]

/-- The end of an element, from the stand-ins of its content. -/
theorem marks_content (name data : Str) :
    marks (TagUnknown.content name htmlentities data) =
      if voidElements.contains name && data.isEmpty then [Char.ofNat 4]
      else Char.ofNat 4 :: standIns data ++
        Char.ofNat 3 :: marks name ++ [Char.ofNat 4] := by
  unfold TagUnknown.content
  split
  · decide
  · have parts : Char.ofNat 4 :: htmlentities data ++
        Char.ofNat 3 :: '/' :: name ++ [Char.ofNat 4] =
        [Char.ofNat 4] ++ htmlentities data ++ [Char.ofNat 3, '/'] ++ name ++
          [Char.ofNat 4] := by
      simp
    have closing : marks [Char.ofNat 4] = [Char.ofNat 4] := by decide
    have opening : marks [Char.ofNat 3, '/'] = [Char.ofNat 3] := by decide
    rw [parts]
    simp only [marks_append, closing, opening, marks_htmlentities]
    simp

/-- The stand-ins of every node, and all markup of an element, are the same
in both runs. -/
theorem output_marks (bound : Nat) : ∀ node : Node, node.height ≤ bound →
    (∀ template ∈ node.templates,
      standIns (Template.value first template) =
        standIns (Template.value second template)) →
    (∀ content ∈ node.voids, (Node.outputAll first content = [] ↔
      Node.outputAll second content = [])) →
    standIns (node.output first) = standIns (node.output second) ∧
      ∀ name attributes childs, node = .element name attributes childs →
        marks (node.output first) = marks (node.output second) := by
  induction bound with
  | zero =>
      intro node low values voids
      cases node with
      | text template =>
          refine ⟨values template (by simp [Node.templates]), ?_⟩
          intro name attributes childs absurd
          cases absurd
      | element name attributes childs => simp [Node.height] at low
  | succ bound induction =>
      intro node low values voids
      cases node with
      | text template =>
          refine ⟨values template (by simp [Node.templates]), ?_⟩
          intro name attributes childs absurd
          cases absurd
      | element name attributes childs =>
          have same : marks (Node.output first
              (.element name attributes childs)) =
              marks (Node.output second
                (.element name attributes childs)) := by
            have written : marks (attributes.flatMap (attributeText first)) =
                marks (attributes.flatMap (attributeText second)) := by
              rw [marks_flatMap, marks_flatMap]
              apply List.flatMap_congr
              intro entry member
              have value := values entry.2 (by
                simp only [Node.templates, List.mem_append, List.mem_map]
                exact .inl ⟨entry, member, rfl⟩)
              rw [marks_attributeText, marks_attributeText, value]
            have inner : standIns (Node.outputAll first childs) =
                standIns (Node.outputAll second childs) := by
              rw [outputAll_eq, outputAll_eq, standIns_flatMap,
                standIns_flatMap]
              apply List.flatMap_congr
              intro child member
              have lower := height_le member
              simp only [Node.height] at low
              have below := induction child (by omega)
                (fun template inside => values template (by
                  simp [Node.templates, mem_templatesAll member inside]))
                (fun content inside => voids content (by
                  simp [Node.voids, mem_voidsAll member inside]))
              exact below.1
            have form : (voidElements.contains name.text &&
                (Node.outputAll first childs).isEmpty) =
                (voidElements.contains name.text &&
                  (Node.outputAll second childs).isEmpty) := by
              by_cases void : voidElements.contains name.text = true
              · have empty := voids childs (by
                  unfold Node.voids
                  rw [if_pos void]
                  simp)
                rw [void, Bool.true_and, Bool.true_and, Bool.eq_iff_iff,
                  List.isEmpty_iff, List.isEmpty_iff]
                exact empty
              · simp only [Bool.not_eq_true] at void
                rw [void, Bool.false_and, Bool.false_and]
            simp only [Node.output, marks_append, marks_content, written,
              inner, form]
          constructor
          · rw [← standIns_marks, same, standIns_marks]
          · intro _ _ _ _
            exact same

end TwoRuns

end Markup

/-- Two runs of an element that differ only in the values of the variables of
its templates write the same sequence of `<` and `>`, if no value has a byte
that stands for one of them, and no void element is empty in one of the runs
only. -/
theorem markup_is_static (outside : Outside W) (name : XmlName)
    (attributes : List (Markup.AttributeName × Template))
    (childs : List Markup.Node) (up : List Tag) (caller : Option Loc)
    (first second : St W) (firstChain : first.contexts ≠ [])
    (secondChain : second.contexts ≠ [])
    (differ : ∀ variableName, upName variableName ∉
        (Markup.Node.element name attributes childs).reads →
      Chain.getValue variableName first.contexts =
        Chain.getValue variableName second.contexts)
    (free : ∀ variableName, upName variableName ∈
        (Markup.Node.element name attributes childs).reads →
      Markup.standIns (Chain.getValue variableName first.contexts) = [] ∧
        Markup.standIns (Chain.getValue variableName second.contexts) = [])
    (voids : ∀ content ∈
        (Markup.Node.element name attributes childs).voids,
      (Markup.Node.outputAll first.contexts content = [] ↔
        Markup.Node.outputAll second.contexts content = []))
    (depth : Nat)
    (deep : (Markup.Node.element name attributes childs).height < depth) :
    ∃ firstOut secondOut,
      execute outside depth
          ⟨Markup.Node.tag (.element name attributes childs), up⟩ caller
          first = ⟨first, firstOut, .value ()⟩ ∧
      execute outside depth
          ⟨Markup.Node.tag (.element name attributes childs), up⟩ caller
          second = ⟨second, secondOut, .value ()⟩ ∧
      firstOut.filter Markup.isAngle = secondOut.filter Markup.isAngle := by
  have unread : upName htmlFirst ∉
      (Markup.Node.element name attributes childs).reads := by
    intro read
    obtain ⟨template, -, here⟩ := List.mem_flatMap.mp read
    exact Markup.htmlFirst_not_mem_reads template here
  have mark := differ htmlFirst unread
  have marks := (Markup.output_marks _ _ (Nat.le_refl _)
    (fun template member => Markup.standIns_value fun variableName read =>
      free variableName (List.mem_flatMap.mpr ⟨template, member, read⟩))
    voids).2 name attributes childs rfl
  by_cases outermost : Chain.getValue htmlFirst first.contexts = []
  · refine ⟨_, _, Markup.execute_root name attributes childs depth deep up
      caller first firstChain outermost, Markup.execute_root name attributes
      childs depth deep up caller second secondChain (mark ▸ outermost), ?_⟩
    rw [Markup.angles_htmlentitiesout, Markup.angles_htmlentitiesout, marks]
  · refine ⟨_, _, Markup.execute_inside _ depth deep up caller first outermost,
      Markup.execute_inside _ depth deep up caller second (mark ▸ outermost),
      ?_⟩
    rw [← Markup.angles_marks, marks, Markup.angles_marks]

/-- A fresh local context in which `x` has the given value. -/
def contextWith (value : String) : Context :=
  { Context.newLocal with
    stack := [AList.insert "X".toList value.toList ∅] }

/-- `<p>{$x}</p>`. -/
def paragraph : Markup.Node :=
  .element ⟨"p".toList, head_ne_at (Char.ne_of_val_ne nofun)⟩ []
    [.text [.var "x".toList rfl]]

/-- Markup in the value of a variable is escaped. -/
theorem markup_is_static_paragraph :
    ∃ firstOut secondOut,
      execute Outside.plain 2 ⟨paragraph.tag, []⟩ none
          (St.fresh [contextWith "a"]) =
        ⟨St.fresh [contextWith "a"], firstOut, .value ()⟩ ∧
      execute Outside.plain 2 ⟨paragraph.tag, []⟩ none
          (St.fresh [contextWith "<b>"]) =
        ⟨St.fresh [contextWith "<b>"], secondOut, .value ()⟩ ∧
      firstOut.filter Markup.isAngle = secondOut.filter Markup.isAngle := by
  have reads : paragraph.reads = ["X".toList] := by
    simp [paragraph, Markup.Node.reads, Markup.Node.templates,
      Markup.Node.templatesAll, Template.reads, Piece.reads, upName]
  have voids : paragraph.voids = [] := by
    simp [paragraph, Markup.Node.voids, Markup.Node.voidsAll, voidElements]
  have value (text : String) {name : Str} (same : upName name = "X".toList) :
      Chain.getValue name [contextWith text] = text.toList := by
    simp only [Chain.getValue, Chain.lookup, contextWith, findVar, same,
      AList.lookup_insert, Option.getD_some]
  have unbound (text : String) {name : Str} (other : upName name ≠ "X".toList) :
      Chain.getValue name [contextWith text] = [] := by
    simp only [Chain.getValue, Chain.lookup, contextWith, findVar,
      AList.lookup_insert_ne other, AList.lookup_empty, Option.getD_none]
  apply markup_is_static Outside.plain ⟨"p".toList, by decide⟩ []
    [.text [.var "x".toList rfl]] [] none
    (St.fresh [contextWith "a"]) (St.fresh [contextWith "<b>"])
    (List.cons_ne_nil _ _) (List.cons_ne_nil _ _)
  · intro name unread
    change upName name ∉ paragraph.reads at unread
    rw [reads, List.mem_singleton] at unread
    exact (unbound "a" unread).trans (unbound "<b>" unread).symm
  · intro name read
    change upName name ∈ paragraph.reads at read
    rw [reads, List.mem_singleton] at read
    change Markup.standIns (Chain.getValue name [contextWith "a"]) = [] ∧
      Markup.standIns (Chain.getValue name [contextWith "<b>"]) = []
    rw [value "a" read, value "<b>" read]
    decide
  · intro content member
    change content ∈ paragraph.voids at member
    rw [voids] at member
    cases member
  · decide

/-- `<br>{$x}</br>`. -/
def lineBreak : Markup.Node :=
  .element ⟨"br".toList, head_ne_at (Char.ne_of_val_ne nofun)⟩ []
    [.text [.var "x".toList rfl]]

/-- A void element is written in another form when its content is empty. -/
theorem void_element_depends_on_value :
    (execute Outside.plain 2 ⟨lineBreak.tag, []⟩ none
        (St.fresh [contextWith ""])).out.filter Markup.isAngle ≠
      (execute Outside.plain 2 ⟨lineBreak.tag, []⟩ none
        (St.fresh [contextWith "a"])).out.filter Markup.isAngle := by
  decide +kernel

end DbPager
