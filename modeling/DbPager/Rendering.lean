import Mathlib.Data.Bool.AllAny
import DbPager.Evaluation
import DbPager.Library.Output
import DbPager.Markup

/-!
# The rendering of HTML

Every element converts what its children wrote, and the outermost one turns
the stand-ins of the delimiters into the delimiters.  A reference renderer
takes the tree with its values and writes every one of them once, as its
innermost element says.  Both are compared here, for every tree.

An expression writes nothing while it is evaluated: the functions it calls
have a stream of their own.  So the values can be computed first and written
afterwards.
-/

namespace DbPager

open Effect

open Effect.Prog (Silent Writes)

variable {W : Type}

namespace Evaluator

variable {outside : Outside W}

theorem closed_silent : Closed outside Silent Silent where
  pure := Silent.pure
  bind := Silent.bind
  throw := Silent.throw
  timeout := Silent.halt .timeout
  tryCatch := Silent.tryCatch
  getToken := Silent.act _
  read := fun _ => Silent.read _
  dropValue := Silent.modify _
  lookup := (Silent.read _).bind fun _ =>
    (Silent.modify _).bind fun _ => (Silent.read _).lift
  lift := Silent.lift
  within := Silent.within
  outerPure := Silent.pure
  outerBind := Silent.bind
  outerThrow := Silent.throw
  outerTimeout := Silent.halt .timeout

theorem executeFunction_silent (run : Loc → Option Loc → M W Unit)
    (scope : List Tag) (name params : Str) :
    Silent (executeFunction outside run scope name params) := by
  unfold executeFunction
  split
  · exact Silent.throw _
  · exact Silent.capture _
  · split
    · exact Silent.capture _
    · exact Silent.throw _

end Evaluator

/-- An expression writes nothing of its own. -/
theorem Interp.evaluate_silent (outside : Outside W) (budget : Nat)
    (run : Loc → Option Loc → M W Unit) (scope : List Tag) (text : Str) :
    Silent ((Interp.ofRun outside budget run).evaluate scope text) :=
  Evaluator.closed_silent.evaluate
    (Evaluator.executeFunction_silent run scope) text

/-- HTML with the values its expressions have. -/
inductive Html where
  | text (value : Str)
  | cdata (data : Str)
  | element (name : Str) (asis : Bool) (attributes : List (Str × Str))
      (childs : List Html)

namespace Html

/-- The text of a value: raw, or with its delimiters escaped. -/
def escape (raw : Bool) (value : Str) : Str :=
  if raw then value else htmlentities value

def renderAttribute (raw : Bool) (entry : Str × Str) : Str :=
  if entry.2.isEmpty then []
  else ' ' :: entry.1 ++ "=\"".toList ++ escape raw entry.2 ++ ['"']

mutual

/-- The reference renderer.  `raw` is what the innermost element says. -/
def render (raw : Bool) : Html → Str
  | .text value => escape raw value
  | .cdata data => data
  | .element name asis attributes childs =>
      let content := renderAll asis childs
      '<' :: name ++ attributes.flatMap (renderAttribute asis) ++
        if voidElements.contains name && content.isEmpty then "/>".toList
        else '>' :: content ++ "</".toList ++ name ++ ['>']

def renderAll (raw : Bool) : List Html → Str
  | [] => []
  | html :: rest => html.render raw ++ renderAll raw rest

end

/-- How an element converts its values and its content. -/
def convertWith (asis : Bool) : Str → Str :=
  if asis then stub else htmlentities

/-- What an attribute adds to the opening tag, with stand-ins for the
delimiters. -/
def standingAttribute (asis : Bool) (entry : Str × Str) : Str :=
  if entry.2.isEmpty then []
  else ' ' :: entry.1 ++ '=' :: Char.ofNat 2 ::
    convertWith asis entry.2 ++ [Char.ofNat 2]

mutual

/-- What the interpreter writes inside of an element, with stand-ins for the
delimiters. -/
def standing : Html → Str
  | .text value => value
  | .cdata data => stub data
  | .element name asis attributes childs =>
      Char.ofNat 3 :: name ++ (attributes.flatMap (standingAttribute asis) ++
        TagUnknown.content name (convertWith asis) (standingAll childs))

def standingAll : List Html → Str
  | [] => []
  | html :: rest => html.standing ++ standingAll rest

end

theorem standingAll_eq (childs : List Html) :
    standingAll childs = childs.flatMap standing := by
  induction childs with
  | nil => rfl
  | cons html rest induction =>
      unfold standingAll
      rw [induction, List.flatMap_cons]

theorem renderAll_eq (raw : Bool) (childs : List Html) :
    renderAll raw childs = childs.flatMap (render raw) := by
  induction childs with
  | nil => rfl
  | cons html rest induction =>
      unfold renderAll
      rw [induction, List.flatMap_cons]

section Evaluation

variable (interp : Interp W)

/-- `dbp:asis="1"`. -/
def isAsis (self : Loc) : Bool :=
  self.findParam "@DBP:PARAM@asis".toList == some "1".toList

/-- The attribute a parameter stands for, with its value.  The markup that a
`dbp:attr` parameter adds as it is has no place in the tree. -/
def evaluateParam (self : Loc) (param : Str × Str) :
    M W (List (Str × Str)) :=
  if param.1.isEmpty then pure []
  else if TagUnknown.isAttrParam param.1 then Prog.halt .fault
  else if TagUnknown.isDbpParam param.1 then pure []
  else do
    let value ← interp.executeParam self param.2
    pure [(param.1, value)]

/-- An element: its attributes, its children and its own text. -/
def evaluateElement (evaluate : Loc → M W Html) (self : Loc) : M W Html := do
  let attributes ← Prog.traverse (evaluateParam interp self) self.tag.params
  let childs ← Prog.traverse (fun tag => evaluate (self.child tag))
    self.tag.childs
  pure (.element self.tag.getName (isAsis self) attributes.flatten
    (childs ++ [.text self.tag.text]))

/-- The place is inside of an element as long as the variable that says so
has not been taken away. -/
def inside (body : M W Html) : M W Html := do
  let root ← M.getValue htmlFirst
  if root.isEmpty then Prog.halt .fault else body

end Evaluation

/-- The values of a tree of elements, texts and CDATA sections, computed in
the order of the document. -/
def evaluate (outside : Outside W) : Nat → Loc → M W Html
  | 0, _ => Prog.halt .timeout
  | depth + 1, self =>
      let interp := Interp.ofRun outside depth (execute outside depth)
      match self.tag.kind with
      | .expression => do
          let value ← interp.evaluate (self.tag :: self.up) self.tag.text
          pure (.text value)
      | .cdata => inside (pure (.cdata self.tag.text))
      | .unknown _ =>
          inside (evaluateElement interp (evaluate outside depth) self)
      | _ => Prog.halt .fault

/-- The values of a tree whose root is the outermost element. -/
def evaluateRoot (outside : Outside W) (depth : Nat) (self : Loc) :
    M W Html :=
  M.withLayer do
    M.addValue outside.dcl htmlFirst "1".toList
    evaluateElement (Interp.ofRun outside depth (execute outside depth))
      (evaluate outside depth) self

theorem convert_eq (self : Loc) :
    TagUnknown.convert self = convertWith (isAsis self) := by
  unfold TagUnknown.convert convertWith isAsis
  cases self.findParam "@DBP:PARAM@asis".toList with
  | none => rfl
  | some value =>
      simp only [Option.some.injEq, Option.some_beq_some, beq_iff_eq]

section Writing

variable {outside : Outside W} {interp : Interp W}

theorem writeParam_writes
    (silent : ∀ scope text, Silent (interp.evaluate scope text)) (self : Loc)
    (param : Str × Str) :
    Writes (TagUnknown.writeParam interp self param)
      (evaluateParam interp self param) fun attributes =>
        attributes.flatMap (standingAttribute (isAsis self)) := by
  unfold TagUnknown.writeParam evaluateParam
  split
  · exact Prog.Guards.refl _
  split
  · exact Writes.fault _
  split
  · exact Prog.Guards.refl _
  · apply Writes.of_silent (silent _ _)
    intro value
    rw [convert_eq]
    unfold Prog.when
    cases value with
    | nil => exact Prog.Guards.refl _
    | cons c value =>
        have written := List.flatMap_singleton
          (standingAttribute (isAsis self)) (param.1, c :: value)
        change Prog.Guards (pure
          ([(param.1, c :: value)].flatMap (standingAttribute (isAsis self))))
          (pure _)
        rw [written]
        exact Prog.Guards.refl _

theorem executeChilds_writes {evaluate : Loc → M W Html} {self : Loc}
    {caller : Option Loc}
    (writes : ∀ tag, Writes (interp.run (self.child tag) caller)
      (evaluate (self.child tag)) standing) :
    Writes (interp.executeChilds self caller)
      (Prog.traverse (fun tag => evaluate (self.child tag)) self.tag.childs)
      fun childs => standingAll (childs ++ [.text self.tag.text]) := by
  have parts := (Writes.forEach self.tag.childs writes).after self.tag.text
  have same : (fun childs : List Html =>
      standingAll (childs ++ [.text self.tag.text])) =
      fun childs => childs.flatMap standing ++ self.tag.text := by
    funext childs
    rw [standingAll_eq, List.flatMap_append, List.flatMap_singleton]
    rfl
  rw [same]
  exact parts

theorem realExecute_writes
    (silent : ∀ scope text, Silent (interp.evaluate scope text))
    {evaluate : Loc → M W Html} {self : Loc} {caller : Option Loc}
    (writes : ∀ tag, Writes (interp.run (self.child tag) caller)
      (evaluate (self.child tag)) standing) :
    Writes (TagUnknown.realExecute interp self caller)
      (evaluateElement interp evaluate self) standing := by
  have opening := (Writes.forEach self.tag.params
    (writeParam_writes silent self)).before (Char.ofNat 3 :: self.tag.getName)
  have content := (executeChilds_writes writes).capture
    (TagUnknown.content self.tag.getName (TagUnknown.convert self))
  have assoc : TagUnknown.realExecute interp self caller =
      (Prog.emit (Char.ofNat 3 :: self.tag.getName) >>= fun _ =>
        Prog.forEach (TagUnknown.writeParam interp self) self.tag.params) >>=
      fun _ => (interp.executeChilds self caller).capture >>= fun data =>
        Prog.emit (TagUnknown.content self.tag.getName
          (TagUnknown.convert self) data) :=
    (Prog.bind_assoc _ _ _).symm
  rw [assoc]
  apply opening.seq content
  intro attributes childs
  rw [standing, convert_eq, List.flatten_eq_flatMap, List.flatMap_assoc]
  simp only [id, List.append_assoc]

/-- Inside of an element, the interpreter writes the tree with stand-ins. -/
theorem execute_writes (outside : Outside W) (depth : Nat) :
    ∀ (self : Loc) (caller : Option Loc),
      Writes (execute outside depth self caller) (evaluate outside depth self)
        standing := by
  induction depth with
  | zero =>
      intro self caller
      exact Writes.halt .timeout
  | succ depth induction =>
      intro self caller
      unfold execute evaluate
      generalize interpreted :
        Interp.ofRun outside depth (execute outside depth) = interp
      have silent (scope : List Tag) (text : Str) :
          Silent (interp.evaluate scope text) := by
        rw [← interpreted]
        exact Interp.evaluate_silent outside depth _ scope text
      have runs : interp.run = execute outside depth := by
        rw [← interpreted]
        rfl
      unfold dispatch
      cases self.tag.kind
      case expression =>
        apply Writes.of_silent (silent _ _)
        intro value
        exact Prog.Guards.refl _
      case cdata =>
        apply Writes.of_silent (Silent.read _)
        intro root
        cases root with
        | nil => exact Writes.fault _
        | cons c root => exact Prog.Guards.refl _
      case unknown name =>
        apply Writes.of_silent (Silent.read _)
        intro root
        cases root with
        | nil => exact Writes.fault _
        | cons c root =>
            apply realExecute_writes silent
            intro tag
            rw [runs]
            exact induction (self.child tag) caller
      all_goals exact Writes.fault _

end Writing

/-- The stand-ins. -/
def isMarker (c : Char) : Bool :=
  1 ≤ c.toNat && c.toNat ≤ 4

/-- The characters they stand for. -/
def isDelimiter (c : Char) : Bool :=
  c == '\'' || c == '"' || c == '<' || c == '>'

/-- No byte of the text is a stand-in. -/
def NoMarkers (text : Str) : Prop :=
  ∀ c ∈ text, isMarker c = false

instance (text : Str) : Decidable (NoMarkers text) :=
  List.decidableBAll (fun c => isMarker c = false) text

/-- A name as XML allows it has neither stand-ins nor delimiters. -/
def PlainName (name : Str) : Prop :=
  ∀ c ∈ name, isMarker c = false ∧ isDelimiter c = false

instance (name : Str) : Decidable (PlainName name) :=
  List.decidableBAll (fun c => isMarker c = false ∧ isDelimiter c = false) name

theorem isDelimiter_cases {c : Char} (delimiter : isDelimiter c = true) :
    c = '\'' ∨ c = '"' ∨ c = '<' ∨ c = '>' := by
  simpa [isDelimiter, or_assoc] using delimiter

theorem isMarker_cases {c : Char} (marker : isMarker c = true) :
    c = Char.ofNat 1 ∨ c = Char.ofNat 2 ∨ c = Char.ofNat 3 ∨
      c = Char.ofNat 4 := by
  have range : 1 ≤ c.toNat ∧ c.toNat ≤ 4 := by
    simpa [isMarker] using marker
  have known : c = Char.ofNat c.toNat := (Char.ofNat_toNat c).symm
  have values : c.toNat = 1 ∨ c.toNat = 2 ∨ c.toNat = 3 ∨ c.toNat = 4 := by
    omega
  rcases values with one | two | three | four
  · rw [one] at known
    exact .inl known
  · rw [two] at known
    exact .inr (.inl known)
  · rw [three] at known
    exact .inr (.inr (.inl known))
  · rw [four] at known
    exact .inr (.inr (.inr known))

theorem unstubChar_eq_iff (c : Char) :
    unstubChar c = c ↔ isMarker c = false := by
  constructor
  · intro same
    cases marker : isMarker c with
    | false => rfl
    | true =>
        rcases isMarker_cases marker with rfl | rfl | rfl | rfl <;>
          exact absurd same (by decide)
  · intro marker
    unfold unstubChar
    split
    · next same => exact absurd marker (by rw [same]; decide)
    split
    · next same => exact absurd marker (by rw [same]; decide)
    split
    · next same => exact absurd marker (by rw [same]; decide)
    split
    · next same => exact absurd marker (by rw [same]; decide)
    · rfl

/-- The conversion of one character. -/
def convertChar (asis : Bool) (c : Char) : Str :=
  if asis then [stubChar c] else htmlEntity c

theorem convertWith_eq (asis : Bool) (text : Str) :
    convertWith asis text = text.flatMap (convertChar asis) := by
  cases asis with
  | false => rfl
  | true =>
      change text.map stubChar = _
      exact List.map_eq_flatMap

theorem convertChar_plain (asis : Bool) {c : Char}
    (plain : isDelimiter c = false) : convertChar asis c = [c] := by
  have others : c ≠ '\'' ∧ c ≠ '"' ∧ c ≠ '<' ∧ c ≠ '>' := by
    simpa [isDelimiter, and_assoc] using plain
  obtain ⟨apostrophe, quote, less, greater⟩ := others
  cases asis with
  | false =>
      change htmlEntity c = [c]
      unfold htmlEntity
      split <;> first | contradiction | rfl
  | true =>
      change [stubChar c] = [c]
      unfold stubChar
      split <;> first | contradiction | rfl

/-- Either conversion takes every delimiter away. -/
theorem not_isDelimiter_convertWith {asis : Bool} {text : Str} {c : Char}
    (member : c ∈ convertWith asis text) : isDelimiter c = false := by
  rw [convertWith_eq] at member
  obtain ⟨source, -, converted⟩ := List.mem_flatMap.mp member
  cases delimiter : isDelimiter source with
  | false =>
      rw [convertChar_plain asis delimiter, List.mem_singleton] at converted
      rw [converted]
      exact delimiter
  | true =>
      have every : ∀ d ∈ convertChar asis source, isDelimiter d = false := by
        rcases isDelimiter_cases delimiter with rfl | rfl | rfl | rfl <;>
          cases asis <;> exact List.all_iff_forall_prop.mp rfl
      exact every c converted

/-- What has no delimiters is not converted. -/
theorem convertWith_plain (asis : Bool) {text : Str}
    (plain : ∀ c ∈ text, isDelimiter c = false) :
    convertWith asis text = text := by
  rw [convertWith_eq]
  induction text with
  | nil => rfl
  | cons c text induction =>
      rw [List.flatMap_cons, convertChar_plain asis (plain c (by simp)),
        induction fun d member => plain d (by simp [member])]
      rfl

/-- The text written with stand-ins is as long as the text to be rendered,
and restoring the delimiters gives that text when the condition holds. -/
def Restores (written rendered : Str) (condition : Prop) : Prop :=
  written.length = rendered.length ∧
    (htmlentitiesout written = rendered ↔ condition)

namespace Restores

variable {first second third fourth : Str} {holds rest : Prop}

theorem congr (restores : Restores first second holds)
    (same : holds ↔ rest) : Restores first second rest :=
  ⟨restores.1, restores.2.trans same⟩

theorem append (head : Restores first second holds)
    (tail : Restores third fourth rest) :
    Restores (first ++ third) (second ++ fourth) (holds ∧ rest) := by
  have long : (htmlentitiesout first).length = second.length := by
    rw [htmlentitiesout, List.length_map, head.1]
  constructor
  · rw [List.length_append, List.length_append, head.1, tail.1]
  · rw [htmlentitiesout, List.map_append, ← head.2, ← tail.2]
    constructor
    · intro equal
      exact List.append_inj equal long
    · rintro ⟨equal, after⟩
      exact congrArg₂ (· ++ ·) equal after

/-- A part that always comes out right. -/
theorem append_true (head : Restores first second True)
    (tail : Restores third fourth rest) :
    Restores (first ++ third) (second ++ fourth) rest :=
  (head.append tail).congr (by rw [true_and])

theorem single (c : Char) : Restores [c] [unstubChar c] True :=
  ⟨rfl, iff_of_true rfl trivial⟩

theorem nil : Restores [] [] True :=
  ⟨rfl, iff_of_true rfl trivial⟩

theorem same {text : Str} (clean : NoMarkers text) :
    Restores text text True := by
  have kept : htmlentitiesout text = text.map id :=
    List.map_congr_left fun c member =>
      (unstubChar_eq_iff c).mpr (clean c member)
  rw [List.map_id] at kept
  exact ⟨rfl, iff_of_true kept trivial⟩

theorem flatMap {α : Type} {written rendered : α → Str}
    {condition : α → Prop} {items : List α}
    (each : ∀ item ∈ items,
      Restores (written item) (rendered item) (condition item)) :
    Restores (items.flatMap written) (items.flatMap rendered)
      (∀ item ∈ items, condition item) := by
  induction items with
  | nil => exact nil.congr (by simp)
  | cons item items induction =>
      have head := each item (by simp)
      have tail := induction fun other member => each other (by simp [member])
      exact (head.append tail).congr List.forall_mem_cons.symm

end Restores

/-- The text of one character of a value. -/
def escapeChar (raw : Bool) (c : Char) : Str :=
  if raw then [c] else htmlEntity c

theorem escape_eq (raw : Bool) (value : Str) :
    escape raw value = value.flatMap (escapeChar raw) := by
  cases raw with
  | false => rfl
  | true =>
      change value = value.flatMap fun c => [c]
      rw [← List.map_eq_flatMap, List.map_id']

theorem restores_char (asis : Bool) (c : Char) :
    Restores (convertChar asis c) (escapeChar asis c)
      (isMarker c = false) := by
  cases delimiter : isDelimiter c with
  | false =>
      have escaped : escapeChar asis c = [c] := by
        cases asis with
        | false => exact convertChar_plain false delimiter
        | true => rfl
      rw [convertChar_plain asis delimiter, escaped]
      constructor
      · rfl
      · rw [← unstubChar_eq_iff]
        exact List.singleton_inj
  | true =>
      rcases isDelimiter_cases delimiter with rfl | rfl | rfl | rfl <;>
        cases asis <;> exact ⟨by decide, by decide⟩

/-- A value comes out as it should when it brings no stand-in of its own. -/
theorem restores_value (asis : Bool) (value : Str) :
    Restores (convertWith asis value) (escape asis value)
      (NoMarkers value) := by
  rw [convertWith_eq, escape_eq]
  exact Restores.flatMap fun c _ => restores_char asis c

/-- What a tree is made of. -/
inductive Part where
  | text (value : Str)
  | cdata (data : Str)
  | name (name : Str)
  | value (value : Str)

mutual

def parts : Html → List Part
  | .text value => [.text value]
  | .cdata data => [.cdata data]
  | .element name _ attributes childs =>
      .name name :: attributes.flatMap
          (fun entry => [.name entry.1, .value entry.2]) ++
        partsAll childs

def partsAll : List Html → List Part
  | [] => []
  | html :: rest => html.parts ++ partsAll rest

end

theorem partsAll_eq (childs : List Html) :
    partsAll childs = childs.flatMap parts := by
  induction childs with
  | nil => rfl
  | cons html rest induction =>
      unfold partsAll
      rw [induction, List.flatMap_cons]

mutual

/-- Induction over the tree, with the hypothesis for every child. -/
theorem byChilds {motive : Html → Prop}
    (text : ∀ value, motive (.text value))
    (cdata : ∀ data, motive (.cdata data))
    (element : ∀ name asis attributes childs,
      (∀ child ∈ childs, motive child) →
      motive (.element name asis attributes childs)) : ∀ html, motive html
  | .text value => text value
  | .cdata data => cdata data
  | .element name asis attributes childs =>
      element name asis attributes childs
        (byChildsAll text cdata element childs)

theorem byChildsAll {motive : Html → Prop}
    (text : ∀ value, motive (.text value))
    (cdata : ∀ data, motive (.cdata data))
    (element : ∀ name asis attributes childs,
      (∀ child ∈ childs, motive child) →
      motive (.element name asis attributes childs)) :
    ∀ childs : List Html, ∀ child ∈ childs, motive child
  | [] => List.forall_mem_nil _
  | html :: rest => List.forall_mem_cons.mpr
      ⟨byChilds text cdata element html, byChildsAll text cdata element rest⟩

end

/-- The names of the tree are names, and neither the attributes nor the CDATA
sections bring stand-ins. -/
structure Proper (html : Html) : Prop where
  name : ∀ name, Part.name name ∈ html.parts → PlainName name
  value : ∀ value, Part.value value ∈ html.parts → NoMarkers value
  cdata : ∀ data, Part.cdata data ∈ html.parts → NoMarkers data

/-- The values of the expressions bring no stand-ins either. -/
def TextsClean (html : Html) : Prop :=
  ∀ value, Part.text value ∈ html.parts → NoMarkers value

section Element

variable {name : Str} {asis : Bool} {attributes : List (Str × Str)}
  {childs : List Html}

theorem mem_parts_child {child : Html} (member : child ∈ childs) {part : Part}
    (inner : part ∈ child.parts) :
    part ∈ (element name asis attributes childs).parts := by
  rw [parts, partsAll_eq]
  apply List.mem_append_right
  exact List.mem_flatMap.mpr ⟨child, member, inner⟩

theorem Proper.child (proper : (element name asis attributes childs).Proper)
    {child : Html} (member : child ∈ childs) : child.Proper where
  name := fun _ inner => proper.name _ (mem_parts_child member inner)
  value := fun _ inner => proper.value _ (mem_parts_child member inner)
  cdata := fun _ inner => proper.cdata _ (mem_parts_child member inner)

theorem Proper.plainName
    (proper : (element name asis attributes childs).Proper) : PlainName name :=
  proper.name name (by simp [parts])

theorem Proper.attribute
    (proper : (element name asis attributes childs).Proper)
    {entry : Str × Str} (member : entry ∈ attributes) :
    PlainName entry.1 ∧ NoMarkers entry.2 := by
  have inside {part : Part}
      (one : part ∈ [Part.name entry.1, Part.value entry.2]) :
      part ∈ (element name asis attributes childs).parts := by
    rw [parts]
    apply List.mem_append_left
    apply List.mem_cons_of_mem
    exact List.mem_flatMap.mpr ⟨entry, member, one⟩
  constructor
  · exact proper.name entry.1 (inside (by simp))
  · exact proper.value entry.2 (inside (by simp))

theorem textsClean_element :
    (element name asis attributes childs).TextsClean ↔
      ∀ child ∈ childs, child.TextsClean := by
  constructor
  · intro clean child member value inner
    exact clean value (mem_parts_child member inner)
  · intro clean value inner
    rw [parts, partsAll_eq] at inner
    rcases List.mem_append.mp inner with own | below
    · simp at own
    · obtain ⟨child, member, inner⟩ := List.mem_flatMap.mp below
      exact clean child member value inner

theorem PlainName.noMarkers (plain : PlainName name) : NoMarkers name :=
  fun c member => (plain c member).1

theorem standingAttribute_plain {entry : Str × Str}
    (plain : PlainName entry.1) :
    ∀ c ∈ standingAttribute asis entry, isDelimiter c = false := by
  have named : ∀ c ∈ entry.1, isDelimiter c = false :=
    fun c member => (plain c member).2
  have value : ∀ c ∈ convertWith asis entry.2, isDelimiter c = false :=
    fun c member => not_isDelimiter_convertWith member
  unfold standingAttribute
  split
  · exact List.forall_mem_nil _
  · simp only [List.forall_mem_append, List.forall_mem_cons]
    exact ⟨⟨⟨by decide, named⟩, by decide, by decide, value⟩, by decide,
      List.forall_mem_nil _⟩

theorem content_plain (plain : PlainName name) (data : Str) :
    ∀ c ∈ TagUnknown.content name (convertWith asis) data,
      isDelimiter c = false := by
  have named : ∀ c ∈ name, isDelimiter c = false :=
    fun c member => (plain c member).2
  have value : ∀ c ∈ convertWith asis data, isDelimiter c = false :=
    fun c member => not_isDelimiter_convertWith member
  unfold TagUnknown.content
  split
  · exact List.all_iff_forall_prop.mp rfl
  · simp only [List.forall_mem_append, List.forall_mem_cons]
    exact ⟨⟨⟨by decide, value⟩, by decide, by decide, named⟩, by decide,
      List.forall_mem_nil _⟩

/-- What an element writes has no delimiters. -/
theorem standing_element_plain
    (proper : (element name asis attributes childs).Proper) :
    ∀ c ∈ (element name asis attributes childs).standing,
      isDelimiter c = false := by
  rw [standing]
  simp only [List.forall_mem_append, List.forall_mem_cons]
  constructor
  · exact ⟨by decide, fun c member => (proper.plainName c member).2⟩
  · constructor
    · intro c member
      obtain ⟨entry, listed, inner⟩ := List.mem_flatMap.mp member
      exact standingAttribute_plain (proper.attribute listed).1 c inner
    · exact content_plain proper.plainName _

theorem restores_attribute {entry : Str × Str} (plain : PlainName entry.1)
    (clean : NoMarkers entry.2) :
    Restores (standingAttribute asis entry) (renderAttribute asis entry)
      True := by
  have quote : Restores [Char.ofNat 2] ['"'] True := .single _
  have value := (restores_value asis entry.2).congr (iff_true_intro clean)
  have equals : Restores ['='] ['='] True := .single _
  have space : Restores [' '] [' '] True := .single _
  have whole := space.append_true (.append_true (.same plain.noMarkers)
    (equals.append_true (quote.append_true (value.append_true quote))))
  unfold standingAttribute renderAttribute
  split
  · exact .nil
  · simpa using whole

theorem convertWith_isEmpty (asis : Bool) (data : Str) :
    (convertWith asis data).isEmpty = data.isEmpty := by
  cases data with
  | nil => cases asis <;> rfl
  | cons c data =>
      cases asis with
      | true => rfl
      | false =>
          change (htmlEntity c ++ htmlentities data).isEmpty = false
          unfold htmlEntity
          split <;> rfl

theorem Restores.isEmpty_eq {written rendered : Str} {condition : Prop}
    (restores : Restores written rendered condition) :
    written.isEmpty = rendered.isEmpty := by
  have long := restores.1
  cases written with
  | nil =>
      cases rendered with
      | nil => rfl
      | cons d rendered => simp at long
  | cons c written =>
      cases rendered with
      | nil => simp at long
      | cons d rendered => rfl

/-- Where the children come out as they should, so does the element. -/
theorem restores_content {data rendered : Str} {condition : Prop}
    (plain : PlainName name)
    (inner : Restores (convertWith asis data) rendered condition) :
    Restores (TagUnknown.content name (convertWith asis) data)
      (if voidElements.contains name && rendered.isEmpty then "/>".toList
        else '>' :: rendered ++ "</".toList ++ name ++ ['>']) condition := by
  have less : Restores [Char.ofNat 3] ['<'] True := .single _
  have greater : Restores [Char.ofNat 4] ['>'] True := .single _
  have slash : Restores ['/'] ['/'] True := .single _
  have empty : data.isEmpty = rendered.isEmpty := by
    rw [← convertWith_isEmpty asis, inner.isEmpty_eq]
  unfold TagUnknown.content
  rw [empty]
  split
  · next void =>
      -- Nothing stands between the delimiters, so nothing can go wrong there.
      have nothing : rendered = [] := by
        simp only [Bool.and_eq_true, List.isEmpty_iff] at void
        exact void.2
      subst nothing
      have nowhere : convertWith asis data = [] :=
        List.length_eq_zero_iff.mp inner.1
      rw [nowhere] at inner
      have holds : condition := inner.2.mp rfl
      exact (slash.append_true greater).congr (iff_of_true trivial holds)
  · have ending := less.append_true (slash.append_true
      (.append_true (.same plain.noMarkers) greater))
    have closed := (inner.append ending).congr (and_iff_left trivial)
    have whole := greater.append_true closed
    simpa using whole

end Element

/-- The tree comes out as the reference renders it exactly when its texts
bring no stand-ins. -/
theorem restores_html (html : Html) : html.Proper → ∀ raw : Bool,
    Restores (convertWith raw html.standing) (html.render raw)
      html.TextsClean := by
  induction html using byChilds with
  | text value =>
      intro proper raw
      apply (restores_value raw value).congr
      constructor
      · intro clean other member
        rw [parts, List.mem_singleton] at member
        cases member
        exact clean
      · intro clean
        exact clean value List.mem_cons_self
  | cdata data =>
      intro proper raw
      have settled : convertWith raw (convertWith true data) =
          convertWith true data :=
        convertWith_plain raw fun c => not_isDelimiter_convertWith
      change Restores (convertWith raw (convertWith true data))
        (escape true data) _
      rw [settled]
      apply (restores_value true data).congr
      apply iff_of_true
      · exact proper.cdata data List.mem_cons_self
      · intro value member
        rw [parts, List.mem_singleton] at member
        cases member
  | element name asis attributes childs induction =>
      intro proper raw
      rw [convertWith_plain raw (standing_element_plain proper)]
      have inner : Restores (convertWith asis (standingAll childs))
          (renderAll asis childs) (∀ child ∈ childs, child.TextsClean) := by
        rw [convertWith_eq, standingAll_eq, renderAll_eq, List.flatMap_assoc]
        apply Restores.flatMap
        intro child member
        rw [← convertWith_eq]
        exact induction child member (proper.child member) asis
      have listed : Restores (attributes.flatMap (standingAttribute asis))
          (attributes.flatMap (renderAttribute asis)) True := by
        apply (Restores.flatMap fun entry member => restores_attribute
          (proper.attribute member).1 (proper.attribute member).2).congr
        simp
      have less : Restores [Char.ofNat 3] ['<'] True := .single _
      have content := restores_content proper.plainName inner
      have whole := less.append_true (.append_true
        (.same proper.plainName.noMarkers) (listed.append_true content))
      rw [textsClean_element]
      simpa [standing, render] using whole

theorem withLayer_writes {program : M W Unit} {source : M W Html}
    {text : Html → Str} (writes : Writes program source text) :
    Writes (M.withLayer program) (M.withLayer source) text := by
  have left : Silent (M.leave : M W Unit) := Silent.act _
  have leaving : Writes (M.leave >>= fun _ => pure () : M W Unit) M.leave
      fun _ => [] := by
    unfold Writes
    rw [Prog.capture_bind left]
    exact Prog.Guards.refl _
  apply Writes.of_silent (Silent.modify _)
  intro _
  apply (writes.onError left).seq leaving
  intro html _
  rw [List.append_nil]

/-- The outermost element restores the delimiters. -/
theorem execute_root (outside : Outside W) (depth : Nat) {self : Loc}
    {name : XmlName} (element : self.tag.kind = .unknown name)
    (caller : Option Loc) {state final : St W} {html : Html}
    (outermost : Chain.getValue htmlFirst state.contexts = [])
    (evaluated : evaluateRoot outside depth self state =
      ⟨final, [], .value html⟩) :
    execute outside (depth + 1) self caller state =
      ⟨final, htmlentitiesout html.standing, .value ()⟩ := by
  have writes : Writes
      (TagUnknown.realExecute
        (Interp.ofRun outside depth (execute outside depth)) self caller)
      (evaluateElement (Interp.ofRun outside depth (execute outside depth))
        (evaluate outside depth) self) standing := by
    apply realExecute_writes (Interp.evaluate_silent outside depth _)
    intro tag
    exact execute_writes outside depth (self.child tag) caller
  have layered := withLayer_writes (Writes.of_silent
    (Silent.act _ : Silent (M.addValue outside.dcl htmlFirst "1".toList))
    fun _ => writes.capture htmlentitiesout)
  have ran := layered.resolve evaluated
  rw [← ran]
  unfold execute dispatch
  rw [element]
  have read : M.getValue htmlFirst state = ⟨state, [], .value []⟩ := by
    rw [M.getValue_eq, outermost]
  exact Prog.bind_silent read _

theorem evaluateRoot_element {outside : Outside W} {depth : Nat} {self : Loc}
    {state final : St W} {html : Html}
    (evaluated : evaluateRoot outside depth self state =
      ⟨final, [], .value html⟩) :
    ∃ attributes childs,
      html = .element self.tag.getName (isAsis self) attributes childs := by
  obtain ⟨_, _, _, _, -, entered, -⟩ := Prog.of_bind_value evaluated
  obtain ⟨_, value, _, _, ran, left, -⟩ := Prog.of_bind_value entered
  obtain ⟨_, _, _, _, -, returned, -⟩ := Prog.of_bind_value left
  cases returned
  obtain ⟨_, _, _, _, -, ran, -⟩ :=
    Prog.of_bind_value (Prog.of_onError_value ran)
  obtain ⟨_, attributes, _, _, -, ran, -⟩ := Prog.of_bind_value ran
  obtain ⟨_, childs, _, _, -, ran, -⟩ := Prog.of_bind_value ran
  cases ran
  exact ⟨_, _, rfl⟩

end Html

/-- The outermost element of a tree whose expressions have values writes the
tree as the reference renders it, exactly when no expression has a value with
one of the bytes that stand for a delimiter. -/
theorem html_rendered_once (outside : Outside W) (depth : Nat) {self : Loc}
    {name : XmlName} (element : self.tag.kind = .unknown name)
    (caller : Option Loc) {state final : St W} {html : Html}
    (outermost : Chain.getValue htmlFirst state.contexts = [])
    (evaluated : Html.evaluateRoot outside depth self state =
      ⟨final, [], .value html⟩)
    (proper : html.Proper) :
    (execute outside (depth + 1) self caller state).outcome = .value () ∧
      ((execute outside (depth + 1) self caller state).out =
        html.render false ↔ html.TextsClean) := by
  rw [Html.execute_root outside depth element caller outermost evaluated]
  constructor
  · rfl
  · obtain ⟨attributes, childs, rfl⟩ := Html.evaluateRoot_element evaluated
    have restores := Html.restores_html _ proper false
    rw [Html.convertWith_plain false (Html.standing_element_plain proper)]
      at restores
    exact restores.2

theorem paragraph_name : "p".toList.head? ≠ some '@' := by
  apply head_ne_at
  intro same
  cases same

/-- `<p>` around a text. -/
def paragraphOf (text : String) : Tag :=
  .mk 0 (.unknown ⟨"p".toList, paragraph_name⟩) []
    [.mk 0 .expression [] [] text.toList] []

/-- The values of a paragraph. -/
def paragraphHtml (value : Str) : Html :=
  .element "p".toList false [] [.text value, .text []]

theorem paragraphHtml_proper (value : Str) : (paragraphHtml value).Proper where
  name := by
    intro name member
    simp [paragraphHtml, Html.parts, Html.partsAll] at member
    rw [member]
    exact List.all_iff_forall_prop.mp rfl
  value := by
    intro _ member
    simp [paragraphHtml, Html.parts, Html.partsAll] at member
  cdata := by
    intro _ member
    simp [paragraphHtml, Html.parts, Html.partsAll] at member

theorem paragraphHtml_textsClean {value : Str}
    (clean : Html.NoMarkers value) : (paragraphHtml value).TextsClean := by
  intro other member
  simp [paragraphHtml, Html.parts, Html.partsAll] at member
  rcases member with rfl | rfl
  · exact clean
  · intro c member
    cases member

theorem html_rendered_once_paragraph :
    (execute Outside.plain 2 ⟨paragraphOf "\x7b$x\x7d", []⟩ none
      (St.fresh [contextWith "<b>"])).out = "<p>&lt;b&gt;</p>".toList := by
  have rendered := html_rendered_once Outside.plain 1 rfl none rfl
    (rfl : Html.evaluateRoot Outside.plain 1
        ⟨paragraphOf "\x7b$x\x7d", []⟩ (St.fresh [contextWith "<b>"]) =
      ⟨St.fresh [contextWith "<b>"], [],
        .value (paragraphHtml "<b>".toList)⟩)
    (paragraphHtml_proper _)
  apply rendered.2.mpr
  exact paragraphHtml_textsClean (List.all_iff_forall_prop.mp rfl)

/-- A value with the byte 3 writes a delimiter that nobody escapes. -/
theorem marker_becomes_delimiter :
    Html.NoMarkers "\x7b$x\x7d".toList ∧
      Chain.getValue htmlFirst [contextWith "\x03"] = [] ∧
      (Html.evaluateRoot Outside.plain 1 ⟨paragraphOf "\x7b$x\x7d", []⟩
        (St.fresh [contextWith "\x03"])).outcome =
        .value (paragraphHtml "\x03".toList) ∧
      (paragraphHtml "\x03".toList).Proper ∧
      (execute Outside.plain 2 ⟨paragraphOf "\x7b$x\x7d", []⟩ none
        (St.fresh [contextWith "\x03"])).out = "<p><</p>".toList ∧
      (execute Outside.plain 2 ⟨paragraphOf "\x7b$x\x7d", []⟩ none
        (St.fresh [contextWith "\x03"])).out ≠
        (paragraphHtml "\x03".toList).render false := by
  constructor
  · exact List.all_iff_forall_prop.mp rfl
  constructor
  · rfl
  constructor
  · rfl
  constructor
  · exact paragraphHtml_proper _
  constructor
  · decide +kernel
  · decide +kernel

end DbPager
