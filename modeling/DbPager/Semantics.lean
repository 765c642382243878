import DbPager.Assignment
import DbPager.Library.Simulation
import DbPager.Template

/-!
# The language of the scripts

What the tags of the core module mean, without the chain of contexts and its
layers: a script works on one store of variables and on the stack of the
active calls of custom tags.  A tag becomes a statement; executing a tag is
calling a procedure.  Tags of the other modules have no meaning here.

What an expression means is left open, as long as the evaluator computes it
without calling functions of the script.
-/

namespace DbPager

open Effect Language

variable {W : Type}

namespace Semantics

abbrev Variables :=
  Store Str Char

/-- The variables and the active calls, innermost first. -/
abbrev Scene :=
  Config Str Char Loc

/-- A tag with the tag on whose behalf it is executed. -/
abbrev Procedure :=
  Loc × Option Loc

abbrev Statement :=
  Stmt Str Char Exc Loc Procedure

/-- The chain of contexts gives every name the value the store has. -/
def Shows (contexts : List Context) (vars : Variables) : Prop :=
  ∀ name, vars.lookup (upName name) = Chain.lookup name contexts

/-- The evaluator computes the text to the result in every state that shows
the vars, whatever the functions of the script do. -/
def Computes (outside : Outside W) (text : Str) (vars : Variables)
    (result : Except Exc Str) : Prop :=
  ∀ (function : Str → Str → M W Str) (state : St W),
    Shows state.contexts vars →
      Evaluator.evaluate outside function text state =
        ⟨state, [], resultOutcome result⟩

/-- A meaning for expressions that the evaluator agrees with. -/
structure Expressions (outside : Outside W) where
  value : Str → Expr Str Char Exc
  computed : ∀ {text vars result},
    value text vars = some result → Computes outside text vars result

/-! ## Templates -/

theorem plainText {c : Char} (plain : isPlainChar c = true) :
    [c].all isPlainChar = true := by
  simp [plain]

theorem variableName {name : Str} {c : Char}
    (letters : name.all Lexer.isVariableChar = true)
    (letter : Lexer.isVariableChar c = true) :
    (name ++ [c]).all Lexer.isVariableChar = true := by
  simp [letter, letters]

/-- The name of a variable, as far as it has been read. -/
structure Reading where
  name : Str
  letters : name.all Lexer.isVariableChar = true

def Reading.start : Reading :=
  ⟨[], rfl⟩

/-- The template that stands in a text, if the text is one. -/
def template : Option Reading → Str → Option Template
  | none, [] => some []
  | some _, [] => none
  | none, '\x7b' :: '$' :: rest => template (some .start) rest
  | none, c :: rest =>
      if plain : isPlainChar c = true then
        (template none rest).map (.literal [c] (plainText plain) :: ·)
      else none
  | some reading, c :: rest =>
      if c = '\x7d' then
        (template none rest).map (.var reading.name reading.letters :: ·)
      else if letter : Lexer.isVariableChar c = true then
        template (some ⟨reading.name ++ [c],
          variableName reading.letters letter⟩) rest
      else none

/-- What has been read of a piece. -/
def Reading.text : Option Reading → Str
  | none => []
  | some reading => '\x7b' :: '$' :: reading.name

theorem template_text {reading : Option Reading} {text : Str}
    {pieces : Template} (read : template reading text = some pieces) :
    Template.text pieces = Reading.text reading ++ text := by
  induction reading, text using template.induct generalizing pieces with
  | case1 =>
      cases read
      rfl
  | case2 => cases read
  | case3 rest induction =>
      rw [template] at read
      rw [induction read]
      rfl
  | case4 c rest other plain induction =>
      rw [template, dif_pos plain] at read
      obtain ⟨later, known, rfl⟩ := Option.map_eq_some_iff.mp read
      have same := induction known
      simp only [Reading.text, List.nil_append] at same
      simp [Template.text, Piece.text, Reading.text, ← same]
      exact other
  | case5 c rest other plain =>
      rw [template, dif_neg plain] at read
      cases read
      exact other
  | case6 reading rest induction =>
      rw [template, if_pos rfl] at read
      obtain ⟨later, known, rfl⟩ := Option.map_eq_some_iff.mp read
      have same := induction known
      simp only [Reading.text, List.nil_append] at same
      simp [Template.text, Piece.text, Reading.text, ← same]
  | case7 reading c rest other letter induction =>
      rw [template, if_neg other, dif_pos letter] at read
      rw [induction read]
      simp [Reading.text]
  | case8 reading c rest other letter =>
      rw [template, if_neg other, dif_neg letter] at read
      cases read

/-- Templates have a value, and other texts have no meaning. -/
def Expressions.templates (outside : Outside W) : Expressions outside where
  value text vars :=
    (template none text).map fun pieces =>
      .ok (pieces.fill fun name => (vars.lookup (upName name)).getD [])
  computed := by
    intro text vars result known function state shown
    obtain ⟨pieces, read, rfl⟩ := Option.map_eq_some_iff.mp known
    have same := template_text read
    rw [Reading.text, List.nil_append] at same
    rw [← same, Evaluator.values_inserted_verbatim outside function pieces state]
    simp only [shown _]
    rfl

/-! ## Tags -/

/-- The value of a variable; it is empty for a name without a binding. -/
def valueOf (name : Str) : Expr Str Char Exc :=
  fun vars => some (.ok ((vars.lookup (upName name)).getD []))

section Tags

variable {outside : Outside W} (expressions : Expressions outside)

/-- The value of a parameter; it is empty if the tag does not have it. -/
def param (self : Loc) (name : String) : Expr Str Char Exc :=
  match self.findParam name.toList with
  | some text => expressions.value text
  | none => fun _ => some (.ok [])

/-- The children in order, then the text. -/
def childs (self : Loc) (caller : Option Loc) : Statement :=
  each (fun tag => .invoke (self.child tag, caller)) (.write self.tag.text)
    self.tag.childs

/-- The names are bound one after the other; the value is computed anew for
each.  Only local variables have a meaning. -/
def tagVar (self : Loc) (caller : Option Loc) : List Str → Statement
  | [] => childs self caller
  | name :: names =>
      .compute (param expressions self "type") fun type =>
        .compute (param expressions self "value") fun value =>
          if type.isEmpty || outside.dcl.compare type Context.localType then
            .declare (upName name) value (tagVar self caller names)
          else .stuck

def assign (dcl : Dcl) (name value : Str) : Statement :=
  .assign (upName name) value (undefinedVariable dcl name)

def tagSet (self : Loc) (caller : Option Loc) : Statement :=
  .capture (childs self caller) fun value =>
    .compute (param expressions self "name") fun names =>
      each (fun name => assign outside.dcl name value) (.write [])
        (outside.dcl.tokens names)

/-- The handler of an exception; its code is only there for an
`app_exception`. -/
def handle (dcl : Dcl) (handler : Loc) (caller : Option Loc)
    (exception : Exc) : Statement :=
  let content := Stmt.declare (upName "error_message".toList) exception.what
    (childs handler caller)
  if exception.cls == .app then
    .declare (upName "error_code".toList)
      (dcl.toStringInt exception.code) content
  else content

/-- Nothing is written by a body that raises an exception. -/
def tagTry (dcl : Dcl) (self : Loc) (caller : Option Loc) : Statement :=
  .rescue (.capture (childs self caller) .write) Exc.isStd fun exception =>
    match self.getChild "catch".toList with
    | none => .throw exception
    | some handler =>
        match handler.tag.kind with
        | .catch => handle dcl handler caller exception
        | _ => .stuck

/-- Throw an exception with the message, and with a code if there is one. -/
def throwWith (self : Loc) (message : Str) : Statement :=
  .compute (param expressions self "code") fun code =>
    if code.isEmpty then .throw (.dbp message)
    else
      match outside.dcl.fromStringInt code with
      | some code => .throw (.app message code)
      | none => .throw (outside.dcl.conversionException code)

def tagThrow (self : Loc) (caller : Option Loc) : Statement :=
  .compute (param expressions self "message") fun parameter =>
    if parameter.isEmpty then
      .capture (childs self caller) (throwWith expressions self)
    else throwWith expressions self parameter

/-- A matching case ends the switch with an exception. -/
def tagCase (self : Loc) (caller : Option Loc) : Statement :=
  .compute (param expressions self "match") fun pattern =>
    .compute (valueOf switchVar) fun tested =>
      if pattern.isEmpty || tested == pattern then
        .seq (childs self caller) (.throw .tagCase)
      else .write []

def tagSwitch (self : Loc) (caller : Option Loc) : Statement :=
  .rescue
    (.compute (param expressions self "test") fun tested =>
      .declare (upName switchVar) tested (childs self caller))
    (fun exception => exception.cls == .tagCase) fun _ => .write []

def tagWhile (self : Loc) (caller : Option Loc) : Statement :=
  .loop (param expressions self "test") (fun value => value == "1".toList)
    (childs self caller)

/-- The parameters as variables of the body. -/
def arguments (body : Statement) : List (Str × Str) → Statement
  | [] => body
  | argument :: rest =>
      .compute (expressions.value argument.2) fun value =>
        .declare (upName argument.1) value (arguments body rest)

/-- Execute a definition; the call is active until it ends. -/
def invoke (self definition : Loc) : Statement :=
  .enter self (.invoke (definition, some self))

def invokeFound (dcl : Dcl) (self : Loc) (name : Str) :
    Option Loc → Statement
  | some definition => invoke self definition
  | none =>
      .throw (dcl.exception "custom tag '\x7b0\x7d' is not defined at this scope"
        [name])

def tagUsr (self : Loc) : Statement :=
  arguments expressions
    (invokeFound outside.dcl self self.tag.getName (TagUsr.target self))
    self.tag.params

def tagCall (self : Loc) : Statement :=
  .compute (param expressions self "name") fun name =>
    arguments expressions
      (invokeFound outside.dcl self name (findTag name self.up))
      (TagCall.arguments self)

/-- The slot of the innermost active call: its content, or its child of the
given name. -/
def tagExecute (self : Loc) : Statement :=
  .slot fun call =>
    .compute (param expressions self "name") fun name =>
      if name.isEmpty then childs call (some self)
      else
        match call.getChild ('@' :: name) with
        | some slot => .invoke (slot, some call)
        | none => .write []

def tagTag (self : Loc) : Option Loc → Statement
  | some caller =>
      if caller.tag.kind.isUsr then childs self (some caller) else .write []
  | none => .write []

/-- An attribute of an HTML element. -/
def attr (self : Loc) (param : Str × Str) : Statement :=
  if param.1.isEmpty then .write []
  else if TagUnknown.isAttrParam param.1 then
    .compute (expressions.value param.2) fun value =>
      if value.isEmpty then .write [] else .write (' ' :: value)
  else if TagUnknown.isDbpParam param.1 then .write []
  else
    .compute (expressions.value param.2) fun value =>
      if value.isEmpty then .write []
      else
        .write (' ' :: param.1 ++ '=' :: Char.ofNat 2 ::
          TagUnknown.convert self value ++ [Char.ofNat 2])

/-- An HTML element, with stubs for its delimiters. -/
def element (self : Loc) (caller : Option Loc) : Statement :=
  .seq (.write (Char.ofNat 3 :: self.tag.getName))
    (each (attr expressions self)
      (.capture (childs self caller) fun data =>
        .write (TagUnknown.content self.tag.getName
          (TagUnknown.convert self) data))
      self.tag.params)

/-- The outermost element replaces the stubs. -/
def tagUnknown (self : Loc) (caller : Option Loc) : Statement :=
  .compute (valueOf htmlFirst) fun root =>
    if root.isEmpty then
      .declare (upName htmlFirst) "1".toList
        (.capture (element expressions self caller) fun data =>
          .write (htmlentitiesout data))
    else element expressions self caller

def tagCdata (self : Loc) : Statement :=
  .compute (valueOf htmlFirst) fun root =>
    if root.isEmpty then .write self.tag.text else .write (stub self.tag.text)

def tagExpression (self : Loc) : Statement :=
  .compute (expressions.value self.tag.text) .write

/-- An expression that has no meaning where it raises an exception. -/
def quiet (expr : Expr Str Char Exc) : Expr Str Char Exc :=
  fun vars =>
    match expr vars with
    | some (.error _) => none
    | other => other

/-- The children once for every fragment. -/
def cycle (dcl : Dcl) (self : Loc) (caller : Option Loc) (name : Str) :
    List Str → Statement :=
  each (fun fragment => .seq (assign dcl name fragment) (childs self caller))
    (.write [])

/-- The names are bound to the fragments as far as both reach. -/
def spread (rest : Str → List Str → Statement) :
    Str → List Str → List Str → Statement
  | _, name :: names, fragment :: fragments =>
      .declare (upName name) fragment (spread rest name names fragments)
  | last, _, fragments => rest last fragments

/-- The fragments that are left over are appended to the last variable. -/
def append (dcl : Dcl) (self : Loc) (caller : Option Loc) (sep last : Str)
    (rest : List Str) : Statement :=
  if rest.isEmpty then childs self caller
  else
    .compute (valueOf last) fun value =>
      .seq
        (assign dcl last
          (rest.foldl (fun value fragment => value ++ sep ++ fragment) value))
        (childs self caller)

def splitBody (self : Loc) (caller : Option Loc) (sep : Str)
    (fragments : List Str) : Statement :=
  .compute (param expressions self "name") fun text =>
    match outside.dcl.tokenize text ",".toList with
    | [] => .throw (outside.dcl.exception "parameter 'name' is undefined" [])
    | [name] =>
        .declare (upName name) []
          (.compute (param expressions self "order") fun order =>
            if order.isEmpty || order == "asc".toList then
              cycle outside.dcl self caller name fragments
            else if order == "desc".toList then
              cycle outside.dcl self caller name fragments.reverse
            else
              .throw (outside.dcl.exception
                "invalid 'order' parameter value. expected (asc,desc). found: \x7b0\x7d"
                [order]))
    | names =>
        spread (append outside.dcl self caller sep) [] names fragments

/-- Without a meaning where one of the first two parameters raises an
exception, since that leaves a layer behind. -/
def tagSplit (self : Loc) (caller : Option Loc) : Statement :=
  .compute (quiet (param expressions self "separator")) fun parameter =>
    .compute (quiet (param expressions self "value")) fun value =>
      let sep := if parameter.isEmpty then ",".toList else parameter
      match splitFrom outside.dcl sep value (value.length + 1) 0 with
      | some fragments => splitBody expressions self caller sep fragments
      | none => .stuck

/-- What the execution of a tag means. -/
def meaning : Procedure → Statement
  | (self, caller) =>
      match self.tag.kind with
      | .expression => tagExpression expressions self
      | .cdata => tagCdata self
      | .unknown _ => tagUnknown expressions self caller
      | .usr _ _ | .userFunction _ => tagUsr expressions self
      | .module | .include => childs self caller
      | .var =>
          .compute (param expressions self "name") fun names =>
            tagVar expressions self caller (outside.dcl.tokens names)
      | .set => tagSet expressions self caller
      | .try => tagTry outside.dcl self caller
      | .catch => .write []
      | .throw => tagThrow expressions self caller
      | .case => tagCase expressions self caller
      | .switch => tagSwitch expressions self caller
      | .while => tagWhile expressions self caller
      | .split => tagSplit expressions self caller
      | .tag _ => tagTag self caller
      | .call => tagCall expressions self
      | .execute => tagExecute expressions self
      | _ => .stuck

end Tags

end Semantics

end DbPager
