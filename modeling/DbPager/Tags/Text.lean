import DbPager.Tags.Control

/-!
# Text tags and HTML elements

`dbp:split`, `dbp:substr` and `dbp:regexp` take a string apart for their
body.  Every element outside the dbPager namespaces is a `tag_unknown`; it
writes its own delimiters as the control bytes 1 to 4, escapes what comes
from below, and the outermost element turns the control bytes into the
characters they stand for.
-/

namespace DbPager

open Effect

/-- The position of the first occurrence of a pattern. -/
def indexOf (pattern : Str) : Str → Option Nat
  | [] => if pattern.isEmpty then some 0 else none
  | c :: rest =>
      if pattern.isPrefixOf (c :: rest) then some 0
      else (indexOf pattern rest).map (· + 1)

/-- `source.find(pattern, start)`. -/
def findFrom (source pattern : Str) (start : Nat) : Option Nat :=
  if start ≤ source.length then
    (indexOf pattern (source.drop start)).map (start + ·)
  else none

/-- The splitting loop of `tag_split`; there is no result when the budget
does not suffice. -/
def splitFrom (dcl : Dcl) (sep source : Str) :
    Nat → Nat → Option (List Str)
  | 0, _ => none
  | budget + 1, oldPos =>
      match findFrom source sep oldPos with
      | some pos => do
          let rest ← splitFrom dcl sep source budget (pos + sep.length)
          pure (dcl.trim ((source.drop oldPos).take (pos - oldPos)) :: rest)
      | none => some [dcl.trim (source.drop oldPos)]

/-- The loop of `replace_with`.  The string is changed in place and searched
from behind the inserted text on. -/
def replaceFrom (find replace : Str) : Nat → Str → Nat → Option Str
  | 0, _, _ => none
  | budget + 1, source, i =>
      match findFrom source find i with
      | some pos =>
          replaceFrom find replace budget
            (source.take pos ++ replace ++ source.drop (pos + find.length))
            (pos + replace.length)
      | none => some source

/-- `replace_with`. -/
def replaceWith (budget : Nat) (source find replace : Str) : Option Str :=
  replaceFrom find replace budget source 0

variable {W : Type}

/-- The result of a pure loop, or a timeout. -/
def M.orTimeout {α : Type} : Option α → M W α
  | some result => pure result
  | none => Prog.halt .timeout

namespace TagSplit

/-- The body once for every fragment, with one variable. -/
def cycle (interp : Interp W) (self : Loc) (caller : Option Loc) (name : Str)
    (fragments : List Str) : M W Unit :=
  Prog.forEach (fun fragment => do
      M.setValue interp.dcl name fragment
      interp.executeChilds self caller)
    fragments

/-- Bind the names to the fragments as far as both reach.  The result is the
last name bound and the fragments left over. -/
def bindNames (interp : Interp W) :
    Str → List Str → List Str → M W (Str × List Str)
  | _, name :: names, fragment :: fragments => do
      M.addValue interp.dcl name fragment
      bindNames interp name names fragments
  | last, _, fragments => pure (last, fragments)

/-- The variables for the fragments, and the body. -/
def bound (interp : Interp W) (self : Loc) (caller : Option Loc) (sep : Str)
    (fragments : List Str) : List Str → M W Unit
  | [] => Prog.throw (interp.dcl.exception "parameter 'name' is undefined" [])
  | [name] => do
      M.addValue interp.dcl name []
      let order ← interp.getParameter self "order"
      if order.isEmpty || order == "asc".toList then
        cycle interp self caller name fragments
      else if order == "desc".toList then
        cycle interp self caller name fragments.reverse
      else
        Prog.throw (interp.dcl.exception
          "invalid 'order' parameter value. expected (asc,desc). found: \x7b0\x7d"
          [order])
  | names => do
      let (last, rest) ← bindNames interp [] names fragments
      Prog.when (!rest.isEmpty) do
        let value ← M.getValue last
        M.setValue interp.dcl last
          (rest.foldl (fun value fragment => value ++ sep ++ fragment) value)
      interp.executeChilds self caller

/-- The part of `execute` inside its `try` block. -/
def body (interp : Interp W) (self : Loc) (caller : Option Loc) (sep : Str)
    (fragments : List Str) : M W Unit := do
  let text ← interp.getParameter self "name"
  bound interp self caller sep fragments
    (interp.dcl.tokenize text ",".toList)

/-- The separator and the fragments.  The parameters are read after the
layer has been entered and before the `try` block. -/
def source (interp : Interp W) (self : Loc) : M W (Str × List Str) := do
  let parameter ← interp.getParameter self "separator"
  let sep := if parameter.isEmpty then ",".toList else parameter
  let value ← interp.getParameter self "value"
  let fragments ← M.orTimeout
    (splitFrom interp.dcl sep value (value.length + 1) 0)
  pure (sep, fragments)

/-- `tag_split`.  An exception raised by one of the first two parameters
leaves the layer on the stack. -/
def execute (interp : Interp W) (self : Loc) (caller : Option Loc) :
    M W Unit := do
  M.enter
  let (sep, fragments) ←
    (source interp self).onError (M.record (.leak .splitParameter))
  (body interp self caller sep fragments).onError M.leave
  M.leave

end TagSplit

/-- `tag_substr`. -/
def TagSubstr.execute (interp : Interp W) (self : Loc) (caller : Option Loc) :
    M W Unit :=
  M.withLayer do
    let str ← interp.getParameter self "value"
    let what ← interp.getParameter self "what"
    let replacement ← interp.getParameter self "with"
    let result ← M.orTimeout (replaceWith interp.budget str what replacement)
    M.addValue interp.dcl (← interp.getParameter self "name") result
    interp.executeChilds self caller

namespace TagRegexp

/-- The children with one more variable. -/
def withVariable (interp : Interp W) (self : Loc) (caller : Option Loc)
    (name value : Str) : M W Unit :=
  M.withLayer do
    M.addValue interp.dcl name value
    interp.executeChilds self caller

/-- The search loop: one round for every match in what is left of the
input. -/
def search (interp : Interp W) (self : Loc) (caller : Option Loc)
    (expression variableName : Str) : Nat → Str → M W Unit
  | 0, _ => Prog.halt .timeout
  | budget + 1, input =>
      match interp.outside.regexp.findAndConsume expression input with
      | some (found, rest) => do
          withVariable interp self caller variableName found
          search interp self caller expression variableName budget rest
      | none => pure ()

/-- `tag_regexp`. -/
def execute (interp : Interp W) (self : Loc) (caller : Option Loc) :
    M W Unit := do
  let parameter ← interp.getParameter self "expr"
  let expression :=
    if parameter.contains '(' then parameter else '(' :: parameter ++ [')']
  let value ← interp.getParameter self "value"
  let name ← interp.getParameter self "name"
  let replacement ← interp.getParameter self "with"
  let variableName := if name.isEmpty then "result".toList else name
  if replacement.isEmpty then
    search interp self caller expression variableName interp.budget value
  else
    match interp.outside.regexp.globalReplace expression replacement value with
    | some result => withVariable interp self caller variableName result
    | none => pure ()

end TagRegexp

def htmlFirst : Str := "@HTML:FIRST@".toList

/-- `htmlentities`: the escape of one character. -/
def htmlEntity : Char → Str
  | '\'' => "&apos;".toList
  | '"' => "&quot;".toList
  | '<' => "&lt;".toList
  | '>' => "&gt;".toList
  | c => [c]

def htmlentities (src : Str) : Str :=
  src.flatMap htmlEntity

/-- The control byte that stands for a delimiter. -/
def stubChar : Char → Char
  | '\'' => Char.ofNat 1
  | '"' => Char.ofNat 2
  | '<' => Char.ofNat 3
  | '>' => Char.ofNat 4
  | c => c

/-- `stub` of `tag_unknown` and `keep_entities` of `tag_cdata`. -/
def stub (src : Str) : Str :=
  src.map stubChar

/-- The delimiter a control byte stands for. -/
def unstubChar (c : Char) : Char :=
  if c = Char.ofNat 1 then '\''
  else if c = Char.ofNat 2 then '"'
  else if c = Char.ofNat 3 then '<'
  else if c = Char.ofNat 4 then '>'
  else c

/-- `htmlentitiesout`. -/
def htmlentitiesout (src : Str) : Str :=
  src.map unstubChar

/-- The elements written without an end tag when they are empty. -/
def voidElements : List Str :=
  ["base".toList, "meta".toList, "link".toList, "hr".toList, "br".toList,
    "basefont".toList, "param".toList, "img".toList, "area".toList,
    "input".toList, "isindex".toList, "col".toList]

namespace TagUnknown

/-- A parameter of the element whose name carries the dbPager prefix. -/
def isDbpParam (name : Str) : Bool :=
  "@DBP:PARAM@".toList.isPrefixOf name

def isAttrParam (name : Str) : Bool :=
  "@DBP:PARAM@attr".toList.isPrefixOf name

/-- How the values of attributes and the content are converted. -/
def convert (self : Loc) : Str → Str :=
  if self.findParam "@DBP:PARAM@asis".toList = some "1".toList then stub
  else htmlentities

/-- Write one attribute. -/
def writeParam (interp : Interp W) (self : Loc) (param : Str × Str) :
    M W Unit :=
  if param.1.isEmpty then pure ()
  else if isAttrParam param.1 then do
    let value ← interp.executeParam self param.2
    Prog.when (!value.isEmpty) (Prog.emit (' ' :: value))
  else if isDbpParam param.1 then pure ()
  else do
    let value ← interp.executeParam self param.2
    Prog.when (!value.isEmpty)
      (Prog.emit (' ' :: param.1 ++ '=' :: Char.ofNat 2 ::
        convert self value ++ [Char.ofNat 2]))

/-- What stands between the attributes of an element and its end. -/
def content (name : Str) (converted : Str → Str) (data : Str) : Str :=
  if voidElements.contains name && data.isEmpty then ['/', Char.ofNat 4]
  else
    Char.ofNat 4 :: converted data ++
      Char.ofNat 3 :: '/' :: name ++ [Char.ofNat 4]

/-- `tag_unknown::real_execute`. -/
def realExecute (interp : Interp W) (self : Loc) (caller : Option Loc) :
    M W Unit := do
  Prog.emit (Char.ofNat 3 :: self.tag.getName)
  Prog.forEach (writeParam interp self) self.tag.params
  let data ← (interp.executeChilds self caller).capture
  Prog.emit (content self.tag.getName (convert self) data)

/-- `tag_unknown`. -/
def execute (interp : Interp W) (self : Loc) (caller : Option Loc) :
    M W Unit := do
  let root ← M.getValue htmlFirst
  if root.isEmpty then
    M.withLayer do
      M.addValue interp.dcl htmlFirst "1".toList
      let data ← (realExecute interp self caller).capture
      Prog.emit (htmlentitiesout data)
  else realExecute interp self caller

end TagUnknown

/-- `tag_cdata`. -/
def TagCdata.execute (self : Loc) : M W Unit := do
  let root ← M.getValue htmlFirst
  if root.isEmpty then Prog.emit self.tag.text
  else Prog.emit (stub self.tag.text)

end DbPager
