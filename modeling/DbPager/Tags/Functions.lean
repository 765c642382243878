import DbPager.Tags.Text

/-!
# The functions of the expression language

A function call in an expression creates a tag whose parameters are `arg1`,
`arg2` and so on, each of them an expression of its own.
-/

namespace DbPager

open Effect

variable {W : Type}

namespace Function

/-- Raise the exception for a call with the wrong number of arguments. -/
def checkCount (interp : Interp W) (self : Loc) (expected : Nat) : M W Unit :=
  if self.tag.params.length = expected then pure ()
  else
    Prog.throw (interp.dcl.exception
      "wrong number of arguments (\x7b0\x7d instead \x7b1\x7d expected)"
      [interp.dcl.toStringInt self.tag.params.length,
        interp.dcl.toStringInt expected])

/-- The output of the first parameter in the map. -/
def first (interp : Interp W) (self : Loc) : M W Str :=
  match self.tag.params with
  | [] => Prog.halt .fault
  | param :: _ => interp.executeParam self param.2

/-- A function of one argument: check the number of arguments, execute the
argument, and write the result. -/
def unary (interp : Interp W) (self : Loc) (result : Str → M W Str) :
    M W Unit := do
  checkCount interp self 1
  Prog.emit (← result (← first interp self))

/-- The two arguments of a function; C++ does not say which is executed
first. -/
def pair (interp : Interp W) (self : Loc) (left right : String) :
    M W (Str × Str) :=
  if interp.outside.leftFirst then do
    let leftValue ← interp.getParameter self left
    let rightValue ← interp.getParameter self right
    pure (leftValue, rightValue)
  else do
    let rightValue ← interp.getParameter self right
    let leftValue ← interp.getParameter self left
    pure (leftValue, rightValue)

def ofExcept {α : Type} : Except Exc α → M W α
  | .ok result => pure result
  | .error exception => Prog.throw exception

def iif (interp : Interp W) (self : Loc) : M W Unit := do
  checkCount interp self 3
  let what ← interp.getParameter self "arg1"
  if what.isEmpty then Prog.emit (← interp.getParameter self "arg3")
  else Prog.emit (← interp.getParameter self "arg2")

def byte (interp : Interp W) (self : Loc) : M W Unit :=
  unary interp self fun text => do
    let code ← M.int interp.dcl text
    pure [Char.ofNat (code % 256).toNat]

def length (interp : Interp W) (self : Loc) : M W Unit :=
  unary interp self fun text => pure (Nat.repr text.length).toList

def trim (interp : Interp W) (self : Loc) : M W Unit :=
  unary interp self fun text => pure (interp.dcl.trim text)

/-- The parameters in the order of the map. -/
def concatenate (interp : Interp W) (self : Loc) : M W Unit :=
  Prog.forEach (fun param => do
      Prog.emit (← interp.executeParam self param.2))
    self.tag.params

def pos (interp : Interp W) (self : Loc) : M W Unit := do
  checkCount interp self 2
  let what ← interp.getParameter self "arg1"
  let place ← interp.getParameter self "arg2"
  match findFrom place what 0 with
  | some found => Prog.emit (Nat.repr found).toList
  | none => Prog.emit "-1".toList

def encodeBase64 (interp : Interp W) (self : Loc) : M W Unit :=
  unary interp self fun text =>
    pure (interp.outside.functions.encodeBase64 text)

def decodeBase64 (interp : Interp W) (self : Loc) : M W Unit :=
  unary interp self fun text =>
    pure (interp.outside.functions.decodeBase64 text)

def md5 (interp : Interp W) (self : Loc) : M W Unit :=
  unary interp self fun text => pure (interp.outside.functions.md5 text)

def sha256 (interp : Interp W) (self : Loc) : M W Unit :=
  unary interp self fun text => pure (interp.outside.functions.sha256 text)

def crypt (interp : Interp W) (self : Loc) : M W Unit := do
  checkCount interp self 2
  let (key, salt) ← pair interp self "arg1" "arg2"
  Prog.emit (interp.outside.functions.crypt (cString key) (cString salt))

def uuid (interp : Interp W) : M W Unit := do
  Prog.emit (← M.io interp.outside.functions.uuid)

def urlencode (interp : Interp W) (self : Loc) : M W Unit :=
  unary interp self fun text => pure (interp.dcl.urlEncode text)

def urldecode (interp : Interp W) (self : Loc) : M W Unit :=
  unary interp self fun text => pure (interp.dcl.urlDecode text)

def translate (interp : Interp W) (self : Loc) : M W Unit :=
  unary interp self fun text => do
    let locale ← M.getValue "@LANG_LOCALE@".toList
    let domain ← M.getValue "@LANG_DOMAIN@".toList
    pure (interp.outside.functions.translate locale domain text)

/-- `istream_iterator<char>` skips blanks. -/
def streamChars (text : Str) : Str :=
  text.filter fun c => !isSpace c

def upper (interp : Interp W) (self : Loc) : M W Unit :=
  unary interp self fun text =>
    pure ((streamChars text).map interp.outside.functions.toUpper)

def lower (interp : Interp W) (self : Loc) : M W Unit :=
  unary interp self fun text =>
    pure ((streamChars text).map interp.outside.functions.toLower)

/-- The remainder by zero is not defined. -/
def rnd (interp : Interp W) (self : Loc) : M W Unit :=
  if self.tag.params.length = 1 then do
    let base ← M.int interp.dcl (← first interp self)
    let random ← M.io interp.outside.functions.rand
    if base = 0 then Prog.halt .fault
    else Prog.emit (toString (random.tmod base)).toList
  else do
    let random ← M.io interp.outside.functions.rand
    Prog.emit (toString random).toList

def dateUtc (interp : Interp W) (self : Loc) : M W Unit := do
  checkCount interp self 1
  let text ← interp.getParameter self "arg1"
  Prog.emit (← ofExcept (interp.outside.functions.dateAsGmt text))

def dateFrom (interp : Interp W) (self : Loc) : M W Unit := do
  checkCount interp self 2
  let (text, format) ← pair interp self "arg1" "arg2"
  Prog.emit (← ofExcept
    (interp.outside.functions.date text format "%s".toList))

def dateFmt (interp : Interp W) (self : Loc) : M W Unit := do
  checkCount interp self 2
  let text ← interp.getParameter self "arg2"
  let format ← interp.getParameter self "arg1"
  Prog.emit (← ofExcept
    (interp.outside.functions.date text "%s".toList format))

def now (interp : Interp W) : M W Unit := do
  Prog.emit (toString (← M.io interp.outside.functions.time)).toList

def env (interp : Interp W) (self : Loc) : M W Unit := do
  checkCount interp self 1
  let name ← interp.getParameter self "arg1"
  match ← M.io (interp.outside.functions.getenv (cString name)) with
  | some value => Prog.emit value
  | none => pure ()

/-- The `execute` method of the function's class. -/
def execute (interp : Interp W) (self : Loc) : Builtin → M W Unit
  | .iif => iif interp self
  | .byte => byte interp self
  | .trim => trim interp self
  | .length => length interp self
  | .concatenate => concatenate interp self
  | .pos => pos interp self
  | .encodeBase64 => encodeBase64 interp self
  | .decodeBase64 => decodeBase64 interp self
  | .md5 => md5 interp self
  | .sha256 => sha256 interp self
  | .crypt => crypt interp self
  | .uuid => uuid interp
  | .rnd => rnd interp self
  | .upper => upper interp self
  | .lower => lower interp self
  | .urlencode => urlencode interp self
  | .urldecode => urldecode interp self
  | .dateUtc => dateUtc interp self
  | .dateFrom => dateFrom interp self
  | .dateFmt => dateFmt interp self
  | .now => now interp
  | .env => env interp self
  | .translate => translate interp self

end Function

end DbPager
