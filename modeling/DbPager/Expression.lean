import DbPager.Machine

/-!
# The expression evaluator

`tag_expression::evaluator` first replaces the brace groups of a text by the
values of the expressions they contain, from the inside out, and computes an
expression by recursive descent over its tokens.  The stream and the current
token are shared by all parsing functions and survive an exception, which
matters because `lexpr` catches whatever the right operand raises.
-/

namespace DbPager

open Effect

/-- `tag_impl::set_text`: every run of blanks becomes one space. -/
def setText (value : Str) : Str :=
  go false value
where
  go (wasSpace : Bool) : Str → Str
    | [] => []
    | c :: rest =>
        if c.toNat ≤ 32 then
          if wasSpace then go true rest else ' ' :: go true rest
        else c :: go false rest

theorem length_setText_go (wasSpace : Bool) (text : Str) :
    (setText.go wasSpace text).length ≤ text.length := by
  induction text generalizing wasSpace with
  | nil => rfl
  | cons c text induction =>
      have blank := induction true
      have other := induction false
      rw [setText.go]
      split
      · split
        · rw [List.length_cons]
          omega
        · simp only [List.length_cons]
          omega
      · simp only [List.length_cons]
        omega

theorem length_setText (text : Str) :
    (setText text).length ≤ text.length :=
  length_setText_go false text

namespace Evaluator

variable {W : Type}

/-- Parsing programs: the state of the script and the token stream. -/
abbrev P (W α : Type) := Prog (St W × Lexer) Exc Char α

section Parsing

variable (outside : Outside W)

def getToken : P W Unit :=
  Prog.act fun state =>
    match state.2.getToken outside.dcl with
    | (lexer, none) => ((state.1, lexer), .value ())
    | (lexer, some exception) => ((state.1, lexer), .error exception)

def tokenType : P W TokenType :=
  Prog.read fun state => state.2.type

def number (text : Str) : P W outside.dcl.Double :=
  Prog.orThrow (outside.dcl.conversionException text)
    (outside.dcl.fromStringDouble text)

/-- Convert both operands of an operator to numbers.  C++ does not say which
one is computed first. -/
def operands (left : Str) (right : P W Str) :
    P W (outside.dcl.Double × outside.dcl.Double) :=
  if outside.leftFirst then do
    let leftNumber ← number outside left
    let rightNumber ← number outside (← right)
    pure (leftNumber, rightNumber)
  else do
    let rightNumber ← number outside (← right)
    let leftNumber ← number outside left
    pure (leftNumber, rightNumber)

/-- `catch (type_conversion_exception &e)` of `expr`, `term` and `prim`. -/
def convertException {α : Type} (exception : Exc) : P W α :=
  if exception.cls == .typeConversion then
    Prog.throw (outside.dcl.exception "can't convert the string to a number" [])
  else Prog.throw exception

def truth (holds : Bool) : Str :=
  if holds then "1".toList else "0".toList

/-- A comparison of `lexpr`: as numbers if possible; whatever exception that
raises, the right operand is computed again and compared as a string. -/
def compareWith (right : P W Str) (left : Str)
    (numbers : outside.dcl.Double → outside.dcl.Double → Bool)
    (strings : Str → Str → Bool) : P W Str := do
  getToken outside
  Prog.tryCatch
    (do
      let (leftNumber, rightNumber) ← operands outside left right
      pure (truth (numbers leftNumber rightNumber)))
    (fun _ => do
      let rightText ← right
      pure (truth (strings left rightText)))

def lexpr (expr : P W Str) : P W Str := do
  let left ← expr
  match ← tokenType with
  | .lt =>
      compareWith outside expr left outside.dcl.lt fun l r => decide (l < r)
  | .gt =>
      compareWith outside expr left (fun l r => outside.dcl.lt r l)
        fun l r => decide (r < l)
  | .eq =>
      compareWith outside expr left outside.dcl.eq fun l r => l == r
  | .ltEq =>
      compareWith outside expr left outside.dcl.le fun l r => !decide (r < l)
  | .gtEq =>
      compareWith outside expr left (fun l r => outside.dcl.le r l)
        fun l r => !decide (l < r)
  | .notEq =>
      compareWith outside expr left (fun l r => !outside.dcl.eq l r)
        fun l r => l != r
  | .and => do
      getToken outside
      if left == "1".toList then pure (truth ((← expr) == "1".toList))
      else pure (truth false)
  | .or => do
      getToken outside
      if left == "1".toList then pure (truth true)
      else pure (truth ((← expr) == "1".toList))
  | _ => pure left

/-- One binary operator of `expr` or `term`. -/
def binary (operand : P W Str) (left : Str)
    (operation : outside.dcl.Double → outside.dcl.Double →
      outside.dcl.Double) : P W Str := do
  getToken outside
  let (leftNumber, rightNumber) ← operands outside left operand
  pure (outside.dcl.toStringDouble (operation leftNumber rightNumber))

/-- The loop of `expr` over `+` and `-`. -/
def exprLoop (term : P W Str) : Nat → Str → P W Str
  | 0, _ => Prog.halt .timeout
  | budget + 1, left => do
      match ← tokenType with
      | .plus => exprLoop term budget (← binary outside term left outside.dcl.add)
      | .minus => exprLoop term budget (← binary outside term left outside.dcl.sub)
      | _ => pure left

def expr (term : P W Str) (budget : Nat) : P W Str := do
  let left ← term
  Prog.tryCatch (exprLoop outside term budget left) (convertException outside)

/-- The loop of `term` over `*`, `/`, `%` and `^`. -/
def termLoop (prim : P W Str) : Nat → Str → P W Str
  | 0, _ => Prog.halt .timeout
  | budget + 1, left => do
      match ← tokenType with
      | .mul => termLoop prim budget (← binary outside prim left outside.dcl.mul)
      | .div => termLoop prim budget (← binary outside prim left outside.dcl.div)
      | .mod => termLoop prim budget (← binary outside prim left outside.dcl.fmod)
      | .pwr => termLoop prim budget (← binary outside prim left outside.dcl.pow)
      | _ => pure left

def term (prim : P W Str) (budget : Nat) : P W Str := do
  let left ← prim
  Prog.tryCatch (termLoop outside prim budget left) (convertException outside)

variable (function : Str → Str → M W Str)

/-- `prim` reads the next token before it uses the name or the value of the
current one. -/
def prim : Nat → P W Str
  | 0 => Prog.halt .timeout
  | budget + 1 => do
      match ← tokenType with
      | .func =>
          getToken outside
          let lexer ← Prog.read Prod.snd
          let result ← Prog.lift (function lexer.name lexer.value)
          Prog.modify fun state => (state.1, { state.2 with value := [] })
          pure result
      | .number =>
          getToken outside
          let result ← Prog.read fun state => state.2.value
          Prog.modify fun state => (state.1, { state.2 with value := [] })
          pure result
      | .name =>
          getToken outside
          let name ← Prog.read fun state => state.2.name
          Prog.modify fun state => (state.1, { state.2 with name := [] })
          Prog.lift (M.getValue name)
      | .minus =>
          getToken outside
          Prog.tryCatch
            (do
              let operand ← number outside (← prim budget)
              pure (outside.dcl.toStringDouble (outside.dcl.negate operand)))
            (convertException outside)
      | .not =>
          getToken outside
          pure (truth ((← prim budget) != "1".toList))
      | .lp =>
          getToken outside
          let inner ← lexpr outside
            (expr outside (term outside (prim budget) budget) budget)
          if (← tokenType) == .rp then
            getToken outside
            pure inner
          else
            Prog.throw
              (outside.dcl.exception "invalid expression: \")\" expected" [])
      | .end => pure "1".toList
      | _ =>
          Prog.throw
            (outside.dcl.exception "invalid expression: primary expected" [])

/-- `evaluator::calc`. -/
def calculate (expression : Str) : M W Str :=
  let budget := expression.length + 2
  Prog.within ⟨expression, outside.rawToken, [], []⟩ do
    getToken outside
    if (← tokenType) == .end then pure []
    else
      lexpr outside
        (expr outside (term outside (prim outside function budget) budget)
          budget)

/-- The loop of `evaluator::eval` over the characters of the text.  `inner`
is the recursive call for the text of a brace group. -/
def evalLoop (inner : Str → M W Str) :
    Str → Char → Int → Str → Str → M W Str
  | [], _, count, _, out =>
      if count ≠ 0 then
        Prog.throw
          (outside.dcl.exception "unbalanced expression braces found" [])
      else pure out
  | c :: rest, prev, count, group, out =>
      if prev == '\\' then evalLoop inner rest c count group (out ++ [c])
      else if c == '\\' then evalLoop inner rest c count group out
      else if c == '{' then
        evalLoop inner rest c (count + 1)
          (if count + 1 > 1 then group ++ [c] else group) out
      else if c == '}' then
        if count - 1 = 0 then do
          let value ← calculate outside function (← inner group)
          evalLoop inner rest c 0 [] (out ++ value)
        else evalLoop inner rest c (count - 1) (group ++ [c]) out
      else if count > 0 then evalLoop inner rest c count (group ++ [c]) out
      else evalLoop inner rest c count group (out ++ [c])

/-- `evaluator::eval`.  The text of a brace group is shorter than the text it
stands in, so the length of the text bounds the recursion. -/
def eval : Nat → Str → M W Str
  | 0, _ => Prog.halt .timeout
  | budget + 1, expression =>
      evalLoop outside function (eval budget) expression (Char.ofNat 0) 0 [] []

/-- `evaluator::evaluate`. -/
def evaluate (text : Str) : M W Str :=
  eval outside function (text.length + 1) text

end Parsing

/-- The parameters `arg1`, `arg2`, ... of a function call. -/
def functionParams (dcl : Dcl) (params : Str) : List (Str × Str) :=
  (dcl.tokens params).mapIdx fun index argument =>
    ("arg".toList ++ dcl.toStringInt (index + 1),
      setText ('{' :: argument ++ ['}']))

/-- `evaluator::execute_function`: a tag is created below the expression,
executed and deleted.  `scope` is the expression and its ancestors. -/
def executeFunction (outside : Outside W) (run : Loc → Option Loc → M W Unit)
    (scope : List Tag) (name params : Str) : M W Str :=
  let create (kind : Kind) : Loc :=
    ⟨.mk 0 kind (outside.mapOrder (functionParams outside.dcl params)) [] [],
      scope⟩
  match name with
  | [] => Prog.throw ⟨.std, "basic_string::substr".toList, 0⟩
  | '@' :: userName => (run (create (.userFunction userName)) none).capture
  | _ =>
      match Builtin.ofName name with
      | some builtin => (run (create (.function builtin)) none).capture
      | none =>
          Prog.throw
            (outside.dcl.exception "unknown tag found (\x7b0\x7d)" ['@' :: name])

end Evaluator

end DbPager
