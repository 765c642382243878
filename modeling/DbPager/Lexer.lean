import DbPager.Dcl

/-!
# Tokens of the expression language

`evaluator::get_token` reads one token from the stream into the token object
it is given.  Neither the name nor the value of that object is cleared
first: most branches append to what an earlier token left there, and the
model keeps that.  Stream and token also keep their changes when the
function raises an exception.
-/

namespace DbPager

inductive TokenType where
  | name | func | number | «end»
  | plus | minus | mul | div | mod | pwr | lp | rp
  | lt | gt | eq | ltEq | gtEq | notEq | and | or | not
  deriving DecidableEq, Repr

/-- The stream still to be read and the current token. -/
structure Lexer where
  input : Str
  type : TokenType
  name : Str
  value : Str
  deriving DecidableEq, Repr

namespace Lexer

/-- The argument text of a function call.  The case for an opening
parenthesis falls through into the one for a closing parenthesis, so the
counter only ever goes from one to zero; the loop reads one more character
before it looks at the counter. -/
def readArguments : Str → Nat → Str → Nat × Str × Str
  | [], braces, value => (braces, value, [])
  | _ :: rest, 0, value => (0, value, rest)
  | c :: rest, braces + 1, value =>
      if c == ')' then
        if braces == 0 then readArguments rest 0 value
        else readArguments rest braces (value ++ [c])
      else readArguments rest (braces + 1) (value ++ [c])

/-- The text up to a closing quote, and what follows it. -/
def readQuoted (quote : Char) : Str → Str × Option Str
  | [] => ([], none)
  | c :: rest =>
      if c == quote then ([], some rest)
      else (c :: (readQuoted quote rest).1, (readQuoted quote rest).2)

def isNumberChar (c : Char) : Bool :=
  c.isDigit || c == '.'

def isVariableChar (c : Char) : Bool :=
  c.isAlphanum || c == '_' || c == '-'

def isFunctionChar (c : Char) : Bool :=
  c.isAlphanum || c == '_' || c == '@'

/-- The branch of `get_token` for a function call; `name` is what the token
object's name has become after the function's name was appended. -/
def getFunction (dcl : Dcl) (lexer : Lexer) (name rest : Str) (last : Char) :
    Lexer × Option Exc :=
  match rest with
  | '(' :: arguments =>
      let (braces, value, after) := readArguments arguments 1 lexer.value
      if braces ≠ 0 then
        ({ lexer with input := after, name, value },
          some (dcl.exception "invalid expression: \")\" expected" []))
      else ({ input := after, type := .func, name, value }, none)
  | found :: after =>
      ({ lexer with input := after, name },
        some (dcl.exception
          "parameter(s) are not defined for function '\x7b0\x7d', expected '(', found '\x7b1\x7d'"
          [name, [found]]))
  | [] =>
      ({ lexer with input := [], name },
        some (dcl.exception
          "parameter(s) are not defined for function '\x7b0\x7d', expected '(', found '\x7b1\x7d'"
          [name, [last]]))

/-- The token that starts with the given character. -/
def getTokenFrom (dcl : Dcl) (lexer : Lexer) (c : Char) (rest : Str) :
    Lexer × Option Exc :=
  let simple (type : TokenType) (input : Str) : Lexer × Option Exc :=
    ({ lexer with input, type }, none)
  match c with
  | '*' => simple .mul rest
  | '/' => simple .div rest
  | '%' => simple .mod rest
  | '^' => simple .pwr rest
  | '+' => simple .plus rest
  | '-' => simple .minus rest
  | '(' => simple .lp rest
  | ')' => simple .rp rest
  | '<' =>
      match rest with
      | [] => ({ lexer with input := [] }, none)
      | '=' :: after => simple .ltEq after
      | '>' :: after => simple .notEq after
      | _ => simple .lt rest
  | '>' =>
      match rest with
      | '=' :: after => simple .gtEq after
      | _ => simple .gt rest
  | '!' =>
      match rest with
      | '=' :: after => simple .notEq after
      | _ => simple .not rest
  | '=' => simple .eq rest
  | '&' => simple .and rest
  | '|' => simple .or rest
  | '$' =>
      ({ lexer with input := rest.dropWhile isVariableChar, type := .name,
                    name := rest.takeWhile isVariableChar }, none)
  | _ =>
      if isNumberChar c then
        ({ lexer with input := (c :: rest).dropWhile isNumberChar,
                      type := .number,
                      value := lexer.value ++
                        (c :: rest).takeWhile isNumberChar }, none)
      else if c == '\'' || c == '"' then
        match readQuoted c rest with
        | (text, some after) =>
            ({ lexer with input := after, type := .number,
                          value := lexer.value ++ text }, none)
        | (text, none) =>
            ({ lexer with input := [], value := lexer.value ++ text },
              some (dcl.exception "invalid expression: \x7b0\x7d expected"
                [[(c :: rest).getLast (by simp)]]))
      else if c.isAlpha || c == '_' || c == '@' then
        getFunction dcl lexer
          (lexer.name ++ (c :: rest).takeWhile isFunctionChar)
          ((c :: rest).dropWhile isFunctionChar)
          (((c :: rest).takeWhile isFunctionChar).getLast?.getD c)
      else
        ({ lexer with input := rest },
          some (dcl.exception "unknown expression token '\x7b0\x7d'" [[c]]))

/-- `evaluator::get_token`. -/
def getToken (dcl : Dcl) (lexer : Lexer) : Lexer × Option Exc :=
  match lexer.input.dropWhile (fun c => c != '\n' && isSpace c) with
  | [] => ({ lexer with input := [], type := .end }, none)
  | c :: rest => getTokenFrom dcl lexer c rest

end Lexer

end DbPager
