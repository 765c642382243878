import DbPager.Expression
import Mathlib.Data.List.TakeWhile

/-!
# Printed expressions

An expression is printed as a list of tokens with a space around each.  The
evaluator reads such a text token by token: its lexer is always at one of
the tokens, and what the next token will find in the stream is the rest of
the list.
-/

namespace DbPager

namespace TokenType

/-- The text of an operator or a parenthesis. -/
def text : TokenType → Str
  | name | func | number | «end» => []
  | plus => "+".toList
  | minus => "-".toList
  | mul => "*".toList
  | div => "/".toList
  | mod => "%".toList
  | pwr => "^".toList
  | lp => "(".toList
  | rp => ")".toList
  | lt => "<".toList
  | gt => ">".toList
  | eq => "=".toList
  | ltEq => "<=".toList
  | gtEq => ">=".toList
  | notEq => "!=".toList
  | and => "&".toList
  | or => "|".toList
  | not => "!".toList

/-- The token is an operator or a parenthesis. -/
def isSymbol : TokenType → Bool
  | name | func | number | «end» => false
  | _ => true

end TokenType

/-- A token as it is printed. -/
inductive Tok where
  | number (digits : Str) (present : digits ≠ [])
      (plain : digits.all Lexer.isNumberChar = true)
  | name (name : Str) (plain : name.all Lexer.isVariableChar = true)
  | symbol (type : TokenType) (known : type.isSymbol = true)

namespace Tok

def type : Tok → TokenType
  | .number _ _ _ => .number
  | .name _ _ => .name
  | .symbol type _ => type

def text : Tok → Str
  | .number digits _ _ => digits
  | .name word _ => '$' :: word
  | .symbol type _ => type.text

end Tok

/-- A space before every token and one at the end. -/
def spell : List Tok → Str
  | [] => [' ']
  | token :: tokens => ' ' :: (token.text ++ spell tokens)

theorem spell_blank (tokens : List Tok) : ∃ rest, spell tokens = ' ' :: rest := by
  cases tokens with
  | nil => exact ⟨[], rfl⟩
  | cons token tokens => exact ⟨_, rfl⟩

theorem length_le_spell (tokens : List Tok) :
    tokens.length ≤ (spell tokens).length := by
  induction tokens with
  | nil => simp
  | cons token tokens induction =>
      simp only [spell, List.length_cons, List.length_append]
      omega

/-- What reading the first token adds to the digits of the token object. -/
def firstDigits : List Tok → Str
  | .number digits _ _ :: _ => digits
  | _ => []

/-- What reading the first token makes of the name of the token object. -/
def firstName (old : Str) : List Tok → Str
  | .name name _ :: _ => name
  | _ => old

namespace Lexer

/-- The lexer at the first of the given tokens. -/
def facing (tokens : List Tok) (name value : Str) : Lexer :=
  match tokens with
  | [] => ⟨[], .end, name, value⟩
  | token :: rest => ⟨spell rest, token.type, name, value⟩

theorem dropWhile_blank {c : Char} (visible : isSpace c = false) (rest : Str) :
    (' ' :: c :: rest).dropWhile (fun c => c != '\n' && isSpace c) =
      c :: rest := by
  have blank : isSpace ' ' = true := by decide
  simp [List.dropWhile, blank, visible]

/-- The first character of a number decides the branch of `get_token`. -/
theorem getTokenFrom_number (dcl : Dcl) (lexer : Lexer) {c : Char}
    (digit : isNumberChar c = true) (rest : Str) :
    getTokenFrom dcl lexer c rest =
      ({ lexer with
         input := (c :: rest).dropWhile isNumberChar
         type := .number
         value := lexer.value ++ (c :: rest).takeWhile isNumberChar },
        none) := by
  unfold getTokenFrom
  split
  all_goals first
    | exact absurd digit (by decide)
    | simp only [digit, if_true]

theorem isSpace_of_isNumberChar {c : Char} (digit : isNumberChar c = true) :
    isSpace c = false := by
  have code : 46 ≤ c.toNat := by
    simp only [isNumberChar, Char.isDigit, Bool.or_eq_true, Bool.and_eq_true,
      decide_eq_true_eq, beq_iff_eq, ge_iff_le, UInt32.le_iff_toNat_le]
      at digit
    rcases digit with ⟨low, _⟩ | rfl
    · change 48 ≤ c.toNat at low
      omega
    · decide
  have blank : c ≠ ' ' := by
    rintro rfl
    exact absurd code (by decide)
  simp only [isSpace, Bool.or_eq_false_iff, Bool.and_eq_false_iff,
    beq_eq_false_iff_ne, decide_eq_false_iff_not]
  exact ⟨blank, .inr (by omega)⟩

theorem not_isNumberChar_blank : isNumberChar ' ' = false := by decide

theorem not_isVariableChar_blank : isVariableChar ' ' = false := by decide

/-- Reading a token leaves the lexer at it. -/
theorem getToken_spell (dcl : Dcl) (tokens : List Tok) (type : TokenType)
    (name value : Str) :
    getToken dcl ⟨spell tokens, type, name, value⟩ =
      (facing tokens (firstName name tokens) (value ++ firstDigits tokens),
        none) := by
  cases tokens with
  | nil =>
      simp only [firstName, firstDigits, List.append_nil, facing]
      rfl
  | cons token tokens =>
      obtain ⟨rest, blank⟩ := spell_blank tokens
      unfold getToken
      simp only [spell]
      cases token with
      | number digits present plain =>
          cases digits with
          | nil => exact absurd rfl present
          | cons c digits =>
              have digit : isNumberChar c = true := by
                exact List.all_eq_true.mp plain c List.mem_cons_self
              have stops : ((c :: digits) ++ spell tokens).takeWhile
                  isNumberChar = _ :=
                List.takeWhile_append_of_pos (List.all_eq_true.mp plain)
              have drops : ((c :: digits) ++ spell tokens).dropWhile
                  isNumberChar = _ :=
                List.dropWhile_append_of_pos (List.all_eq_true.mp plain)
              rw [Tok.text, List.cons_append,
                dropWhile_blank (isSpace_of_isNumberChar digit)]
              simp only
              rw [getTokenFrom_number dcl _ digit, ← List.cons_append, stops,
                drops, blank]
              simp [facing, firstName, firstDigits, blank, Tok.type,
                List.takeWhile, List.dropWhile, not_isNumberChar_blank]
      | name word plain =>
          have stops : (word ++ spell tokens).takeWhile isVariableChar = _ :=
            List.takeWhile_append_of_pos (List.all_eq_true.mp plain)
          have drops : (word ++ spell tokens).dropWhile isVariableChar = _ :=
            List.dropWhile_append_of_pos (List.all_eq_true.mp plain)
          rw [Tok.text, List.cons_append, dropWhile_blank (by decide)]
          simp only [getTokenFrom]
          rw [stops, drops, blank]
          simp [facing, firstName, firstDigits, blank, Tok.type,
            List.takeWhile, List.dropWhile, not_isVariableChar_blank]
      | symbol type known =>
          simp only [firstName, firstDigits, List.append_nil, facing, Tok.type,
            Tok.text, blank]
          cases type with
          | name | func | number | «end» => cases known
          | _ => rfl

end Lexer

end DbPager
