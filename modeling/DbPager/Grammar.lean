import DbPager.Arithmetic

/-!
# The grammar of expressions

The sentences of the expression language, character by character: tokens
with blanks after them, and the four levels of operators over them.  The
second part compares the tokens of the grammar with what `get_token` reads.
-/

namespace DbPager

open Effect

namespace Grammar

def isBlank (c : Char) : Bool :=
  c != '\n' && isSpace c

def Blank (text : Str) : Prop :=
  text.all isBlank = true

/-- Digits with at most one dot among them. -/
def numeral (word : Str) : Bool :=
  word.all Lexer.isNumberChar && word.any Char.isDigit &&
    decide (word.count '.' ≤ 1)

/-- The characters a function's name starts with. -/
def startsName (c : Char) : Bool :=
  c.isAlpha || c == '_' || c == '@'

/-- The texts of the tokens. -/
inductive Lexeme : TokenType → Str → Prop where
  | number {word : Str} : numeral word = true → Lexeme .number word
  | string {quote : Char} {text : Str} :
      quote ∈ ['\'', '"'] → quote ∉ text →
      Lexeme .number (quote :: (text ++ [quote]))
  | name {word : Str} :
      word ≠ [] → word.all Lexer.isVariableChar = true →
      Lexeme .name ('$' :: word)
  /-- A call; a blank after it belongs to the token. -/
  | func {c : Char} {name args after : Str} :
      startsName c = true → name.all Lexer.isFunctionChar = true →
      ')' ∉ args → Blank after →
      Lexeme .func (c :: (name ++ '(' :: (args ++ ')' :: after)))
  | symbol {type : TokenType} : type.isSymbol = true → Lexeme type type.text
  | notEqual : Lexeme .notEq "<>".toList
  | ended : Lexeme .end []

/-- A token and the blanks after it. -/
def Token (type : TokenType) (text : Str) : Prop :=
  ∃ lexeme blanks, Lexeme type lexeme ∧ Blank blanks ∧
    text = lexeme ++ blanks

mutual

inductive Prim : Str → Prop where
  | number {text : Str} : Token .number text → Prim text
  | name {text : Str} : Token .name text → Prim text
  | func {text : Str} : Token .func text → Prim text
  | minus {op text : Str} : Token .minus op → Prim text → Prim (op ++ text)
  | not {op text : Str} : Token .not op → Prim text → Prim (op ++ text)
  | paren {lp text rp : Str} :
      Token .lp lp → Logic text → Token .rp rp → Prim (lp ++ (text ++ rp))

inductive Term : Str → Prop where
  | prim {text : Str} : Prim text → Term text
  | op {type : TokenType} {left op right : Str} :
      Term left → Evaluator.isMul type = true → Token type op → Prim right →
      Term (left ++ (op ++ right))

inductive Sum : Str → Prop where
  | term {text : Str} : Term text → Sum text
  | op {type : TokenType} {left op right : Str} :
      Sum left → Evaluator.isAdd type = true → Token type op → Term right →
      Sum (left ++ (op ++ right))

inductive Logic : Str → Prop where
  | sum {text : Str} : Sum text → Logic text
  | op {type : TokenType} {left op right : Str} :
      Logic left → Evaluator.isLogic type = true → Token type op → Sum right →
      Logic (left ++ (op ++ right))

end

/-- A text of the expression language, perhaps blank. -/
def Sentence (text : Str) : Prop :=
  ∃ blanks rest, text = blanks ++ rest ∧ Blank blanks ∧
    (rest = [] ∨ Logic rest)

/-- The token that starts with this character is one of the grammar: `<` is
not the last character, a variable has a name, a number is a numeral, and
nothing but a blank follows a function call. -/
def clearToken (c : Char) (rest : Str) : Bool :=
  if c == '<' then !rest.isEmpty
  else if c == '$' then (rest.takeWhile Lexer.isVariableChar) != []
  else if Lexer.isNumberChar c then
    numeral ((c :: rest).takeWhile Lexer.isNumberChar)
  else if startsName c then
    match ((c :: rest).dropWhile Lexer.isFunctionChar).dropWhile
      (fun c => c != ')') with
    | _ :: next :: _ => isBlank next
    | _ => true
  else true

/-- The token a text starts with, behind blanks, is one of the grammar. -/
def clearText (text : Str) : Bool :=
  match text.dropWhile isBlank with
  | [] => true
  | c :: rest => clearToken c rest

/-- The arguments of a call end at the first closing parenthesis; the
character after it is read too. -/
theorem readArguments_cases (arguments value : Str) :
    (∃ args tail, arguments = args ++ ')' :: tail ∧ ')' ∉ args ∧
      Lexer.readArguments arguments 1 value =
        (0, value ++ args, tail.tail)) ∨
    ')' ∉ arguments ∧
      Lexer.readArguments arguments 1 value = (1, value ++ arguments, []) := by
  induction arguments generalizing value with
  | nil => exact .inr ⟨List.not_mem_nil, by simp [Lexer.readArguments]⟩
  | cons c arguments induction =>
      by_cases closing : c = ')'
      · subst closing
        refine .inl ⟨[], arguments, rfl, List.not_mem_nil, ?_⟩
        rw [List.append_nil]
        cases arguments <;> rfl
      · have step : Lexer.readArguments (c :: arguments) 1 value =
            Lexer.readArguments arguments 1 (value ++ [c]) := by
          simp [Lexer.readArguments, closing]
        have different : ')' ≠ c := fun same => closing same.symm
        rw [step]
        rcases induction (value ++ [c]) with
          ⟨args, tail, whole, absent, read⟩ | ⟨absent, read⟩
        · refine .inl ⟨c :: args, tail, ?_, ?_, ?_⟩
          · rw [whole]
            rfl
          · simp [different, absent]
          · rw [read]
            simp
        · refine .inr ⟨?_, ?_⟩
          · simp [different, absent]
          · rw [read]
            simp

theorem readQuoted_some {quote : Char} {rest text after : Str}
    (read : Lexer.readQuoted quote rest = (text, some after)) :
    rest = text ++ quote :: after ∧ quote ∉ text := by
  induction rest generalizing text with
  | nil => cases read
  | cons c rest induction =>
      unfold Lexer.readQuoted at read
      split at read
      · rename_i same
        cases read
        exact ⟨by rw [beq_iff_eq.mp same]; rfl, List.not_mem_nil⟩
      · rename_i other
        obtain ⟨rfl, found⟩ := Prod.mk.inj read
        have inner : Lexer.readQuoted quote rest =
            ((Lexer.readQuoted quote rest).1, some after) := by
          rw [← found]
        obtain ⟨whole, absent⟩ := induction inner
        refine ⟨?_, ?_⟩
        · rw [List.cons_append, ← whole]
        · have different : quote ≠ c := by
            rintro rfl
            exact other (beq_self_eq_true _)
          simp [different, absent]

/-- The characters read are those of a token, or the evaluator's exception is
raised. -/
def ReadsLexeme (text : Str) : Lexer × Option Exc → Prop
  | (next, none) => next.type ≠ .end ∧ ∃ lexeme, Lexeme next.type lexeme ∧
      text = lexeme ++ next.input
  | (_, some exception) => exception.cls = .dbp

theorem isFunctionChar_of_startsName {c : Char} (starts : startsName c = true) :
    Lexer.isFunctionChar c = true := by
  simp only [startsName, Bool.or_eq_true] at starts
  rcases starts with (letter | line) | mark
  · simp [Lexer.isFunctionChar, Char.isAlphanum, letter]
  · simp [Lexer.isFunctionChar, line]
  · simp [Lexer.isFunctionChar, mark]

theorem getFunction_lexeme (dcl : Dcl) (lexer : Lexer) (name : Str)
    {c : Char} {rest : Str} (last : Char) (starts : startsName c = true)
    (known : Lexer.isFunctionChar c = true)
    (clear : (match ((c :: rest).dropWhile Lexer.isFunctionChar).dropWhile
      (fun c => c != ')') with
      | _ :: next :: _ => isBlank next
      | _ => true) = true) :
    ReadsLexeme (c :: rest)
      (Lexer.getFunction dcl lexer name
        ((c :: rest).dropWhile Lexer.isFunctionChar) last) := by
  have parts := List.takeWhile_append_dropWhile
    (p := Lexer.isFunctionChar) (l := rest)
  have letters : (rest.takeWhile Lexer.isFunctionChar).all
      Lexer.isFunctionChar = true := List.all_takeWhile
  rw [List.dropWhile_cons_of_pos known] at clear ⊢
  generalize rest.dropWhile Lexer.isFunctionChar = after at clear parts ⊢
  generalize rest.takeWhile Lexer.isFunctionChar = word at letters parts
  subst parts
  unfold Lexer.getFunction
  split
  · rename_i arguments
    rcases readArguments_cases arguments lexer.value with
      ⟨args, tail, whole, absent, read⟩ | ⟨absent, read⟩
    · simp only [read]
      have closing : ('(' :: arguments).dropWhile (fun c => c != ')') =
          ')' :: tail := by
        have passed (d : Char) (member : d ∈ '(' :: args) :
            (d != ')') = true := by
          rcases List.mem_cons.mp member with rfl | member
          · decide
          · exact bne_iff_ne.mpr fun same => absent (same ▸ member)
        rw [whole, ← List.cons_append, List.dropWhile_append_of_pos passed]
        rfl
      rw [closing] at clear
      have blank : Blank (tail.take 1) := by
        cases tail with
        | nil => rfl
        | cons next tail => simpa [Blank] using clear
      refine ⟨nofun, _, .func starts letters absent blank, ?_⟩
      rw [whole]
      simp [List.take_append_drop, ← List.drop_one]
    · simp only [read]
      rfl
  · rfl
  · rfl

theorem getTokenFrom_lexeme (dcl : Dcl) (lexer : Lexer) {c : Char}
    {rest : Str} (clear : clearToken c rest = true) :
    ReadsLexeme (c :: rest) (Lexer.getTokenFrom dcl lexer c rest) := by
  unfold Lexer.getTokenFrom
  split
  case h_16 =>
    have notLess : (c == '<') = false :=
      beq_eq_false_iff_ne.mpr ‹c = '<' → False›
    have notName : (c == '$') = false :=
      beq_eq_false_iff_ne.mpr ‹c = '$' → False›
    simp only [clearToken, notLess, notName, Bool.false_eq_true, if_false]
      at clear
    split
    · rename_i digit
      rw [if_pos digit] at clear
      refine ⟨nofun, _, .number clear, ?_⟩
      exact List.takeWhile_append_dropWhile.symm
    · rename_i notDigit
      rw [if_neg notDigit] at clear
      split
      · rename_i quote
        split
        · rename_i text after read
          obtain ⟨whole, absent⟩ := readQuoted_some read
          have known : c ∈ ['\'', '"'] := by
            simpa [Bool.or_eq_true] using quote
          refine ⟨nofun, _, .string known absent, ?_⟩
          rw [whole]
          simp
        · rfl
      · split
        · rename_i letter
          have starts : startsName c = true := letter
          rw [if_pos starts] at clear
          exact getFunction_lexeme dcl lexer _ _ starts
            (isFunctionChar_of_startsName starts) clear
        · rfl
  case h_9 =>
    split
    · cases clear
    · exact ⟨nofun, _, .symbol rfl, rfl⟩
    · exact ⟨nofun, _, .notEqual, rfl⟩
    · exact ⟨nofun, _, .symbol rfl, rfl⟩
  case h_10 =>
    split <;> exact ⟨nofun, _, .symbol rfl, rfl⟩
  case h_11 =>
    split <;> exact ⟨nofun, _, .symbol rfl, rfl⟩
  case h_15 =>
    have named : rest.takeWhile Lexer.isVariableChar ≠ [] := by
      simpa [clearToken] using clear
    refine ⟨nofun, _, .name named List.all_takeWhile, ?_⟩
    rw [List.cons_append, List.takeWhile_append_dropWhile]
  all_goals exact ⟨nofun, _, .symbol rfl, rfl⟩

/-- The text still to be parsed: the current token and the stream. -/
structure Facing (text : Str) (lexer : Lexer) : Prop where
  lexeme : ∃ lexeme, Lexeme lexer.type lexeme ∧ text = lexeme ++ lexer.input
  ended : lexer.type = .end → lexer.input = []

theorem Facing.payload {text : Str} {lexer : Lexer}
    (facing : Facing text lexer) (name value : Str) :
    Facing text { lexer with name, value } :=
  ⟨facing.lexeme, facing.ended⟩

/-- At the end there is nothing left. -/
theorem Facing.nothing {text : Str} {lexer : Lexer}
    (facing : Facing text lexer) (ended : lexer.type = .end) :
    text = [] := by
  obtain ⟨lexeme, known, whole⟩ := facing.lexeme
  rw [ended] at known
  rw [whole, facing.ended ended, List.append_nil]
  generalize type : TokenType.end = end_ at known
  cases known with
  | symbol symbol =>
      subst type
      cases symbol
  | ended => rfl
  | _ => cases type

theorem getFunction_raises {dcl : Dcl} {lexer next : Lexer}
    {name rest : Str} {last : Char} {exception : Exc}
    (raised : Lexer.getFunction dcl lexer name rest last =
      (next, some exception)) : exception.cls = .dbp := by
  unfold Lexer.getFunction at raised
  split at raised
  · simp only at raised
    split at raised
    · cases raised
      rfl
    · cases raised
  · cases raised
    rfl
  · cases raised
    rfl

/-- Whatever the text is, reading a token raises no other exception. -/
theorem getToken_raises {dcl : Dcl} {lexer next : Lexer} {exception : Exc}
    (raised : lexer.getToken dcl = (next, some exception)) :
    exception.cls = .dbp := by
  unfold Lexer.getToken at raised
  split at raised
  · cases raised
  · unfold Lexer.getTokenFrom at raised
    split at raised
    case h_16 =>
      split at raised
      · cases raised
      · split at raised
        · split at raised
          · cases raised
          · cases raised
            rfl
        · split at raised
          · exact getFunction_raises raised
          · cases raised
            rfl
    all_goals first
      | cases raised
      | split at raised <;> cases raised

/-- Reading a token: blanks are skipped and the token is one of the grammar,
or the evaluator's exception is raised. -/
theorem getToken_facing (dcl : Dcl) {lexer : Lexer}
    (clear : clearText lexer.input = true) :
    (∃ next blanks rest, lexer.getToken dcl = (next, none) ∧
      lexer.input = blanks ++ rest ∧ Blank blanks ∧ Facing rest next) ∨
    ∃ next exception, lexer.getToken dcl = (next, some exception) ∧
      exception.cls = .dbp := by
  have parts := List.takeWhile_append_dropWhile
    (p := isBlank) (l := lexer.input)
  have blank : Blank (lexer.input.takeWhile isBlank) := List.all_takeWhile
  have unfolded : lexer.getToken dcl =
      match lexer.input.dropWhile isBlank with
      | [] => ({ lexer with input := [], type := .end }, none)
      | c :: rest => Lexer.getTokenFrom dcl lexer c rest := rfl
  unfold clearText at clear
  cases skipped : lexer.input.dropWhile isBlank with
  | nil =>
      rw [skipped] at unfolded parts
      refine .inl ⟨_, _, [], unfolded, parts.symm, blank, ?_⟩
      exact ⟨⟨[], .ended, rfl⟩, fun _ => rfl⟩
  | cons c rest =>
      rw [skipped] at unfolded parts clear
      have read := getTokenFrom_lexeme dcl lexer clear
      cases ran : Lexer.getTokenFrom dcl lexer c rest with
      | mk next exception =>
          rw [ran] at read
          cases exception with
          | none =>
              refine .inl ⟨next, _, c :: rest, unfolded.trans ran, parts.symm,
                blank, ?_⟩
              exact ⟨read.2, fun ended => absurd ended read.1⟩
          | some exception =>
              exact .inr ⟨next, exception, unfolded.trans ran, read⟩

/-- A token of the grammar takes at least one character, unless it is the
end. -/
theorem Lexeme.length_pos {type : TokenType} {lexeme : Str}
    (known : Lexeme type lexeme) (other : type ≠ .end) :
    0 < lexeme.length := by
  cases known with
  | number word =>
      cases lexeme with
      | nil => cases word
      | cons c lexeme => exact Nat.succ_pos _
  | string | name | func | notEqual => exact Nat.succ_pos _
  | symbol known =>
      cases type with
      | name | func | number | «end» => cases known
      | _ => exact Nat.succ_pos _
  | ended => exact absurd rfl other

end Grammar

end DbPager
