import DbPager.Tokens

/-!
# Arithmetic expressions

The trees of the expression language, with two left-associative levels of
arithmetic operators, a unary minus that binds tightest, and below them the
logical operators, which an arithmetic expression does not have.  The value
of a tree is defined on the tree; printing a tree and letting the evaluator
compute the text gives this value, or the evaluator's exception when an
operand is not a number.
-/

namespace DbPager

open Effect

inductive MulOp where
  | mul | div | mod | pwr

inductive AddOp where
  | plus | minus

inductive LogicOp where
  | lt | gt | eq | ltEq | gtEq | notEq | and | or

namespace MulOp

def token : MulOp → Tok
  | mul => .symbol .mul rfl
  | div => .symbol .div rfl
  | mod => .symbol .mod rfl
  | pwr => .symbol .pwr rfl

def apply (dcl : Dcl) : MulOp → dcl.Double → dcl.Double → dcl.Double
  | mul => dcl.mul
  | div => dcl.div
  | mod => dcl.fmod
  | pwr => dcl.pow

end MulOp

namespace AddOp

def token : AddOp → Tok
  | plus => .symbol .plus rfl
  | minus => .symbol .minus rfl

def apply (dcl : Dcl) : AddOp → dcl.Double → dcl.Double → dcl.Double
  | plus => dcl.add
  | minus => dcl.sub

end AddOp

namespace LogicOp

def type : LogicOp → TokenType
  | lt => .lt
  | gt => .gt
  | eq => .eq
  | ltEq => .ltEq
  | gtEq => .gtEq
  | notEq => .notEq
  | and => .and
  | or => .or

theorem isSymbol_type (op : LogicOp) : op.type.isSymbol = true := by
  cases op <;> rfl

def token (op : LogicOp) : Tok :=
  .symbol op.type op.isSymbol_type

/-- Compare as numbers if both sides are numbers, else as strings. -/
def comparison (dcl : Dcl) (numbers : dcl.Double → dcl.Double → Bool)
    (strings : Str → Str → Bool) (left right : Str) : Bool :=
  match dcl.fromStringDouble left, dcl.fromStringDouble right with
  | some x, some y => numbers x y
  | _, _ => strings left right

def apply (dcl : Dcl) : LogicOp → Str → Str → Bool
  | lt => comparison dcl dcl.lt fun l r => decide (l < r)
  | gt => comparison dcl (fun l r => dcl.lt r l) fun l r => decide (r < l)
  | eq => comparison dcl dcl.eq fun l r => l == r
  | ltEq => comparison dcl dcl.le fun l r => !decide (r < l)
  | gtEq => comparison dcl (fun l r => dcl.le r l) fun l r => !decide (l < r)
  | notEq => comparison dcl (fun l r => !dcl.eq l r) fun l r => l != r
  | and => fun l r => l == "1".toList && r == "1".toList
  | or => fun l r => l == "1".toList || r == "1".toList

end LogicOp

mutual

/-- Primary expressions.  The logical operators only occur where `logical`
is true. -/
inductive PrimTree (logical : Bool) where
  | number (digits : Str) (present : digits ≠ [])
      (plain : digits.all Lexer.isNumberChar = true)
  | name (name : Str) (plain : name.all Lexer.isVariableChar = true)
  | minus (operand : PrimTree logical)
  | not (allowed : logical = true) (operand : PrimTree logical)
  | paren (inner : LogicTree logical)

/-- Products; `*`, `/`, `%` and `^` are on one level. -/
inductive TermTree (logical : Bool) where
  | prim (prim : PrimTree logical)
  | op (left : TermTree logical) (op : MulOp) (right : PrimTree logical)

inductive SumTree (logical : Bool) where
  | term (term : TermTree logical)
  | op (left : SumTree logical) (op : AddOp) (right : TermTree logical)

/-- Chains of logical operators. -/
inductive LogicTree (logical : Bool) where
  | sum (sum : SumTree logical)
  | op (allowed : logical = true) (left : LogicTree logical) (op : LogicOp)
      (right : SumTree logical)

end

section Printing

variable {logical : Bool}

mutual

def PrimTree.tokens : PrimTree logical → List Tok
  | .number digits present plain => [.number digits present plain]
  | .name word plain => [.name word plain]
  | .minus operand => .symbol .minus rfl :: operand.tokens
  | .not _ operand => .symbol .not rfl :: operand.tokens
  | .paren inner =>
      .symbol .lp rfl :: (inner.tokens ++ [.symbol .rp rfl])

def TermTree.tokens : TermTree logical → List Tok
  | .prim prim => prim.tokens
  | .op left op right => left.tokens ++ op.token :: right.tokens

def SumTree.tokens : SumTree logical → List Tok
  | .term term => term.tokens
  | .op left op right => left.tokens ++ op.token :: right.tokens

def LogicTree.tokens : LogicTree logical → List Tok
  | .sum sum => sum.tokens
  | .op _ left op right => left.tokens ++ op.token :: right.tokens

end

end Printing

section Values

variable {logical : Bool} (dcl : Dcl) (contexts : List Context)

/-- An arithmetic operation on strings; both must be numbers. -/
def arithmetic (operation : dcl.Double → dcl.Double → dcl.Double)
    (left right : Str) : Option Str := do
  let x ← dcl.fromStringDouble left
  let y ← dcl.fromStringDouble right
  pure (dcl.toStringDouble (operation x y))

mutual

/-- The value of a tree; there is none when an operand of an arithmetic
operator is not a number. -/
def PrimTree.value : PrimTree logical → Option Str
  | .number digits _ _ => some digits
  | .name word _ => some (Chain.getValue word contexts)
  | .minus operand => do
      let text ← operand.value
      let number ← dcl.fromStringDouble text
      pure (dcl.toStringDouble (dcl.negate number))
  | .not _ operand => do
      let text ← operand.value
      pure (Evaluator.truth (text != "1".toList))
  | .paren inner => inner.value

def TermTree.value : TermTree logical → Option Str
  | .prim prim => prim.value
  | .op left op right => do
      let l ← left.value
      let r ← right.value
      arithmetic dcl (op.apply dcl) l r

def SumTree.value : SumTree logical → Option Str
  | .term term => term.value
  | .op left op right => do
      let l ← left.value
      let r ← right.value
      arithmetic dcl (op.apply dcl) l r

def LogicTree.value : LogicTree logical → Option Str
  | .sum sum => sum.value
  | .op _ left op right => do
      let l ← left.value
      let r ← right.value
      pure (Evaluator.truth (op.apply dcl l r))

end

end Values

namespace Evaluator

variable {W : Type} (outside : Outside W)

/-- What the evaluator raises when an operand is not a number. -/
def notNumber : Exc :=
  outside.dcl.exception "can't convert the string to a number" []

/-- The rest of the text after an operand: nothing, or an operator. -/
def Follows : List Tok → Prop
  | [] => True
  | .symbol _ _ :: _ => True
  | _ => False

theorem firstName_follows {rest : List Tok} (follows : Follows rest)
    (name : Str) : firstName name rest = name := by
  cases rest with
  | nil => rfl
  | cons token rest =>
      cases token with
      | symbol type known => rfl
      | number digits present plain => cases follows
      | name word plain => cases follows

theorem firstDigits_follows {rest : List Tok} (follows : Follows rest) :
    firstDigits rest = [] := by
  cases rest with
  | nil => rfl
  | cons token rest =>
      cases token with
      | symbol type known => rfl
      | number digits present plain => cases follows
      | name word plain => cases follows

/-- The lexer that has read the first of the tokens. -/
def started (tokens : List Tok) (name : Str) : Lexer :=
  .facing tokens (firstName name tokens) (firstDigits tokens)

theorem getToken_spell (state : St W) (tokens : List Tok) (type : TokenType)
    (name value : Str) :
    getToken outside (state, ⟨spell tokens, type, name, value⟩) =
      ⟨(state, .facing tokens (firstName name tokens)
        (value ++ firstDigits tokens)), [], .value ()⟩ := by
  simp [getToken, Prog.act, Lexer.getToken_spell]

/-- Reading on from an operator. -/
theorem getToken_symbol (state : St W) (token : Tok) (tokens : List Tok)
    (name : Str) :
    getToken outside (state, .facing (token :: tokens) name []) =
      ⟨(state, started tokens name), [], .value ()⟩ :=
  getToken_spell outside state tokens token.type name []

/-- Reading on from an operand, whose payload is still needed. -/
theorem getToken_operand (state : St W) (token : Tok) {rest : List Tok}
    (follows : Follows rest) (name value : Str) :
    getToken outside (state, .facing (token :: rest) name value) =
      ⟨(state, .facing rest name value), [], .value ()⟩ := by
  have read := getToken_spell outside state rest token.type name value
  rw [firstName_follows follows, firstDigits_follows follows,
    List.append_nil] at read
  exact read

/-- A program that computes an operand: it reads the operand's tokens up to
the rest and returns the value, or raises the exception for an operand that
is not a number. -/
def Yields (program : P W Str) (state : St W) (tokens rest : List Tok)
    (value : Option Str) : Prop :=
  ∀ name : Str,
    match value with
    | some result => ∃ last : Str,
        program (state, started tokens name) =
          ⟨(state, .facing rest last []), [], .value result⟩
    | none => ∃ lexer : Lexer,
        program (state, started tokens name) =
          ⟨(state, lexer), [], .error (notNumber outside)⟩

/-- The type of the first token. -/
def headType : List Tok → TokenType
  | [] => .end
  | token :: _ => token.type

theorem type_facing (tokens : List Tok) (name value : Str) :
    (Lexer.facing tokens name value).type = headType tokens := by
  cases tokens <;> rfl

def isMul : TokenType → Bool
  | .mul | .div | .mod | .pwr => true
  | _ => false

def isAdd : TokenType → Bool
  | .plus | .minus => true
  | _ => false

def isLogic : TokenType → Bool
  | .lt | .gt | .eq | .ltEq | .gtEq | .notEq | .and | .or => true
  | _ => false

/-- An exception that `expr` and `term` turn into their own. -/
def Numeric (exception : Exc) : Prop :=
  exception = notNumber outside ∨ exception.cls = .typeConversion

theorem convertException_numeric {exception : Exc}
    (numeric : Numeric outside exception) (state : St W × Lexer) :
    (convertException outside exception : P W Str) state =
      ⟨state, [], .error (notNumber outside)⟩ := by
  unfold convertException
  rcases numeric with rfl | conversion
  · have other : (notNumber outside).cls = .dbp := rfl
    rw [if_neg (by simp [other])]
    rfl
  · rw [if_pos (by simp [conversion])]
    rfl

/-- A computation that returns at the rest of the tokens, or fails because an
operand is not a number. -/
def Computes {α : Type} (run : Run (St W × Lexer) Exc Char α) (state : St W)
    (rest : List Tok) (value : Option α) : Prop :=
  match value with
  | some result => ∃ last : Str,
      run = ⟨(state, .facing rest last []), [], .value result⟩
  | none => ∃ (lexer : Lexer) (exception : Exc),
      run = ⟨(state, lexer), [], .error exception⟩ ∧
        Numeric outside exception

variable {outside}

theorem number_some {text : Str} {x : outside.dcl.Double}
    (converts : outside.dcl.fromStringDouble text = some x)
    (state : St W × Lexer) :
    number outside text state = ⟨state, [], .value x⟩ := by
  unfold number
  rw [converts]
  rfl

theorem number_none {text : Str}
    (fails : outside.dcl.fromStringDouble text = none)
    (state : St W × Lexer) :
    number outside text state =
      ⟨state, [], .error (outside.dcl.conversionException text)⟩ := by
  unfold number
  rw [fails]
  rfl

/-- When the left operand is not a number and converted first, the right one
is not computed. -/
theorem operands_left (right : P W Str) {left : Str}
    (first : outside.leftFirst = true)
    (failed : outside.dcl.fromStringDouble left = none)
    (state : St W × Lexer) :
    operands outside left right state =
      ⟨state, [], .error (outside.dcl.conversionException left)⟩ := by
  unfold operands
  rw [if_pos first]
  exact Prog.bind_error (number_none failed state) _

theorem numeric_conversion (text : Str) :
    Numeric outside (outside.dcl.conversionException text) :=
  .inr rfl

/-- Both operands of an operator, in either order. -/
theorem operands_computes {operand : P W Str} {state : St W}
    {tokens rest : List Tok} {right : Option Str}
    (yields : Yields outside operand state tokens rest right)
    (left name : Str) :
    Computes outside
      (operands outside left operand (state, started tokens name)) state rest
      (do let text ← right
          let x ← outside.dcl.fromStringDouble left
          let y ← outside.dcl.fromStringDouble text
          pure (x, y)) := by
  unfold operands
  cases leftNumber : outside.dcl.fromStringDouble left with
  | none =>
      have fails : (do
          let text ← right
          let x ← (none : Option outside.dcl.Double)
          let y ← outside.dcl.fromStringDouble text
          pure (x, y)) = (none : Option _) := by
        cases right <;> rfl
      rw [fails]
      split
      · exact ⟨_, _, Prog.bind_error (number_none leftNumber _) _,
          numeric_conversion left⟩
      · cases right with
        | none =>
            obtain ⟨lexer, ran⟩ := yields name
            exact ⟨lexer, _, Prog.bind_error ran _, .inl rfl⟩
        | some text =>
            obtain ⟨last, ran⟩ := yields name
            rw [Prog.bind_silent ran]
            cases rightNumber : outside.dcl.fromStringDouble text with
            | none =>
                exact ⟨_, _, Prog.bind_error (number_none rightNumber _) _,
                  numeric_conversion text⟩
            | some y =>
                rw [Prog.bind_silent (number_some rightNumber _)]
                exact ⟨_, _, Prog.bind_error (number_none leftNumber _) _,
                  numeric_conversion left⟩
  | some x =>
      cases right with
      | none =>
          obtain ⟨lexer, ran⟩ := yields name
          split
          · rw [Prog.bind_silent (number_some leftNumber _)]
            exact ⟨lexer, _, Prog.bind_error ran _, .inl rfl⟩
          · exact ⟨lexer, _, Prog.bind_error ran _, .inl rfl⟩
      | some text =>
          obtain ⟨last, ran⟩ := yields name
          cases rightNumber : outside.dcl.fromStringDouble text with
          | none =>
              have failed := number_none rightNumber
                (state, Lexer.facing rest last [])
              simp only [Option.bind_eq_bind, Option.bind_some, rightNumber,
                Option.bind_none]
              split
              · rw [Prog.bind_silent (number_some leftNumber _),
                  Prog.bind_silent ran]
                exact ⟨_, _, Prog.bind_error failed _, numeric_conversion text⟩
              · rw [Prog.bind_silent ran]
                exact ⟨_, _, Prog.bind_error failed _, numeric_conversion text⟩
          | some y =>
              have converted := number_some rightNumber
                (state, Lexer.facing rest last [])
              simp only [Option.bind_eq_bind, Option.bind_some, rightNumber]
              split
              · rw [Prog.bind_silent (number_some leftNumber _),
                  Prog.bind_silent ran, Prog.bind_silent converted]
                exact ⟨last, rfl⟩
              · rw [Prog.bind_silent ran, Prog.bind_silent converted,
                  Prog.bind_silent (number_some leftNumber _)]
                exact ⟨last, rfl⟩

/-- One operator, from the operator on. -/
theorem binary_computes {operand : P W Str} {state : St W}
    {tokens rest : List Tok} {right : Option Str}
    (yields : Yields outside operand state tokens rest right) (token : Tok)
    (left name : Str)
    (operation : outside.dcl.Double → outside.dcl.Double →
      outside.dcl.Double) :
    Computes outside
      (binary outside operand left operation
        (state, .facing (token :: tokens) name [])) state rest
      (right.bind (arithmetic outside.dcl operation left)) := by
  unfold binary
  rw [Prog.bind_silent (getToken_symbol outside state token tokens name)]
  have both := operands_computes yields left name
  cases right with
  | none =>
      obtain ⟨lexer, exception, ran, numeric⟩ := both
      exact ⟨lexer, exception, Prog.bind_error ran _, numeric⟩
  | some text =>
      simp only [Option.bind_eq_bind, Option.bind_some, arithmetic]
        at both ⊢
      cases leftNumber : outside.dcl.fromStringDouble left with
      | none =>
          rw [leftNumber] at both
          obtain ⟨lexer, exception, ran, numeric⟩ := both
          exact ⟨lexer, exception, Prog.bind_error ran _, numeric⟩
      | some x =>
          rw [leftNumber] at both
          cases rightNumber : outside.dcl.fromStringDouble text with
          | none =>
              rw [rightNumber] at both
              obtain ⟨lexer, exception, ran, numeric⟩ := both
              exact ⟨lexer, exception, Prog.bind_error ran _, numeric⟩
          | some y =>
              rw [rightNumber] at both
              obtain ⟨last, ran⟩ := both
              exact ⟨last, Prog.bind_silent ran _⟩

/-- The loop of `term` ends at a token that is not an operator of it. -/
theorem termLoop_end {prim : P W Str} {lexer : Lexer}
    (other : isMul lexer.type = false) (loops : Nat) (left : Str)
    (state : St W) :
    termLoop outside prim (loops + 1) left (state, lexer) =
      ⟨(state, lexer), [], .value left⟩ := by
  obtain ⟨input, type, name, value⟩ := lexer
  cases type with
  | mul | div | mod | pwr => cases other
  | _ => rfl

theorem termLoop_step {prim : P W Str} (op : MulOp) (loops : Nat) (left : Str)
    (state : St W) (tokens : List Tok) (name : Str) :
    termLoop outside prim (loops + 1) left
        (state, .facing (op.token :: tokens) name []) =
      (binary outside prim left (op.apply outside.dcl) >>=
          termLoop outside prim loops)
        (state, .facing (op.token :: tokens) name []) := by
  cases op <;> rfl

theorem exprLoop_end {term : P W Str} {lexer : Lexer}
    (other : isAdd lexer.type = false) (loops : Nat) (left : Str)
    (state : St W) :
    exprLoop outside term (loops + 1) left (state, lexer) =
      ⟨(state, lexer), [], .value left⟩ := by
  obtain ⟨input, type, name, value⟩ := lexer
  cases type with
  | plus | minus => cases other
  | _ => rfl

theorem exprLoop_step {term : P W Str} (op : AddOp) (loops : Nat) (left : Str)
    (state : St W) (tokens : List Tok) (name : Str) :
    exprLoop outside term (loops + 1) left
        (state, .facing (op.token :: tokens) name []) =
      (binary outside term left (op.apply outside.dcl) >>=
          exprLoop outside term loops)
        (state, .facing (op.token :: tokens) name []) := by
  cases op <;> rfl

/-- Without a logical operator, `lexpr` is `expr`. -/
theorem lexpr_end {expr : P W Str} {state : St W} {tokens rest : List Tok}
    {value : Option Str} (other : isLogic (headType rest) = false)
    (yields : Yields outside expr state tokens rest value) :
    Yields outside (lexpr outside expr) state tokens rest value := by
  intro name
  have ran := yields name
  cases value with
  | none =>
      obtain ⟨lexer, ran⟩ := ran
      exact ⟨lexer, Prog.bind_error ran _⟩
  | some result =>
      obtain ⟨last, ran⟩ := ran
      refine ⟨last, ?_⟩
      unfold lexpr
      rw [Prog.bind_silent ran]
      rw [← type_facing rest last []] at other
      generalize Lexer.facing rest last [] = lexer at other ⊢
      obtain ⟨input, type, name, value⟩ := lexer
      cases type with
      | lt | gt | eq | ltEq | gtEq | notEq | and | or => cases other
      | _ => rfl

/-- A loop over operators of one level, as far as a tree of that level goes:
it stands at the rest with the value of the tree, or has failed. -/
def Enters (outside : Outside W) (program : P W Str) (state : St W)
    (tokens rest : List Tok) (value : Option Str) (loop : Str → P W Str) :
    Prop :=
  ∀ name : Str,
    match value with
    | some result => ∃ last : Str,
        program (state, started tokens name) =
          (loop result).tryCatch (convertException outside)
            (state, .facing rest last [])
    | none => ∃ lexer : Lexer,
        program (state, started tokens name) =
          ⟨(state, lexer), [], .error (notNumber outside)⟩

namespace Enters

variable {program operand : P W Str} {state : St W} {tokens rest : List Tok}
  {value right : Option Str}

/-- The first operand. -/
theorem first (yields : Yields outside operand state tokens rest value)
    (loop : Str → P W Str) :
    Enters outside
      (operand >>= fun left =>
        (loop left).tryCatch (convertException outside))
      state tokens rest value loop := by
  intro name
  have ran := yields name
  cases value with
  | none =>
      obtain ⟨lexer, ran⟩ := ran
      exact ⟨lexer, Prog.bind_error ran _⟩
  | some result =>
      obtain ⟨last, ran⟩ := ran
      exact ⟨last, Prog.bind_silent ran _⟩

/-- One more operator. -/
theorem next {loop : Nat → Str → P W Str} {loops : Nat} {token : Tok}
    {operation : outside.dcl.Double → outside.dcl.Double →
      outside.dcl.Double}
    {before : List Tok}
    (enters : Enters outside program state before (token :: tokens) value
      (loop (loops + 1)))
    (yields : Yields outside operand state tokens rest right)
    (step : ∀ left name, loop (loops + 1) left
        (state, .facing (token :: tokens) name []) =
      (binary outside operand left operation >>= loop loops)
        (state, .facing (token :: tokens) name [])) :
    Enters outside program state before rest
      (do let l ← value
          let r ← right
          arithmetic outside.dcl operation l r)
      (loop loops) := by
  intro name
  have entered := enters name
  cases value with
  | none => exact entered
  | some left =>
      obtain ⟨last, ran⟩ := entered
      have computed := binary_computes yields token left last operation
      simp only [Option.bind_eq_bind, Option.bind_some] at computed ⊢
      rw [ran, Prog.tryCatch_congr (step left last)]
      cases result : right.bind (arithmetic outside.dcl operation left) with
      | none =>
          rw [result] at computed
          obtain ⟨lexer, exception, failed, numeric⟩ := computed
          refine ⟨lexer, ?_⟩
          rw [Prog.tryCatch_error (Prog.bind_error failed _),
            convertException_numeric outside numeric]
          rfl
      | some next =>
          rw [result] at computed
          obtain ⟨final, returned⟩ := computed
          refine ⟨final, ?_⟩
          exact Prog.tryCatch_congr (Prog.bind_silent returned _) _

/-- The loop has come to its end. -/
theorem last {loop : Str → P W Str}
    (enters : Enters outside program state tokens rest value loop)
    (ends : ∀ left name, loop left (state, .facing rest name []) =
      ⟨(state, .facing rest name []), [], .value left⟩) :
    Yields outside program state tokens rest value := by
  intro name
  have entered := enters name
  cases value with
  | none => exact entered
  | some result =>
      obtain ⟨final, ran⟩ := entered
      refine ⟨final, ?_⟩
      rw [ran]
      exact Prog.tryCatch_eq (ends result final) _

end Enters

section Trees

variable (outside) (function : Str → Str → M W Str) (state : St W)

/-- The number of operators on the level of a tree. -/
def termOps {logical : Bool} : TermTree logical → Nat
  | .prim _ => 0
  | .op left _ _ => termOps left + 1

def sumOps {logical : Bool} : SumTree logical → Nat
  | .term _ => 0
  | .op left _ _ => sumOps left + 1

theorem prim_tokens_pos {logical : Bool} (tree : PrimTree logical) :
    0 < tree.tokens.length := by
  cases tree <;> simp [PrimTree.tokens]

theorem termOps_lt {logical : Bool} : (tree : TermTree logical) →
    termOps tree < tree.tokens.length
  | .prim prim => by
      simp only [termOps, TermTree.tokens]
      exact prim_tokens_pos prim
  | .op left op right => by
      have shorter := termOps_lt left
      simp only [termOps, TermTree.tokens, List.length_append,
        List.length_cons]
      omega

theorem sumOps_lt {logical : Bool} : (tree : SumTree logical) →
    sumOps tree < tree.tokens.length
  | .term term => by
      have shorter := termOps_lt term
      simp only [sumOps, SumTree.tokens]
      omega
  | .op left op right => by
      have shorter := sumOps_lt left
      simp only [sumOps, SumTree.tokens, List.length_append,
        List.length_cons]
      omega

theorem prim_number (budget : Nat) {rest : List Tok} (follows : Follows rest)
    (token : Tok) (type : token.type = .number) (name digits : Str) :
    prim outside function (budget + 1)
        (state, .facing (token :: rest) name digits) =
      ⟨(state, .facing rest name []), [], .value digits⟩ := by
  have read := getToken_operand outside state token follows name digits
  have begun : prim outside function (budget + 1)
      (state, .facing (token :: rest) name digits) =
      (do
        getToken outside
        let result ← Prog.read fun state => state.2.value
        Prog.modify fun state => (state.1, { state.2 with value := [] })
        pure result) (state, .facing (token :: rest) name digits) := by
    unfold prim
    simp only [Lexer.facing, type]
    rfl
  rw [begun, Prog.bind_silent read]
  cases rest <;> rfl

theorem prim_name (budget : Nat) {rest : List Tok} (follows : Follows rest)
    (token : Tok) (type : token.type = .name) (name : Str) :
    prim outside function (budget + 1)
        (state, .facing (token :: rest) name []) =
      ⟨(state, .facing rest [] []), [],
        .value (Chain.getValue name state.contexts)⟩ := by
  have read := getToken_operand outside state token follows name []
  have begun : prim outside function (budget + 1)
      (state, .facing (token :: rest) name []) =
      (do
        getToken outside
        let name ← Prog.read fun state => state.2.name
        Prog.modify fun state => (state.1, { state.2 with name := [] })
        Prog.lift (M.getValue name))
        (state, .facing (token :: rest) name []) := by
    unfold prim
    simp only [Lexer.facing, type]
    rfl
  rw [begun, Prog.bind_silent read]
  cases rest <;> rfl

/-- The unary minus. -/
theorem prim_minus (budget : Nat) {tokens rest : List Tok}
    {value : Option Str}
    (yields : Yields outside (prim outside function budget) state tokens rest
      value) :
    Yields outside (prim outside function (budget + 1)) state
      (.symbol .minus rfl :: tokens) rest
      (do let text ← value
          let number ← outside.dcl.fromStringDouble text
          pure (outside.dcl.toStringDouble
            (outside.dcl.negate number))) := by
  intro name
  have begun : prim outside function (budget + 1)
      (state, started (.symbol .minus rfl :: tokens) name) =
      Prog.tryCatch
        (do
          let operand ← number outside (← prim outside function budget)
          pure (outside.dcl.toStringDouble (outside.dcl.negate operand)))
        (convertException outside) (state, started tokens name) := by
    have read := getToken_symbol outside state (.symbol .minus rfl) tokens name
    exact Prog.bind_silent read _
  rw [begun]
  have ran := yields name
  cases value with
  | none =>
      obtain ⟨lexer, ran⟩ := ran
      refine ⟨lexer, ?_⟩
      rw [Prog.tryCatch_error (Prog.bind_error ran _),
        convertException_numeric outside (.inl rfl)]
      rfl
  | some text =>
      obtain ⟨last, ran⟩ := ran
      simp only [Option.bind_eq_bind, Option.bind_some]
      cases converted : outside.dcl.fromStringDouble text with
      | none =>
          refine ⟨Lexer.facing rest last [], ?_⟩
          have failed := number_none converted
            (state, Lexer.facing rest last [])
          rw [Prog.tryCatch_error ((Prog.bind_silent ran _).trans
              (Prog.bind_error failed _)),
            convertException_numeric outside (numeric_conversion text)]
          rfl
      | some x =>
          refine ⟨last, ?_⟩
          have returned := number_some converted
            (state, Lexer.facing rest last [])
          apply Prog.tryCatch_eq
          rw [Prog.bind_silent ran, Prog.bind_silent returned]
          rfl

/-- A parenthesised expression. -/
theorem prim_paren (budget : Nat) {tokens rest : List Tok}
    {value : Option Str} (follows : Follows rest)
    (yields : Yields outside
      (lexpr outside
        (expr outside
          (term outside (prim outside function budget) budget) budget))
      state tokens (.symbol .rp rfl :: rest) value) :
    Yields outside (prim outside function (budget + 1)) state
      (.symbol .lp rfl :: tokens) rest value := by
  intro name
  have read := getToken_symbol outside state (.symbol .lp rfl) tokens name
  have begun : prim outside function (budget + 1)
      (state, started (.symbol .lp rfl :: tokens) name) =
      (do
        let inner ← lexpr outside
          (expr outside
            (term outside (prim outside function budget) budget) budget)
        if (← tokenType) == TokenType.rp then
          getToken outside
          pure inner
        else
          Prog.throw
            (outside.dcl.exception "invalid expression: \")\" expected" []))
        (state, started tokens name) :=
    Prog.bind_silent read _
  rw [begun]
  have ran := yields name
  cases value with
  | none =>
      obtain ⟨lexer, ran⟩ := ran
      exact ⟨lexer, Prog.bind_error ran _⟩
  | some result =>
      obtain ⟨last, ran⟩ := ran
      refine ⟨last, ?_⟩
      have closed := getToken_operand outside state (.symbol .rp rfl) follows
        last []
      rw [Prog.bind_silent ran]
      exact Prog.bind_silent closed _

/-- The loop of `term` has room for all operators of a tree. -/
theorem term_ends (tree : TermTree false) {budget : Nat} {rest : List Tok}
    {value : Option Str} (enough : tree.tokens.length ≤ budget)
    (other : isMul (headType rest) = false)
    (enters : ∀ loops, Enters outside
      (prim outside function budget >>= fun left =>
        (termLoop outside (prim outside function budget)
          (loops + termOps tree) left).tryCatch (convertException outside))
      state (tree.tokens ++ rest) rest value
      (termLoop outside (prim outside function budget) loops)) :
    Yields outside (term outside (prim outside function budget) budget) state
      (tree.tokens ++ rest) rest value := by
  have shorter := termOps_lt tree
  have room : budget = budget - termOps tree - 1 + 1 + termOps tree := by
    omega
  have whole := enters (budget - termOps tree - 1 + 1)
  rw [← room] at whole
  apply whole.last
  intro left name
  apply termLoop_end
  rw [type_facing]
  exact other

/-- The loop of `expr` has room for all operators of a tree. -/
theorem sum_ends (tree : SumTree false) {budget : Nat} {rest : List Tok}
    {value : Option Str} (enough : tree.tokens.length ≤ budget)
    (other : isAdd (headType rest) = false)
    (enters : ∀ loops, Enters outside
      (term outside (prim outside function budget) budget >>= fun left =>
        (exprLoop outside
          (term outside (prim outside function budget) budget)
          (loops + sumOps tree) left).tryCatch (convertException outside))
      state (tree.tokens ++ rest) rest value
      (exprLoop outside
        (term outside (prim outside function budget) budget) loops)) :
    Yields outside
      (expr outside (term outside (prim outside function budget) budget)
        budget) state
      (tree.tokens ++ rest) rest value := by
  have shorter := sumOps_lt tree
  have room : budget = budget - sumOps tree - 1 + 1 + sumOps tree := by
    omega
  have whole := enters (budget - sumOps tree - 1 + 1)
  rw [← room] at whole
  apply whole.last
  intro left name
  apply exprLoop_end
  rw [type_facing]
  exact other

mutual

theorem prim_yields : (tree : PrimTree false) → (budget : Nat) →
    tree.tokens.length ≤ budget → {rest : List Tok} → Follows rest →
    Yields outside (prim outside function budget) state
      (tree.tokens ++ rest) rest (tree.value outside.dcl state.contexts)
  | .number digits present plain, budget + 1, _, rest, follows =>
      fun name => ⟨name,
        prim_number outside function state budget follows _ rfl name digits⟩
  | .name word plain, budget + 1, _, rest, follows =>
      fun _ => ⟨[],
        prim_name outside function state budget follows _ rfl word⟩
  | .minus operand, budget + 1, enough, rest, follows =>
      prim_minus outside function state budget
        (prim_yields operand budget (Nat.le_of_succ_le_succ enough) follows)
  | .not allowed _, _, _, _, _ => by cases allowed
  | .paren inner, budget + 1, enough, rest, follows => by
      simp only [PrimTree.tokens, List.length_cons, List.length_append]
        at enough
      have closing : Follows (.symbol .rp rfl :: rest) := trivial
      have inside := logic_yields inner budget (by omega) closing rfl rfl rfl
      have whole := prim_paren outside function state budget follows inside
      simpa [PrimTree.tokens, PrimTree.value] using whole
  | .number _ _ _, 0, enough, _, _ => by cases enough
  | .name _ _, 0, enough, _, _ => by cases enough
  | .minus _, 0, enough, _, _ => by cases enough
  | .paren _, 0, enough, _, _ => by cases enough

theorem term_enters : (tree : TermTree false) → (budget loops : Nat) →
    tree.tokens.length ≤ budget → {rest : List Tok} → Follows rest →
    Enters outside
      (prim outside function budget >>= fun left =>
        (termLoop outside (prim outside function budget)
          (loops + termOps tree) left).tryCatch (convertException outside))
      state (tree.tokens ++ rest) rest
      (tree.value outside.dcl state.contexts)
      (termLoop outside (prim outside function budget) loops)
  | .prim operand, budget, loops, enough, rest, follows =>
      Enters.first (prim_yields operand budget enough follows) _
  | .op left op right, budget, loops, enough, rest, follows => by
      simp only [TermTree.tokens, List.length_append, List.length_cons]
        at enough
      have symbol : Follows (op.token :: (right.tokens ++ rest)) := by
        cases op <;> trivial
      have before := term_enters left budget (loops + 1) (by omega) symbol
      have operand := prim_yields right budget (by omega) follows
      have whole := before.next operand
        fun result name => termLoop_step op loops result state _ name
      simp only [TermTree.tokens, List.append_assoc, List.cons_append,
        termOps, TermTree.value]
      rw [Nat.add_comm (termOps left), ← Nat.add_assoc]
      exact whole

theorem sum_enters : (tree : SumTree false) → (budget loops : Nat) →
    tree.tokens.length ≤ budget → {rest : List Tok} → Follows rest →
    isMul (headType rest) = false →
    Enters outside
      (term outside (prim outside function budget) budget >>= fun left =>
        (exprLoop outside
          (term outside (prim outside function budget) budget)
          (loops + sumOps tree) left).tryCatch (convertException outside))
      state (tree.tokens ++ rest) rest
      (tree.value outside.dcl state.contexts)
      (exprLoop outside
        (term outside (prim outside function budget) budget) loops)
  | .term operand, budget, loops, enough, rest, follows, other =>
      Enters.first (term_ends outside function state operand enough other
        fun loops => term_enters operand budget loops enough follows) _
  | .op left op right, budget, loops, enough, rest, follows, other => by
      simp only [SumTree.tokens, List.length_append, List.length_cons]
        at enough
      have symbol : Follows (op.token :: (right.tokens ++ rest)) := by
        cases op <;> trivial
      have notMul : isMul (headType (op.token :: (right.tokens ++ rest))) =
          false := by
        cases op <;> rfl
      have before := sum_enters left budget (loops + 1) (by omega) symbol
        notMul
      have operand := term_ends outside function state right (by omega) other
        fun loops => term_enters right budget loops (by omega) follows
      have whole := before.next operand
        fun result name => exprLoop_step op loops result state _ name
      simp only [SumTree.tokens, List.append_assoc, List.cons_append, sumOps,
        SumTree.value]
      rw [Nat.add_comm (sumOps left), ← Nat.add_assoc]
      exact whole

theorem logic_yields : (tree : LogicTree false) → (budget : Nat) →
    tree.tokens.length ≤ budget → {rest : List Tok} → Follows rest →
    isMul (headType rest) = false → isAdd (headType rest) = false →
    isLogic (headType rest) = false →
    Yields outside
      (lexpr outside
        (expr outside
          (term outside (prim outside function budget) budget) budget))
      state (tree.tokens ++ rest) rest
      (tree.value outside.dcl state.contexts)
  | .sum sum, budget, enough, rest, follows, notMul, notAdd, notLogic => by
      apply lexpr_end notLogic
      simp only [LogicTree.tokens] at enough
      exact sum_ends outside function state sum enough notAdd
        fun loops => sum_enters sum budget loops enough follows notMul
  | .op allowed _ _ _, _, _, _, _, _, _, _ => by cases allowed

end

theorem type_ne_end (token : Tok) : token.type ≠ .end := by
  cases token with
  | number digits present plain => exact nofun
  | name word plain => exact nofun
  | symbol type known =>
      intro same
      simp only [Tok.type] at same
      rw [same] at known
      cases known

/-- What `calc` does with its stream and token. -/
def calculation (budget : Nat) : P W Str := do
  getToken outside
  if (← tokenType) == .end then pure []
  else
    lexpr outside
      (expr outside (term outside (prim outside function budget) budget)
        budget)

theorem calculate_eq (expression : Str) :
    calculate outside function expression =
      Prog.within ⟨expression, outside.rawToken, [], []⟩
        (calculation outside function (expression.length + 2)) :=
  rfl

/-- `calc` on a printed expression starts `lexpr` at its first token. -/
theorem calculation_spell {tokens : List Tok} (present : tokens ≠ [])
    (budget : Nat) :
    calculation outside function budget
        (state, ⟨spell tokens, outside.rawToken, [], []⟩) =
      lexpr outside
        (expr outside (term outside (prim outside function budget) budget)
          budget) (state, started tokens []) := by
  have read := getToken_spell outside state tokens outside.rawToken [] []
  rw [List.nil_append] at read
  have known : tokenType (state, started tokens []) =
      ⟨(state, started tokens []), [], .value (headType tokens)⟩ := by
    have type := type_facing tokens (firstName [] tokens) (firstDigits tokens)
    simp [tokenType, Prog.read, started, type]
  have other : (headType tokens == .end) = false := by
    cases tokens with
    | nil => exact absurd rfl present
    | cons token tokens =>
        exact beq_eq_false_iff_ne.mpr (type_ne_end token)
  unfold calculation
  rw [Prog.bind_silent read]
  exact (Prog.bind_silent known _).trans (by rw [other]; rfl)

/-- The value of a printed arithmetic expression is the value of its tree,
or the evaluator's exception when an operand is not a number. -/
theorem calculate_arithmetic (tree : SumTree false) :
    calculate outside function (spell tree.tokens) state =
      ⟨state, [],
        match tree.value outside.dcl state.contexts with
        | some value => .value value
        | none => .error (notNumber outside)⟩ := by
  have shorter := sumOps_lt tree
  have enough := length_le_spell tree.tokens
  have present : tree.tokens ≠ [] := by
    intro none
    simp [none] at shorter
  have follows : Follows [] := trivial
  have ran := logic_yields outside function state (.sum tree)
    ((spell tree.tokens).length + 2) (Nat.le_add_right_of_le enough)
    follows rfl rfl rfl []
  simp only [LogicTree.tokens, LogicTree.value, List.append_nil] at ran
  have begun := calculation_spell outside function state present
    ((spell tree.tokens).length + 2)
  rw [calculate_eq]
  cases result : tree.value outside.dcl state.contexts with
  | none =>
      rw [result] at ran
      obtain ⟨lexer, ran⟩ := ran
      exact Prog.within_eq lexer (begun.trans ran)
  | some value =>
      rw [result] at ran
      obtain ⟨last, ran⟩ := ran
      exact Prog.within_eq (Lexer.facing [] last []) (begun.trans ran)

end Trees

end Evaluator

end DbPager
