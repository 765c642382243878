import DbPager.Chains

/-!
# Short-circuit evaluation

When the left operand of `&` or `|` decides the result, `lexpr` does not
compute the right operand, and so does not read it either.  Inside
parentheses the parser then finds the right operand where the closing
parenthesis should be.  For texts of variables, numbers, parentheses, `!`,
`&` and `|` this module says exactly when an expression raises: the text is
first read without regard to values, and the faults are those of the reading.
-/

namespace DbPager

open Effect

namespace Evaluator

/-- Texts of variables, numbers, parentheses, `!`, `&`, `|` and blanks. -/
inductive Simple : Str → Prop where
  | nil : Simple []
  | blank {c : Char} {rest : Str} :
      c ≠ '\n' → isSpace c = true → Simple rest → Simple (c :: rest)
  | symbol {c : Char} {rest : Str} :
      c ∈ ['(', ')', '!', '&', '|'] → Simple rest → Simple (c :: rest)
  | digit {c : Char} {rest : Str} :
      Lexer.isNumberChar c = true → Simple rest → Simple (c :: rest)
  | named {word rest : Str} :
      word.all Lexer.isVariableChar = true → Simple rest →
      Simple ('$' :: (word ++ rest))

/-- The tokens of such texts. -/
def isSimple : TokenType → Bool
  | .name | .number | .lp | .rp | .not | .and | .or | .end => true
  | _ => false

/-- What a text says, whatever the values of its variables. -/
inductive Reading where
  | number (digits : Str)
  | name (word : Str)
  /-- The text ends where a primary is expected, which `prim` accepts. -/
  | ended
  /-- There is something else where a primary is expected. -/
  | missing
  | not (operand : Reading)
  | both (conjunction : Bool) (left right : Reading)
  | paren (inner : Reading) (closed : Bool)

namespace Reading

/-- The left operand decides the result of `&` (`conjunction`) or `|`. -/
def decides (conjunction : Bool) (left : Str) : Bool :=
  conjunction != (left == "1".toList)

theorem decides_one {left : Str} (one : (left == "1".toList) = true)
    (conjunction : Bool) : decides conjunction left = !conjunction := by
  unfold decides
  rw [one]
  cases conjunction <;> rfl

theorem decides_other {left : Str} (other : ¬ (left == "1".toList) = true)
    (conjunction : Bool) : decides conjunction left = conjunction := by
  unfold decides
  rw [Bool.not_eq_true _ |>.mp other]
  cases conjunction <;> rfl

def value (contexts : List Context) : Reading → Str
  | .number digits => digits
  | .name word => Chain.getValue word contexts
  | .ended => "1".toList
  | .missing => []
  | .not operand => truth (operand.value contexts != "1".toList)
  | .both conjunction left right =>
      if decides conjunction (left.value contexts) then truth !conjunction
      else truth (right.value contexts == "1".toList)
  | .paren inner _ => inner.value contexts

def isMissing : Reading → Bool
  | .missing => true
  | _ => false

/-- An operator that does not read its right operand, though there is one. -/
def skips (contexts : List Context) : Reading → Bool
  | .both conjunction left right =>
      decides conjunction (left.value contexts) && !right.isMissing
  | _ => false

/-- The parts of the text that are evaluated lack an operand or a closing
parenthesis, or have an operator in parentheses that does not read its right
operand. -/
def fault (contexts : List Context) : Reading → Bool
  | .number _ | .name _ | .ended => false
  | .missing => true
  | .not operand => operand.fault contexts
  | .both conjunction left right =>
      left.fault contexts ||
        (!decides conjunction (left.value contexts) && right.fault contexts)
  | .paren inner closed =>
      inner.fault contexts || !closed || inner.skips contexts

end Reading

section Reading

variable (dcl : Dcl)

def nextToken (lexer : Lexer) : Lexer :=
  (lexer.getToken dcl).1

/-- An operand and perhaps an operator with another operand. -/
def readLogic (operand : Lexer → Reading × Lexer) (lexer : Lexer) :
    Reading × Lexer :=
  let (left, last) := operand lexer
  match last.type with
  | .and =>
      let (right, final) := operand (nextToken dcl last)
      (.both true left right, final)
  | .or =>
      let (right, final) := operand (nextToken dcl last)
      (.both false left right, final)
  | _ => (left, last)

/-- Read a primary, in the order in which `prim` reads it. -/
def readPrim : Nat → Lexer → Reading × Lexer
  | 0, lexer => (.missing, lexer)
  | budget + 1, lexer =>
      let next := nextToken dcl lexer
      match lexer.type with
      | .number => (.number next.value, { next with value := [] })
      | .name => (.name next.name, { next with name := [] })
      | .not =>
          let (operand, last) := readPrim budget next
          (.not operand, last)
      | .lp =>
          let (inner, last) := readLogic dcl (readPrim budget) next
          if last.type == .rp then (.paren inner true, nextToken dcl last)
          else (.paren inner false, last)
      | .end => (.ended, lexer)
      | _ => (.missing, lexer)

/-- Read the text of an expression. -/
def reading (rawToken : TokenType) (text : Str) : Reading :=
  let first := nextToken dcl ⟨text, rawToken, [], []⟩
  (readLogic dcl (readPrim dcl (text.length + 2)) first).1

end Reading

section Tokens

theorem Simple.dropWhile {text : Str} (simple : Simple text)
    {p : Char → Bool} (stops : p '$' = false) :
    Simple (text.dropWhile p) := by
  induction simple with
  | nil => exact .nil
  | @blank c rest line space simple induction =>
      rw [List.dropWhile_cons]
      split
      · exact induction
      · exact .blank line space simple
  | @symbol c rest known simple induction =>
      rw [List.dropWhile_cons]
      split
      · exact induction
      · exact .symbol known simple
  | @digit c rest known simple induction =>
      rw [List.dropWhile_cons]
      split
      · exact induction
      · exact .digit known simple
  | @named word rest plain simple induction =>
      rw [List.dropWhile_cons_of_neg (by simp [stops])]
      exact .named plain simple

theorem Simple.head_ne {rest : Str} (simple : Simple ('=' :: rest)) : False := by
  cases simple with
  | blank _ space _ => exact absurd space (by decide)
  | symbol known _ => exact absurd known (by decide)
  | digit known _ => exact absurd known (by decide)

/-- The token at the first character that is not a blank. -/
theorem getTokenFrom_simple (dcl : Dcl) (lexer : Lexer) {c : Char}
    {rest : Str} (simple : Simple (c :: rest))
    (visible : (c != '\n' && isSpace c) = false) :
    ∃ next, Lexer.getTokenFrom dcl lexer c rest = (next, none) ∧
      Simple next.input ∧ isSimple next.type = true ∧
      next.input.length ≤ rest.length := by
  generalize text : c :: rest = whole at simple
  cases simple with
  | nil => cases text
  | blank line space simple =>
      cases text
      simp [line, space] at visible
  | symbol known simple =>
      cases text
      simp only [List.mem_cons, List.not_mem_nil, or_false] at known
      rcases known with rfl | rfl | rfl | rfl | rfl
      · exact ⟨_, rfl, simple, rfl, Nat.le_refl _⟩
      · exact ⟨_, rfl, simple, rfl, Nat.le_refl _⟩
      · have other : Lexer.getTokenFrom dcl lexer '!' rest =
            ({ lexer with input := rest, type := .not }, none) := by
          simp only [Lexer.getTokenFrom]
          split
          · exact simple.head_ne.elim
          · rfl
        exact ⟨_, other, simple, rfl, Nat.le_refl _⟩
      · exact ⟨_, rfl, simple, rfl, Nat.le_refl _⟩
      · exact ⟨_, rfl, simple, rfl, Nat.le_refl _⟩
  | digit known simple =>
      cases text
      refine ⟨_, Lexer.getTokenFrom_number dcl lexer known rest, ?_, rfl, ?_⟩
      · exact Simple.dropWhile (.digit known simple) (by decide)
      · rw [List.dropWhile_cons_of_pos known]
        exact List.length_dropWhile_le _ _
  | @named word after plain simple =>
      cases text
      refine ⟨_, rfl, ?_, rfl, List.length_dropWhile_le _ _⟩
      simp only
      rw [List.dropWhile_append_of_pos (List.all_eq_true.mp plain)]
      exact simple.dropWhile (by decide)

/-- Reading such a text, the lexer finds only the expected tokens. -/
theorem getToken_simple (dcl : Dcl) {lexer : Lexer}
    (simple : Simple lexer.input) :
    lexer.getToken dcl = (nextToken dcl lexer, none) ∧
      Simple (nextToken dcl lexer).input ∧
      isSimple (nextToken dcl lexer).type = true ∧
      ((nextToken dcl lexer).type ≠ .end →
        (nextToken dcl lexer).input.length < lexer.input.length) := by
  have shorter := List.length_dropWhile_le
    (fun c => c != '\n' && isSpace c) lexer.input
  have rest : Simple (lexer.input.dropWhile
      (fun c => c != '\n' && isSpace c)) :=
    simple.dropWhile (by decide)
  have visible := List.head?_dropWhile_not
    (fun c => c != '\n' && isSpace c) lexer.input
  unfold nextToken Lexer.getToken
  cases left : lexer.input.dropWhile
      (fun c => c != '\n' && isSpace c) with
  | nil => exact ⟨rfl, .nil, rfl, fun other => absurd rfl other⟩
  | cons c after =>
      rw [left] at rest shorter visible
      simp only [List.head?_cons] at visible
      obtain ⟨next, read, simple, type, length⟩ :=
        getTokenFrom_simple dcl lexer rest visible
      simp only [read]
      simp only [List.length_cons] at shorter
      exact ⟨trivial, simple, type, fun _ => by omega⟩

/-- A lexer in such a text, with as much budget as `prim` may need. -/
structure Fine (budget : Nat) (lexer : Lexer) : Prop where
  simple : Simple lexer.input
  type : isSimple lexer.type = true
  positive : 0 < budget
  enough : lexer.type ≠ .end → lexer.input.length + 2 ≤ budget

variable {dcl : Dcl} {budget : Nat} {lexer : Lexer}

theorem Fine.succ (fine : Fine budget lexer) : Fine (budget + 1) lexer := by
  constructor
  · exact fine.simple
  · exact fine.type
  · exact Nat.succ_pos budget
  · intro other
    exact Nat.le_succ_of_le (fine.enough other)

theorem Fine.payload (fine : Fine budget lexer) (name value : Str) :
    Fine budget { lexer with name, value } := by
  constructor
  · exact fine.simple
  · exact fine.type
  · exact fine.positive
  · exact fine.enough

/-- Reading a token uses up budget for one more `prim`. -/
theorem Fine.next (fine : Fine (budget + 1) lexer)
    (other : lexer.type ≠ .end) : Fine budget (nextToken dcl lexer) := by
  obtain ⟨_, simple, type, shorter⟩ := getToken_simple dcl fine.simple
  have enough := fine.enough other
  constructor
  · exact simple
  · exact type
  · omega
  · intro more
    have less := shorter more
    omega

theorem Fine.read (fine : Fine budget lexer) (other : lexer.type ≠ .end) :
    Fine budget (nextToken dcl lexer) := by
  cases budget with
  | zero => exact absurd fine.positive (Nat.lt_irrefl 0)
  | succ budget =>
      have next : Fine budget (nextToken dcl lexer) := fine.next other
      exact next.succ

theorem readLogic_fine {operand : Lexer → Reading × Lexer}
    (keeps : ∀ {lexer}, Fine budget lexer → Fine budget (operand lexer).2)
    (fine : Fine budget lexer) :
    Fine budget (readLogic dcl operand lexer).2 := by
  have first := keeps fine
  unfold readLogic
  simp only
  split
  · rename_i type
    exact keeps (first.read (by rw [type]; exact nofun))
  · rename_i type
    exact keeps (first.read (by rw [type]; exact nofun))
  · exact first

theorem readPrim_fine (fine : Fine budget lexer) :
    Fine budget (readPrim dcl budget lexer).2 := by
  induction budget generalizing lexer with
  | zero => exact absurd fine.positive (Nat.lt_irrefl 0)
  | succ budget induction =>
      have next (other : lexer.type ≠ .end) :
          Fine budget (nextToken dcl lexer) :=
        fine.next other
      unfold readPrim
      simp only
      split
      · rename_i type
        have read := next (by rw [type]; exact nofun)
        exact read.succ.payload _ []
      · rename_i type
        have read := next (by rw [type]; exact nofun)
        exact read.succ.payload [] _
      · rename_i type
        exact (induction (next (by rw [type]; exact nofun))).succ
      · rename_i type
        have inner : Fine budget
            (readLogic dcl (readPrim dcl budget) (nextToken dcl lexer)).2 :=
          readLogic_fine induction (next (by rw [type]; exact nofun))
        split
        · rename_i closed
          have after : Fine budget (nextToken dcl
              (readLogic dcl (readPrim dcl budget)
                (nextToken dcl lexer)).2) :=
            inner.read (by rw [beq_iff_eq.mp closed]; exact nofun)
          exact after.succ
        · exact inner.succ
      · exact fine
      · exact fine

end Tokens

section Runs

variable {W : Type} (outside : Outside W) (state : St W)

/-- A program computes what was read, or raises if that has a fault. -/
def Agrees (program : P W Str) (lexer : Lexer) (read : Reading × Lexer) :
    Prop :=
  if read.1.fault state.contexts then
    ∃ exception last,
      program (state, lexer) = ⟨(state, last), [], .error exception⟩
  else
    program (state, lexer) =
      ⟨(state, read.2), [], .value (read.1.value state.contexts)⟩

/-- A program that goes on as another one does from further on. -/
theorem Agrees.from {program other : P W Str} {lexer middle : Lexer}
    {read : Reading × Lexer} (later : Agrees state other middle read)
    (same : program (state, lexer) = other (state, middle)) :
    Agrees state program lexer read := by
  unfold Agrees at later ⊢
  rw [same]
  exact later

theorem not_agrees {program : P W Str} {lexer : Lexer}
    {read : Reading × Lexer} (agrees : Agrees state program lexer read) :
    Agrees state
      (program >>= fun text => pure (truth (text != "1".toList))) lexer
      (.not read.1, read.2) := by
  have whole : (Reading.not read.1).fault state.contexts =
      read.1.fault state.contexts := rfl
  unfold Agrees at agrees ⊢
  rw [whole]
  cases fault : read.1.fault state.contexts with
  | true =>
      rw [fault, if_pos rfl] at agrees
      obtain ⟨exception, last, ran⟩ := agrees
      exact ⟨exception, last, Prog.bind_error ran _⟩
  | false =>
      rw [fault, if_neg Bool.false_ne_true] at agrees
      exact Prog.bind_silent agrees _

theorem getToken_fine {budget : Nat} {lexer : Lexer}
    (fine : Fine budget lexer) :
    getToken outside (state, lexer) =
      ⟨(state, nextToken outside.dcl lexer), [], .value ()⟩ := by
  obtain ⟨read, _⟩ := getToken_simple outside.dcl fine.simple
  simp [getToken, Prog.act, read]

/-- The loops of `term` and `expr` find no operator of theirs. -/
theorem wrapped_agrees {program : P W Str} {loop : Str → P W Str}
    {budget : Nat} {lexer : Lexer} {read : Reading × Lexer}
    (agrees : Agrees state program lexer read) (fine : Fine budget read.2)
    (stops : ∀ left lexer, isSimple lexer.type = true →
      loop left (state, lexer) = ⟨(state, lexer), [], .value left⟩) :
    Agrees state
      (program >>= fun left =>
        (loop left).tryCatch (convertException outside)) lexer read := by
  unfold Agrees at agrees ⊢
  split
  · rename_i fault
    rw [if_pos fault] at agrees
    obtain ⟨exception, last, ran⟩ := agrees
    exact ⟨exception, last, Prog.bind_error ran _⟩
  · rename_i fault
    rw [if_neg fault] at agrees
    rw [Prog.bind_silent agrees]
    exact Prog.tryCatch_eq (stops _ read.2 fine.type) _

theorem termLoop_stops (prim : P W Str) {loops : Nat} (some : 0 < loops)
    (left : Str) (lexer : Lexer) (simple : isSimple lexer.type = true) :
    termLoop outside prim loops left (state, lexer) =
      ⟨(state, lexer), [], .value left⟩ := by
  cases loops with
  | zero => exact absurd some (Nat.lt_irrefl 0)
  | succ loops =>
      obtain ⟨input, type, name, value⟩ := lexer
      cases type with
      | name | number | lp | rp | not | and | or | «end» => rfl
      | _ => cases simple

theorem exprLoop_stops (term : P W Str) {loops : Nat} (some : 0 < loops)
    (left : Str) (lexer : Lexer) (simple : isSimple lexer.type = true) :
    exprLoop outside term loops left (state, lexer) =
      ⟨(state, lexer), [], .value left⟩ := by
  cases loops with
  | zero => exact absurd some (Nat.lt_irrefl 0)
  | succ loops =>
      obtain ⟨input, type, name, value⟩ := lexer
      cases type with
      | name | number | lp | rp | not | and | or | «end» => rfl
      | _ => cases simple

/-- Reading `operand` agrees with what a program does, and it tells a missing
operand from one that is there. -/
structure Reads (program : P W Str) (budget : Nat)
    (operand : Lexer → Reading × Lexer) : Prop where
  agrees : ∀ {lexer}, Fine budget lexer →
    Agrees state program lexer (operand lexer)
  keeps : ∀ {lexer}, Fine budget lexer → Fine budget (operand lexer).2
  missing : ∀ {lexer}, Fine budget lexer →
    (operand lexer).1.isMissing = true → (operand lexer).2 = lexer
  present : ∀ {lexer}, Fine budget lexer →
    (operand lexer).1.isMissing = false → lexer.type ≠ .rp
  single : ∀ lexer, (operand lexer).1.skips state.contexts = false

/-- Without arithmetic operators an operand of `lexpr` is a primary. -/
theorem operand_reads {prim : P W Str} {budget : Nat}
    {operand : Lexer → Reading × Lexer}
    (reads : Reads state prim budget operand) :
    Reads state (expr outside (term outside prim budget) budget) budget
      operand := by
  constructor
  · intro lexer fine
    apply wrapped_agrees outside state _ (reads.keeps fine)
    · exact exprLoop_stops outside state _ fine.positive
    · apply wrapped_agrees outside state (reads.agrees fine)
        (reads.keeps fine)
      exact termLoop_stops outside state _ fine.positive
  · exact reads.keeps
  · exact reads.missing
  · exact reads.present
  · exact reads.single

/-- `lexpr` computes what was read, or raises if that has a fault; when it
skips the right operand, it stops in front of it. -/
def LogicAgrees (program : P W Str) (lexer : Lexer) (read : Reading × Lexer) :
    Prop :=
  if read.1.fault state.contexts then
    ∃ exception last,
      program (state, lexer) = ⟨(state, last), [], .error exception⟩
  else
    ∃ last,
      program (state, lexer) =
        ⟨(state, last), [], .value (read.1.value state.contexts)⟩ ∧
      if read.1.skips state.contexts then last.type ≠ .rp else last = read.2

section Logic

variable {program : P W Str} {budget : Nat}
  {operand : Lexer → Reading × Lexer}
  (reads : Reads state program budget operand)

include reads

/-- The right operand of an operator, when it is evaluated. -/
theorem right_agrees (conjunction : Bool) (left : Reading) {next : Lexer}
    (fine : Fine budget next) (leftFine : left.fault state.contexts = false)
    (open_ : Reading.decides conjunction (left.value state.contexts) = false) :
    LogicAgrees state
      (program >>= fun text => pure (truth (text == "1".toList))) next
      (.both conjunction left (operand next).1, (operand next).2) := by
  have agrees := reads.agrees fine
  unfold Agrees at agrees
  unfold LogicAgrees
  simp only [Reading.fault, Reading.skips, Reading.value, leftFine, open_,
    Bool.false_or, Bool.not_false, Bool.true_and, Bool.false_and]
  split
  · rename_i fault
    rw [if_pos fault] at agrees
    obtain ⟨exception, last, ran⟩ := agrees
    exact ⟨exception, last, Prog.bind_error ran _⟩
  · rename_i fault
    rw [if_neg fault] at agrees
    refine ⟨(operand next).2, ?_, rfl⟩
    exact Prog.bind_silent agrees _

/-- An operator whose left operand decides leaves the lexer where it is. -/
theorem decided_agrees (conjunction : Bool) (left : Reading) {next : Lexer}
    (fine : Fine budget next) (leftFine : left.fault state.contexts = false)
    (decided :
      Reading.decides conjunction (left.value state.contexts) = true) :
    LogicAgrees state (pure (truth !conjunction)) next
      (.both conjunction left (operand next).1, (operand next).2) := by
  unfold LogicAgrees
  simp only [Reading.fault, Reading.skips, Reading.value, leftFine, decided,
    Bool.false_or, Bool.not_true, Bool.false_and, Bool.true_and]
  refine ⟨next, rfl, ?_⟩
  cases absent : (operand next).1.isMissing with
  | true => exact (reads.missing fine absent).symm
  | false => exact reads.present fine absent

omit reads in
theorem LogicAgrees.after {α : Type} {first : P W α} {rest : α → P W Str}
    {lexer middle : Lexer} {read : Reading × Lexer} {result : α}
    (later : LogicAgrees state (rest result) middle read)
    (ran : first (state, lexer) = ⟨(state, middle), [], .value result⟩) :
    LogicAgrees state (first >>= rest) lexer read := by
  unfold LogicAgrees at later ⊢
  rw [Prog.bind_silent ran]
  exact later

/-- The operator and the right operand, if any. -/
theorem logicRest_agrees {lexer : Lexer} {left : Reading}
    (leftFine : left.fault state.contexts = false)
    (leftSingle : left.skips state.contexts = false)
    (fine : Fine budget lexer) :
    LogicAgrees state
      (logicRest outside program (left.value state.contexts)) lexer
      (match lexer.type with
      | .and =>
          (.both true left (operand (nextToken outside.dcl lexer)).1,
            (operand (nextToken outside.dcl lexer)).2)
      | .or =>
          (.both false left (operand (nextToken outside.dcl lexer)).1,
            (operand (nextToken outside.dcl lexer)).2)
      | _ => (left, lexer)) := by
  have read := getToken_fine outside state fine
  obtain ⟨input, type, name, value⟩ := lexer
  have next (other : type ≠ .end) :
      Fine budget (nextToken outside.dcl ⟨input, type, name, value⟩) :=
    fine.read other
  have ends : LogicAgrees state (pure (left.value state.contexts))
      ⟨input, type, name, value⟩ (left, ⟨input, type, name, value⟩) := by
    unfold LogicAgrees
    simp only [leftFine, leftSingle]
    exact ⟨_, rfl, rfl⟩
  cases type with
  | and =>
      have ran : LogicAgrees state
          (getToken outside >>= fun _ =>
            if left.value state.contexts == "1".toList then
              program >>= fun text => pure (truth (text == "1".toList))
            else pure (truth false)) ⟨input, .and, name, value⟩
          (.both true left
            (operand (nextToken outside.dcl ⟨input, .and, name, value⟩)).1,
            (operand (nextToken outside.dcl ⟨input, .and, name, value⟩)).2) := by
        apply LogicAgrees.after state _ read
        split
        · rename_i one
          apply right_agrees state reads true left (next nofun) leftFine
          exact Reading.decides_one one _
        · rename_i other
          apply decided_agrees state reads true left (next nofun) leftFine
          exact Reading.decides_other other _
      exact ran
  | or =>
      have ran : LogicAgrees state
          (getToken outside >>= fun _ =>
            if left.value state.contexts == "1".toList then pure (truth true)
            else program >>= fun text => pure (truth (text == "1".toList)))
          ⟨input, .or, name, value⟩
          (.both false left
            (operand (nextToken outside.dcl ⟨input, .or, name, value⟩)).1,
            (operand (nextToken outside.dcl ⟨input, .or, name, value⟩)).2) := by
        apply LogicAgrees.after state _ read
        split
        · rename_i one
          apply decided_agrees state reads false left (next nofun) leftFine
          exact Reading.decides_one one _
        · rename_i other
          apply right_agrees state reads false left (next nofun) leftFine
          exact Reading.decides_other other _
      exact ran
  | name | number | lp | rp | not | «end» => exact ends
  | _ => cases fine.type

theorem lexpr_agrees {lexer : Lexer} (fine : Fine budget lexer) :
    LogicAgrees state (lexpr outside program) lexer
      (readLogic outside.dcl operand lexer) := by
  have first := reads.agrees fine
  unfold Agrees at first
  rw [lexpr_eq]
  cases fault : (operand lexer).1.fault state.contexts with
  | true =>
      rw [fault, if_pos rfl] at first
      obtain ⟨exception, last, ran⟩ := first
      have whole : (readLogic outside.dcl operand lexer).1.fault
          state.contexts = true := by
        unfold readLogic
        simp only
        split <;> simp [Reading.fault, fault]
      unfold LogicAgrees
      rw [whole, if_pos rfl]
      exact ⟨exception, last, Prog.bind_error ran _⟩
  | false =>
      rw [fault, if_neg Bool.false_ne_true] at first
      apply LogicAgrees.after state _ first
      exact logicRest_agrees outside state reads fault
        (reads.single lexer) (reads.keeps fine)

end Logic

/-- What may stand at a token where `readPrim` finds no primary. -/
theorem readPrim_missing {dcl : Dcl} {budget : Nat} {lexer : Lexer}
    (fine : Fine budget lexer)
    (absent : (readPrim dcl budget lexer).1.isMissing = true) :
    (readPrim dcl budget lexer).2 = lexer := by
  cases budget with
  | zero => rfl
  | succ budget =>
      obtain ⟨input, type, name, value⟩ := lexer
      cases type with
      | rp | and | or => rfl
      | lp =>
          revert absent
          unfold readPrim
          simp only
          split <;> exact nofun
      | number | name | not | «end» => cases absent
      | _ => cases fine.type

theorem readPrim_present {dcl : Dcl} {budget : Nat} {lexer : Lexer}
    (there : (readPrim dcl budget lexer).1.isMissing = false) :
    lexer.type ≠ .rp := by
  intro closing
  cases budget with
  | zero => cases there
  | succ budget =>
      obtain ⟨input, type, name, value⟩ := lexer
      cases closing
      cases there

theorem readPrim_single {dcl : Dcl} (budget : Nat) (lexer : Lexer) :
    (readPrim dcl budget lexer).1.skips state.contexts = false := by
  cases budget with
  | zero => rfl
  | succ budget =>
      unfold readPrim
      simp only
      split
      case h_4 => split <;> rfl
      all_goals rfl

variable (function : Str → Str → M W Str)

/-- An operand in parentheses, up to its end. -/
theorem closing_agrees {inner : P W Str} {budget : Nat} {lexer : Lexer}
    {read : Reading × Lexer} (agrees : LogicAgrees state inner lexer read)
    (fine : Fine budget read.2) :
    Agrees state
      (inner >>= fun result => do
        if (← tokenType) == TokenType.rp then
          getToken outside
          pure result
        else
          Prog.throw
            (outside.dcl.exception "invalid expression: \")\" expected" []))
      lexer
      (if read.2.type == .rp then
        (.paren read.1 true, nextToken outside.dcl read.2)
      else (.paren read.1 false, read.2)) := by
  have looked (lexer : Lexer) : tokenType (state, lexer) =
      ⟨(state, lexer), [], .value lexer.type⟩ := rfl
  have whole : Reading.fault state.contexts
      (if read.2.type == .rp then
        (Reading.paren read.1 true, nextToken outside.dcl read.2)
      else (.paren read.1 false, read.2)).1 =
      (read.1.fault state.contexts || !(read.2.type == .rp) ||
        read.1.skips state.contexts) := by
    split
    · rename_i closed
      rw [closed]
      rfl
    · rename_i unclosed
      rw [Bool.not_eq_true _ |>.mp unclosed]
      rfl
  unfold LogicAgrees at agrees
  unfold Agrees
  rw [whole]
  cases fault : read.1.fault state.contexts with
  | true =>
      rw [fault, if_pos rfl] at agrees
      obtain ⟨exception, last, ran⟩ := agrees
      exact ⟨exception, last, Prog.bind_error ran _⟩
  | false =>
      rw [fault, if_neg Bool.false_ne_true] at agrees
      obtain ⟨last, ran, place⟩ := agrees
      rw [Prog.bind_silent ran, Prog.bind_silent (looked last)]
      cases skips : read.1.skips state.contexts with
      | true =>
          rw [skips, if_pos rfl] at place
          rw [beq_eq_false_iff_ne.mpr place, Bool.or_true, if_pos rfl]
          exact ⟨_, _, rfl⟩
      | false =>
          rw [skips, if_neg Bool.false_ne_true] at place
          subst place
          cases closed : read.2.type == .rp with
          | true => exact Prog.bind_silent (getToken_fine outside state fine) _
          | false => exact ⟨_, _, rfl⟩

theorem prim_agrees (budget : Nat) :
    Reads state (prim outside function budget) budget
      (readPrim outside.dcl budget) := by
  induction budget with
  | zero =>
      constructor
      · intro lexer fine
        exact absurd fine.positive (Nat.lt_irrefl 0)
      · exact readPrim_fine
      · exact readPrim_missing
      · exact fun _ => readPrim_present
      · exact readPrim_single state 0
  | succ budget induction =>
      constructor
      · intro lexer fine
        have read := getToken_fine outside state fine
        obtain ⟨input, type, name, value⟩ := lexer
        have next (other : type ≠ .end) :
            Fine budget (nextToken outside.dcl ⟨input, type, name, value⟩) :=
          fine.next other
        cases type with
        | number => exact Prog.bind_silent read _
        | name => exact Prog.bind_silent read _
        | not =>
            have operand := induction.agrees (next nofun)
            exact (not_agrees state operand).from state
              (Prog.bind_silent read _)
        | lp =>
            have operands := operand_reads outside state induction
            have inner := lexpr_agrees outside state operands (next nofun)
            have closed := closing_agrees outside state inner
              (readLogic_fine readPrim_fine (next nofun))
            exact closed.from state (Prog.bind_silent read _)
        | «end» => rfl
        | rp | and | or => exact ⟨_, _, rfl⟩
        | _ => cases fine.type
      · exact readPrim_fine
      · exact readPrim_missing
      · exact fun _ => readPrim_present
      · exact readPrim_single state _

/-- `calc` raises an exception. -/
def Raises (outside : Outside W) (function : Str → Str → M W Str)
    (text : Str) (state : St W) : Prop :=
  ∃ exception, (calculate outside function text state).outcome =
    .error exception

/-- `calc` raises exactly when what was read has a fault. -/
theorem raises_iff_fault {text : Str} (simple : Simple text) :
    Raises outside function text state ↔
      (reading outside.dcl outside.rawToken text).fault state.contexts =
        true := by
  obtain ⟨read, rest, type, shorter⟩ := getToken_simple outside.dcl
    (show Simple (Lexer.mk text outside.rawToken [] []).input from simple)
  have begun : getToken outside
      (state, ⟨text, outside.rawToken, [], []⟩) =
      ⟨(state, nextToken outside.dcl ⟨text, outside.rawToken, [], []⟩), [],
        .value ()⟩ := by
    simp [getToken, Prog.act, read]
  have fine : Fine (text.length + 2)
      (nextToken outside.dcl ⟨text, outside.rawToken, [], []⟩) := by
    constructor
    · exact rest
    · exact type
    · exact Nat.succ_pos _
    · intro other
      exact Nat.add_le_add_right (Nat.le_of_lt (shorter other)) 2
  have operands := operand_reads outside state
    (prim_agrees outside state function (text.length + 2))
  have agrees := lexpr_agrees outside state operands fine
  unfold Raises reading
  rw [calculate_eq]
  simp only
  generalize nextToken outside.dcl ⟨text, outside.rawToken, [], []⟩ = first
    at begun agrees
  have looked : tokenType (state, first) =
      ⟨(state, first), [], .value first.type⟩ := rfl
  unfold Prog.within calculation
  rw [Prog.bind_silent begun, Prog.bind_silent looked]
  cases ended : first.type == .end with
  | true =>
      obtain ⟨input, type, name, value⟩ := first
      cases beq_iff_eq.mp ended
      constructor
      · rintro ⟨exception, raised⟩
        cases raised
      · intro raised
        cases raised
  | false =>
      unfold LogicAgrees at agrees
      cases fault : (readLogic outside.dcl
          (readPrim outside.dcl (text.length + 2)) first).1.fault
          state.contexts with
      | true =>
          rw [fault, if_pos rfl] at agrees
          obtain ⟨exception, last, ran⟩ := agrees
          simp [ran]
      | false =>
          rw [fault, if_neg Bool.false_ne_true] at agrees
          obtain ⟨last, ran, _⟩ := agrees
          simp [ran]

/-- Whether an expression raises depends on the values of the variables
exactly when the faults of the text do. -/
theorem raises_alike_iff {text : Str} (simple : Simple text)
    (first second : St W) :
    (Raises outside function text first ↔
      Raises outside function text second) ↔
    ((reading outside.dcl outside.rawToken text).fault first.contexts =
      (reading outside.dcl outside.rawToken text).fault second.contexts) := by
  have left := raises_iff_fault outside first function simple
  have right := raises_iff_fault outside second function simple
  rw [left, right, ← Bool.eq_iff_iff]

end Runs

/-- The text `($a&$b)`. -/
def conjunctionText : Str :=
  "($a&$b)".toList

theorem simple_conjunctionText : Simple conjunctionText := by
  have after : Simple ")".toList := .symbol (by decide) .nil
  have right : Simple "&$b)".toList :=
    .symbol (by decide) (@Simple.named "b".toList _ rfl after)
  have left : Simple "$a&$b)".toList := @Simple.named "a".toList _ rfl right
  exact .symbol (by decide) left

/-- A state in which `a` and `b` have the given values. -/
def stateWith (a b : Str) : St Unit :=
  St.fresh [{ Context.newLocal with
    stack := [AList.insert "A".toList a (AList.insert "B".toList b ∅)] }]

/-- In both contexts the operator skips its right operand. -/
theorem raises_alike_iff_skipped :
    let zero := stateWith "0".toList "0".toList
    let other := stateWith "0".toList "1".toList
    Simple conjunctionText ∧
      (Raises Outside.plain (fun _ _ => pure []) conjunctionText zero ↔
        Raises Outside.plain (fun _ _ => pure []) conjunctionText other) := by
  intro zero other
  refine ⟨simple_conjunctionText, ?_⟩
  rw [raises_alike_iff Outside.plain _ simple_conjunctionText]
  rfl

/-- With `a = 1` the expression has a value, with `a = 0` it raises. -/
theorem conjunction_depends_on_value :
    Simple conjunctionText ∧
      ¬ (Raises Outside.plain (fun _ _ => pure []) conjunctionText
          (stateWith "1".toList "1".toList) ↔
        Raises Outside.plain (fun _ _ => pure []) conjunctionText
          (stateWith "0".toList "1".toList)) := by
  refine ⟨simple_conjunctionText, ?_⟩
  intro alike
  have raised : Raises Outside.plain (fun _ _ => pure []) conjunctionText
      (stateWith "0".toList "1".toList) := ⟨_, rfl⟩
  obtain ⟨exception, returned⟩ := alike.mpr raised
  have value : (calculate Outside.plain (fun _ _ => pure []) conjunctionText
      (stateWith "1".toList "1".toList)).outcome = .value "1".toList := rfl
  rw [value] at returned
  cases returned

end Evaluator

end DbPager
