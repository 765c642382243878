import DbPager.Congruence
import DbPager.Evaluation
import DbPager.Grammar
import DbPager.Plain

/-!
# Termination of the evaluator

Every recursion of the evaluator is on a shorter text, except where the
argument of a function has braces of its own: their value is put into the
argument, and the argument is computed with whatever the value has brought.
Where this does not happen, what an argument computes is shorter than the text
that calls the function, and the evaluation ends.
-/

namespace DbPager

open Effect

namespace Evaluator

/-- What the lexer has still to read and what it has read into its value. -/
def size (lexer : Lexer) : Nat :=
  lexer.value.length + lexer.input.length +
    if lexer.type = .func then 1 else 0

/-- The number of tokens there may still be. -/
def weight (lexer : Lexer) : Nat :=
  lexer.input.length + if lexer.type = .end then 0 else 1

theorem size_clear (lexer : Lexer) :
    size { lexer with value := [] } ≤ size lexer := by
  simp [size]

section Lexing

theorem length_readQuoted (quote : Char) (rest : Str) :
    (Lexer.readQuoted quote rest).1.length +
      ((Lexer.readQuoted quote rest).2.getD []).length ≤ rest.length := by
  induction rest with
  | nil => exact Nat.le_refl 0
  | cons c rest induction =>
      unfold Lexer.readQuoted
      split
      · simp
      · simp only [List.length_cons]
        omega

theorem length_readArguments (arguments : Str) (braces : Nat) (value : Str) :
    (Lexer.readArguments arguments braces value).2.1.length +
        (Lexer.readArguments arguments braces value).2.2.length ≤
      value.length + arguments.length ∧
    (Lexer.readArguments arguments braces value).2.2.length ≤
      arguments.length := by
  induction arguments generalizing braces value with
  | nil => exact ⟨Nat.le_refl _, Nat.le_refl _⟩
  | cons c arguments induction =>
      cases braces with
      | zero =>
          simp only [Lexer.readArguments, List.length_cons]
          omega
      | succ braces =>
          have added := induction (braces + 1) (value ++ [c])
          have closed := induction 0 value
          have kept := induction braces (value ++ [c])
          simp only [Lexer.readArguments, List.length_cons]
          simp only [List.length_append, List.length_cons, List.length_nil]
            at added kept
          split
          · split
            · omega
            · omega
          · omega

/-- Reading a token uses up characters, whether it succeeds or not. -/
def Shrinks (lexer : Lexer) (rest : Str) (next : Lexer) : Prop :=
  size next ≤ lexer.value.length + rest.length + 1 ∧
    next.input.length ≤ rest.length

/-- Any token that leaves the value as it is. -/
theorem shrinks_plain {lexer next : Lexer} {rest : Str}
    (value : next.value = lexer.value)
    (input : next.input.length ≤ rest.length) : Shrinks lexer rest next := by
  refine ⟨?_, input⟩
  unfold size
  rw [value]
  split <;> omega

theorem getFunction_shrinks (dcl : Dcl) (lexer : Lexer) (name : Str)
    {rest whole : Str} (last : Char) (shorter : rest.length ≤ whole.length) :
    Shrinks lexer whole (Lexer.getFunction dcl lexer name rest last).1 := by
  unfold Lexer.getFunction
  split
  · rename_i arguments
    have bound := length_readArguments arguments 1 lexer.value
    simp only [List.length_cons] at shorter
    generalize Lexer.readArguments arguments 1 lexer.value = read at bound ⊢
    obtain ⟨braces, value, after⟩ := read
    simp only at bound ⊢
    split
    · refine ⟨?_, by simp only; omega⟩
      unfold size
      simp only
      split <;> omega
    · refine ⟨?_, by simp only; omega⟩
      unfold size
      simp only [if_true]
      omega
  · simp only [List.length_cons] at shorter
    exact shrinks_plain rfl (by simp only; omega)
  · exact shrinks_plain rfl (Nat.zero_le _)

theorem getTokenFrom_shrinks (dcl : Dcl) (lexer : Lexer) (c : Char)
    (rest : Str) :
    Shrinks lexer rest (Lexer.getTokenFrom dcl lexer c rest).1 := by
  unfold Lexer.getTokenFrom
  split
  case h_16 =>
    split
    · rename_i digit
      have parts := congrArg List.length (List.takeWhile_append_dropWhile
        (p := Lexer.isNumberChar) (l := c :: rest))
      have input := List.length_dropWhile_le Lexer.isNumberChar rest
      rw [← List.dropWhile_cons_of_pos (a := c) digit] at input
      simp only [List.length_append, List.length_cons] at parts
      refine ⟨?_, input⟩
      unfold size
      simp only [List.length_append, reduceCtorEq, if_false]
      omega
    · split
      · have bound := length_readQuoted c rest
        split
        · rename_i text after read
          rw [read] at bound
          simp only [Option.getD_some] at bound
          refine ⟨?_, by simp only; omega⟩
          unfold size
          simp only [List.length_append]
          split <;> omega
        · rename_i text read
          rw [read] at bound
          simp only [Option.getD_none, List.length_nil] at bound
          refine ⟨?_, Nat.zero_le _⟩
          unfold size
          simp only [List.length_append, List.length_nil]
          split <;> omega
      · split
        · rename_i letter
          apply getFunction_shrinks
          rw [List.dropWhile_cons_of_pos
            (Grammar.isFunctionChar_of_startsName letter)]
          exact List.length_dropWhile_le _ _
        · exact shrinks_plain rfl (Nat.le_refl _)
  case h_15 =>
    exact shrinks_plain rfl (List.length_dropWhile_le _ _)
  case h_9 =>
    split
    · exact shrinks_plain rfl (Nat.zero_le _)
    all_goals exact shrinks_plain rfl (by simp)
  case h_10 =>
    split <;> exact shrinks_plain rfl (by simp)
  case h_11 =>
    split <;> exact shrinks_plain rfl (by simp)
  all_goals exact shrinks_plain rfl (Nat.le_refl _)

/-- Reading a token from a lexer that is not at the end. -/
theorem getToken_shrinks (dcl : Dcl) {lexer : Lexer}
    (other : lexer.type ≠ .end) :
    size (lexer.getToken dcl).1 ≤
        lexer.value.length + lexer.input.length ∧
      weight (lexer.getToken dcl).1 < weight lexer := by
  have shorter := List.length_dropWhile_le
    (fun c => c != '\n' && isSpace c) lexer.input
  have heavy : weight lexer = lexer.input.length + 1 := by
    unfold weight
    rw [if_neg other]
  unfold Lexer.getToken
  rw [heavy]
  split
  · unfold size weight
    simp only [List.length_nil, reduceCtorEq, if_false, if_true]
    omega
  · rename_i c rest left
    rw [left, List.length_cons] at shorter
    obtain ⟨small, input⟩ := getTokenFrom_shrinks dcl lexer c rest
    refine ⟨by omega, ?_⟩
    unfold weight
    split <;> omega

end Lexing

section Parsing

variable {W : Type} {outside : Outside W}

/-- A run that does not run out of its budget and does not enlarge the
lexer. -/
structure Fits (small light : Nat) {α : Type}
    (run : Run (St W × Lexer) Exc Char α) : Prop where
  ends : run.outcome ≠ .halt .timeout
  bounded : size run.state.2 ≤ small
  lighter : weight run.state.2 ≤ light

/-- A program all of whose runs from a lexer of that size do. -/
def Tame (small light : Nat) {α : Type} (program : P W α) : Prop :=
  ∀ memory lexer, size lexer ≤ small → weight lexer ≤ light →
    Fits small light (program (memory, lexer))

variable {small light : Nat}

theorem Fits.mono {α : Type} {run : Run (St W × Lexer) Exc Char α}
    {large heavy : Nat} (fits : Fits small light run) (more : small ≤ large)
    (later : light ≤ heavy) : Fits large heavy run := by
  constructor
  · exact fits.ends
  · exact Nat.le_trans fits.bounded more
  · exact Nat.le_trans fits.lighter later

theorem Fits.bind {α β : Type} {first : P W α} {next : α → P W β}
    {state : St W × Lexer} (fits : Fits small light (first state))
    (rest : ∀ result, Tame small light (next result)) :
    Fits small light ((first >>= next) state) := by
  obtain ⟨ends, size, weight⟩ := fits
  cases ran : first state with
  | mk middle out outcome =>
      rw [ran] at ends size weight
      cases outcome with
      | value result =>
          obtain ⟨ends, size, weight⟩ :=
            rest result middle.1 middle.2 size weight
          rw [Prog.bind_eq ran]
          exact ⟨ends, size, weight⟩
      | error exception =>
          rw [Prog.bind_error ran]
          exact ⟨nofun, size, weight⟩
      | halt reason =>
          rw [Prog.bind_halt ran]
          refine ⟨?_, size, weight⟩
          intro same
          cases same
          exact ends rfl

theorem Fits.tryCatch {α : Type} {body : P W α} {handler : Exc → P W α}
    {state : St W × Lexer} (fits : Fits small light (body state))
    (handled : ∀ exception, Tame small light (handler exception)) :
    Fits small light (body.tryCatch handler state) := by
  obtain ⟨ends, size, weight⟩ := fits
  cases ran : body state with
  | mk middle out outcome =>
      rw [ran] at ends size weight
      cases outcome with
      | value result =>
          rw [Prog.tryCatch_eq ran]
          exact ⟨nofun, size, weight⟩
      | error exception =>
          obtain ⟨ends, size, weight⟩ :=
            handled exception middle.1 middle.2 size weight
          rw [Prog.tryCatch_error ran]
          exact ⟨ends, size, weight⟩
      | halt reason =>
          rw [Prog.tryCatch_halt ran]
          exact ⟨ends, size, weight⟩

/-- A program that does not touch the lexer. -/
theorem Tame.still {α : Type} {program : P W α}
    (ends : ∀ state, (program state).outcome ≠ .halt .timeout)
    (same : ∀ state, (program state).state.2 = state.2) :
    Tame small light program := by
  intro memory lexer size weight
  constructor
  · exact ends _
  · rw [same]
    exact size
  · rw [same]
    exact weight

theorem pure_tame {α : Type} (result : α) :
    Tame small light (pure result : P W α) :=
  Tame.still (fun _ => nofun) fun _ => rfl

theorem number_tame (text : Str) :
    Tame small light (number outside text) := by
  unfold number
  cases outside.dcl.fromStringDouble text with
  | none => exact Tame.still (fun _ => nofun) fun _ => rfl
  | some x => exact Tame.still (fun _ => nofun) fun _ => rfl

theorem convertException_tame {α : Type} (exception : Exc) :
    Tame small light (convertException outside exception : P W α) := by
  unfold convertException
  split
  · exact Tame.still (fun _ => nofun) fun _ => rfl
  · exact Tame.still (fun _ => nofun) fun _ => rfl

theorem operands_tame {operand : P W Str}
    (tame : Tame small light operand) (left : Str) :
    Tame small light (operands outside left operand) := by
  intro memory lexer size weight
  unfold operands
  split
  · apply (number_tame left memory lexer size weight).bind
    intro _ memory lexer size weight
    apply (tame memory lexer size weight).bind
    intro text memory lexer size weight
    apply (number_tame text memory lexer size weight).bind
    intro _
    exact pure_tame _
  · apply (tame memory lexer size weight).bind
    intro text memory lexer size weight
    apply (number_tame text memory lexer size weight).bind
    intro _ memory lexer size weight
    apply (number_tame left memory lexer size weight).bind
    intro _
    exact pure_tame _

/-- After a token there is less to read. -/
theorem getToken_fits {lexer : Lexer} (memory : St W)
    (other : lexer.type ≠ .end)
    (within : lexer.value.length + lexer.input.length ≤ small)
    (weight' : weight lexer ≤ light + 1) :
    Fits small light (getToken outside (memory, lexer)) := by
  obtain ⟨smaller, lighter⟩ := getToken_shrinks outside.dcl other
  constructor
  · intro same
    unfold getToken Prog.act at same
    simp only at same
    split at same
    · cases same
    · cases same
  · unfold getToken Prog.act
    simp only
    split
    · rename_i next read
      rw [read] at smaller
      exact Nat.le_trans smaller within
    · rename_i next exception read
      rw [read] at smaller
      exact Nat.le_trans smaller within
  · unfold getToken Prog.act
    simp only
    split
    · rename_i next read
      rw [read] at lighter
      simp only at lighter ⊢
      omega
    · rename_i next exception read
      rw [read] at lighter
      simp only at lighter ⊢
      omega

/-- A lexer that is not at the end has at least one token. -/
theorem exists_light {lexer : Lexer} (other : lexer.type ≠ .end)
    (bound : weight lexer ≤ light) : ∃ less, light = less + 1 := by
  have heavy : weight lexer = lexer.input.length + 1 := by
    unfold weight
    rw [if_neg other]
  exact ⟨light - 1, by omega⟩

/-- A token, and then a program with less to read. -/
theorem Fits.read {β : Type} {next : Unit → P W β} {lexer : Lexer}
    (memory : St W) (other : lexer.type ≠ .end) (size : size lexer ≤ small)
    (weight : weight lexer ≤ light + 1)
    (rest : Tame small light (next ())) :
    Fits small light ((getToken outside >>= next) (memory, lexer)) := by
  have within : lexer.value.length + lexer.input.length ≤ small := by
    unfold Evaluator.size at size
    omega
  apply (getToken_fits memory other within weight).bind
  intro _
  exact rest

theorem binary_fits {operand : P W Str} (tame : Tame small light operand)
    (left : Str)
    (operation : outside.dcl.Double → outside.dcl.Double →
      outside.dcl.Double)
    {lexer : Lexer} (memory : St W) (other : lexer.type ≠ .end)
    (size : size lexer ≤ small) (weight : weight lexer ≤ light + 1) :
    Fits small light (binary outside operand left operation
      (memory, lexer)) := by
  apply Fits.read memory other size weight
  intro memory lexer size weight
  apply (operands_tame tame left memory lexer size weight).bind
  intro _
  exact pure_tame _

section Loops

variable {budget : Nat} {operand : P W Str}
  (tame : ∀ light, light < budget → Tame small light operand)

include tame

/-- One round of a loop over operators. -/
theorem round_fits {loop : Str → P W Str} {loops : Nat}
    (bound : loops < budget)
    (induction : ∀ left light, light < loops → Tame small light (loop left))
    (left : Str)
    (operation : outside.dcl.Double → outside.dcl.Double →
      outside.dcl.Double)
    {lexer : Lexer} (memory : St W) (enough : light < loops + 1)
    (other : lexer.type ≠ .end) (size : size lexer ≤ small)
    (weight : weight lexer ≤ light) :
    Fits small light
      ((binary outside operand left operation >>= loop)
        (memory, lexer)) := by
  obtain ⟨less, rfl⟩ := exists_light other weight
  have first := binary_fits (tame less (by omega)) left operation memory other
    size weight
  have whole := first.bind fun result => induction result less (by omega)
  exact whole.mono (Nat.le_refl small) (Nat.le_succ less)

theorem termLoop_tame {loops : Nat} (bound : loops ≤ budget) (left : Str)
    (enough : light < loops) :
    Tame small light (termLoop outside operand loops left) := by
  induction loops generalizing left light with
  | zero => exact absurd enough (Nat.not_lt_zero light)
  | succ loops induction =>
      intro memory lexer size weight
      obtain ⟨input, type, name, value⟩ := lexer
      have step (operation : outside.dcl.Double → outside.dcl.Double →
          outside.dcl.Double) (other : type ≠ .end) :=
        round_fits tame bound
          (fun left light enough => induction (by omega) left enough) left
          operation memory enough other size weight
      have ends := pure_tame left memory _ size weight
      cases type with
      | mul => exact step _ nofun
      | div => exact step _ nofun
      | mod => exact step _ nofun
      | pwr => exact step _ nofun
      | _ => exact ends

theorem exprLoop_tame {loops : Nat} (bound : loops ≤ budget) (left : Str)
    (enough : light < loops) :
    Tame small light (exprLoop outside operand loops left) := by
  induction loops generalizing left light with
  | zero => exact absurd enough (Nat.not_lt_zero light)
  | succ loops induction =>
      intro memory lexer size weight
      obtain ⟨input, type, name, value⟩ := lexer
      have step (operation : outside.dcl.Double → outside.dcl.Double →
          outside.dcl.Double) (other : type ≠ .end) :=
        round_fits tame bound
          (fun left light enough => induction (by omega) left enough) left
          operation memory enough other size weight
      have ends := pure_tame left memory _ size weight
      cases type with
      | plus => exact step _ nofun
      | minus => exact step _ nofun
      | _ => exact ends

theorem term_tame (enough : light < budget) :
    Tame small light (term outside operand budget) := by
  intro memory lexer size weight
  apply (tame light enough memory lexer size weight).bind
  intro left memory lexer size weight
  apply (termLoop_tame tame (Nat.le_refl budget) left enough memory lexer size
    weight).tryCatch
  exact convertException_tame

theorem expr_tame (enough : light < budget) :
    Tame small light (expr outside operand budget) := by
  intro memory lexer size weight
  apply (tame light enough memory lexer size weight).bind
  intro left memory lexer size weight
  apply (exprLoop_tame tame (Nat.le_refl budget) left enough memory lexer size
    weight).tryCatch
  exact convertException_tame

end Loops

theorem compareWith_fits {operand : P W Str} (tame : Tame small light operand)
    (left : Str) (numbers : outside.dcl.Double → outside.dcl.Double → Bool)
    (strings : Str → Str → Bool) {lexer : Lexer} (memory : St W)
    (other : lexer.type ≠ .end) (size : size lexer ≤ small)
    (weight : weight lexer ≤ light) :
    Fits small light
      (compareWith outside operand left numbers strings
        (memory, lexer)) := by
  apply Fits.read memory other size (Nat.le_succ_of_le weight)
  intro memory lexer size weight
  apply Fits.tryCatch
  · apply (operands_tame tame left memory lexer size weight).bind
    intro _
    exact pure_tame _
  · intro _ memory lexer size weight
    apply (tame memory lexer size weight).bind
    intro _
    exact pure_tame _

theorem lexpr_tame {operand : P W Str} (tame : Tame small light operand) :
    Tame small light (lexpr outside operand) := by
  intro memory lexer size weight
  rw [lexpr_eq]
  apply (tame memory lexer size weight).bind
  intro left memory lexer size weight
  obtain ⟨input, type, name, value⟩ := lexer
  have compared (numbers : outside.dcl.Double → outside.dcl.Double → Bool)
      (strings : Str → Str → Bool) (other : type ≠ .end) :=
    compareWith_fits tame left numbers strings memory other size weight
  have right : Tame small light
      (operand >>= fun text => pure (truth (text == "1".toList))) := by
    intro memory lexer size weight
    apply (tame memory lexer size weight).bind
    intro _
    exact pure_tame _
  have ends := pure_tame left memory _ size weight
  cases type with
  | lt => exact compared outside.dcl.lt (fun l r => decide (l < r)) nofun
  | gt =>
      exact compared (fun l r => outside.dcl.lt r l)
        (fun l r => decide (r < l)) nofun
  | eq => exact compared outside.dcl.eq (fun l r => l == r) nofun
  | ltEq =>
      exact compared outside.dcl.le (fun l r => !decide (r < l)) nofun
  | gtEq =>
      exact compared (fun l r => outside.dcl.le r l)
        (fun l r => !decide (l < r)) nofun
  | notEq =>
      exact compared (fun l r => !outside.dcl.eq l r) (fun l r => l != r)
        nofun
  | and =>
      have other : (Lexer.mk input .and name value).type ≠ .end := nofun
      apply Fits.read memory other size (Nat.le_succ_of_le weight)
      intro memory lexer size weight
      split
      · exact right memory lexer size weight
      · exact pure_tame _ memory lexer size weight
  | or =>
      have other : (Lexer.mk input .or name value).type ≠ .end := nofun
      apply Fits.read memory other size (Nat.le_succ_of_le weight)
      intro memory lexer size weight
      split
      · exact pure_tame _ memory lexer size weight
      · exact right memory lexer size weight
  | _ => exact ends

/-- The end of a parenthesised expression. -/
theorem closing_tame (inner : Str) :
    Tame small light
      (do if (← tokenType) == TokenType.rp then
            getToken outside
            pure inner
          else
            Prog.throw (outside.dcl.exception
              "invalid expression: \")\" expected" [])) := by
  intro memory lexer bounded lighter
  have looked : tokenType (memory, lexer) =
      ⟨(memory, lexer), [], .value lexer.type⟩ := rfl
  rw [Prog.bind_silent looked]
  split
  · rename_i closed
    have other : lexer.type ≠ .end := by
      rw [beq_iff_eq.mp closed]
      exact nofun
    apply Fits.read memory other bounded (Nat.le_succ_of_le lighter)
    exact pure_tame inner
  · exact ⟨nofun, bounded, lighter⟩

variable {function : Str → Str → M W Str}
  (ends : ∀ name params, params.length < small →
    Prog.Ends (function name params))

include ends

/-- A function is called with less than the text it is called in. -/
theorem func_fits {lexer : Lexer} (memory : St W) (called : lexer.type = .func)
    (size' : size lexer ≤ small) (weight' : weight lexer ≤ light + 1) :
    Fits small light
      ((do
        getToken outside
        let lexer ← Prog.read Prod.snd
        let result ← Prog.lift (function lexer.name lexer.value)
        Prog.modify fun state => (state.1, { state.2 with value := [] })
        pure result : P W Str) (memory, lexer)) := by
  have other : lexer.type ≠ .end := by
    rw [called]
    exact nofun
  have plain : lexer.value.length + lexer.input.length + 1 ≤ small := by
    unfold size at size'
    rw [if_pos called] at size'
    exact size'
  have read : Fits (small - 1) light (getToken outside (memory, lexer)) :=
    getToken_fits memory other (by omega) weight'
  have whole : Fits (small - 1) light
      ((getToken outside >>= fun _ => do
        let lexer ← Prog.read Prod.snd
        let result ← Prog.lift (function lexer.name lexer.value)
        Prog.modify fun state => (state.1, { state.2 with value := [] })
        pure result) (memory, lexer)) := by
    apply read.bind
    intro _ memory lexer bounded lighter
    have shorter : lexer.value.length < small := by
      unfold size at bounded
      omega
    have looked : (Prog.read Prod.snd : P W Lexer) (memory, lexer) =
        ⟨(memory, lexer), [], .value lexer⟩ := rfl
    have lifted : Fits (small - 1) light
        ((Prog.lift (function lexer.name lexer.value) : P W Str)
          (memory, lexer)) :=
      ⟨ends lexer.name lexer.value shorter memory, bounded, lighter⟩
    rw [Prog.bind_silent looked]
    apply lifted.bind
    intro result memory lexer bounded lighter
    exact ⟨nofun, Nat.le_trans (size_clear lexer) bounded, lighter⟩
  exact whole.mono (Nat.sub_le small 1) (Nat.le_refl light)

theorem prim_tame (budget : Nat) (enough : light < budget) :
    Tame small light (prim outside function budget) := by
  induction budget generalizing light with
  | zero => exact absurd enough (Nat.not_lt_zero light)
  | succ budget induction =>
      intro memory lexer size' weight'
      obtain ⟨input, type, name, value⟩ := lexer
      have inner (light : Nat) (enough : light < budget) :
          Tame small light (prim outside function budget) :=
        induction enough
      cases type with
      | «end» => exact pure_tame _ memory _ size' weight'
      | func =>
          exact func_fits ends memory rfl size' (Nat.le_succ_of_le weight')
      | number =>
          have other : (Lexer.mk input .number name value).type ≠ .end := nofun
          apply Fits.read memory other size' (Nat.le_succ_of_le weight')
          intro memory lexer bounded lighter
          exact ⟨nofun, Nat.le_trans (size_clear lexer) bounded, lighter⟩
      | name =>
          have other : (Lexer.mk input .name name value).type ≠ .end := nofun
          apply Fits.read memory other size' (Nat.le_succ_of_le weight')
          intro memory lexer bounded lighter
          exact ⟨nofun, bounded, lighter⟩
      | minus =>
          have other : (Lexer.mk input .minus name value).type ≠ .end := nofun
          obtain ⟨less, rfl⟩ := exists_light other weight'
          have read : Fits small less
              ((getToken outside >>= fun _ => Prog.tryCatch
                (do
                  let operand ← number outside
                    (← prim outside function budget)
                  pure (outside.dcl.toStringDouble
                    (outside.dcl.negate operand)))
                (convertException outside))
                (memory, ⟨input, .minus, name, value⟩)) := by
            apply Fits.read memory other size' weight'
            intro memory lexer bounded lighter
            apply Fits.tryCatch
            · apply (inner less (by omega) memory lexer bounded lighter).bind
              intro text memory lexer bounded lighter
              apply (number_tame text memory lexer bounded lighter).bind
              intro _
              exact pure_tame _
            · exact convertException_tame
          exact read.mono (Nat.le_refl small) (Nat.le_succ less)
      | not =>
          have other : (Lexer.mk input .not name value).type ≠ .end := nofun
          obtain ⟨less, rfl⟩ := exists_light other weight'
          have read : Fits small less
              ((getToken outside >>= fun _ => do
                let text ← prim outside function budget
                pure (truth (text != "1".toList)))
                (memory, ⟨input, .not, name, value⟩)) := by
            apply Fits.read memory other size' weight'
            intro memory lexer bounded lighter
            apply (inner less (by omega) memory lexer bounded lighter).bind
            intro _
            exact pure_tame _
          exact read.mono (Nat.le_refl small) (Nat.le_succ less)
      | lp =>
          have other : (Lexer.mk input .lp name value).type ≠ .end := nofun
          obtain ⟨less, rfl⟩ := exists_light other weight'
          have read : Fits small less
              ((getToken outside >>= fun _ => do
                let inner ← lexpr outside
                  (expr outside
                    (term outside (prim outside function budget) budget)
                    budget)
                if (← tokenType) == TokenType.rp then
                  getToken outside
                  pure inner
                else
                  Prog.throw (outside.dcl.exception
                    "invalid expression: \")\" expected" []))
                (memory, ⟨input, .lp, name, value⟩)) := by
            apply Fits.read memory other size' weight'
            intro memory lexer bounded lighter
            have operand : Tame small less
                (expr outside
                  (term outside (prim outside function budget) budget)
                  budget) := by
              apply expr_tame _ (by omega)
              intro light enough
              exact term_tame inner enough
            apply (lexpr_tame operand memory lexer bounded lighter).bind
            exact closing_tame
          exact read.mono (Nat.le_refl small) (Nat.le_succ less)
      | _ => exact ⟨nofun, size', weight'⟩

omit ends in
/-- The first token of a text. -/
theorem first_fits (text : Str) (memory : St W) :
    Fits text.length text.length
      (getToken outside (memory, ⟨text, outside.rawToken, [], []⟩)) := by
  have shorter := List.length_dropWhile_le
    (fun c => c != '\n' && isSpace c) text
  have read : size (Lexer.getToken outside.dcl
        ⟨text, outside.rawToken, [], []⟩).1 ≤ text.length ∧
      weight (Lexer.getToken outside.dcl
        ⟨text, outside.rawToken, [], []⟩).1 ≤ text.length := by
    unfold Lexer.getToken
    split
    · simp [size, weight]
    · rename_i c rest left
      simp only at left
      rw [left, List.length_cons] at shorter
      obtain ⟨small, input⟩ := getTokenFrom_shrinks outside.dcl
        ⟨text, outside.rawToken, [], []⟩ c rest
      simp only [List.length_nil, Nat.zero_add] at small
      refine ⟨by omega, ?_⟩
      unfold weight
      split <;> omega
  unfold getToken Prog.act
  simp only
  generalize Lexer.getToken outside.dcl ⟨text, outside.rawToken, [], []⟩ =
    result at read
  obtain ⟨next, exception⟩ := result
  cases exception with
  | none => exact ⟨nofun, read.1, read.2⟩
  | some exception => exact ⟨nofun, read.1, read.2⟩

end Parsing

/-- `calc` ends if the functions it may call do. -/
theorem calculate_ends {W : Type} {outside : Outside W}
    {function : Str → Str → M W Str} {text : Str}
    (ends : ∀ name params, params.length < text.length →
      Prog.Ends (function name params)) :
    Prog.Ends (calculate outside function text) := by
  intro memory
  have whole : Fits text.length text.length
      (calculation outside function (text.length + 2)
        (memory, ⟨text, outside.rawToken, [], []⟩)) := by
    apply (first_fits text memory).bind
    intro _ memory lexer bounded lighter
    have looked : tokenType (memory, lexer) =
        ⟨(memory, lexer), [], .value lexer.type⟩ := rfl
    rw [Prog.bind_silent looked]
    split
    · exact ⟨nofun, bounded, lighter⟩
    · have prims (light : Nat) (enough : light < text.length + 2) :
          Tame text.length light
            (prim outside function (text.length + 2)) :=
        prim_tame ends (text.length + 2) enough
      have operand : Tame text.length text.length
          (expr outside
            (term outside (prim outside function (text.length + 2))
              (text.length + 2)) (text.length + 2)) := by
        apply expr_tame _ (by omega)
        intro light enough
        exact term_tame prims enough
      exact lexpr_tame operand memory lexer bounded lighter
  exact whole.ends

section Templates

variable {W : Type} {outside : Outside W} {function : Str → Str → M W Str}

/-- A brace group is shorter than the text it stands in: neither of its
braces belongs to it. -/
theorem evalLoop_ends {inner : Str → M W Str} (bound : Nat)
    (closed : ∀ group, group.length + 2 ≤ bound →
      Prog.Ends (inner group >>= calculate outside function))
    (text : Str) (prev : Char) (count : Int) (group out : Str)
    (within : group.length + text.length + (if 1 ≤ count then 1 else 0) ≤
      bound) :
    Prog.Ends (evalLoop outside function inner text prev count group out) := by
  induction text generalizing prev count group out with
  | nil =>
      unfold evalLoop
      split
      · exact .throw _
      · exact .pure _
  | cons c rest induction =>
      simp only [List.length_cons] at within
      unfold evalLoop
      split
      · exact induction _ _ _ _ (by omega)
      · split
        · exact induction _ _ _ _ (by omega)
        · split
          · apply induction
            split
            · simp only [List.length_append, List.length_cons, List.length_nil]
              split at within <;> split <;> omega
            · split at within <;> split <;> omega
          · split
            · split
              · rename_i closing
                rw [if_pos (by omega)] at within
                have value := closed group (by omega)
                have whole := value.bind fun value => induction c 0 []
                  (out ++ value) (by simp only [List.length_nil]; split <;> omega)
                rw [Prog.bind_assoc] at whole
                exact whole
              · apply induction
                simp only [List.length_append, List.length_cons,
                  List.length_nil]
                split at within <;> split <;> omega
            · split
              · apply induction
                simp only [List.length_append, List.length_cons,
                  List.length_nil]
                split at within <;> split <;> omega
              · exact induction _ _ _ _ (by omega)

theorem evaluate_ends
    (calcEnds : ∀ text, Prog.Ends (calculate outside function text))
    (text : Str) : Prog.Ends (evaluate outside function text) := by
  have eval_ends (budget : Nat) (text : Str) (enough : text.length < budget) :
      Prog.Ends (eval outside function budget text) := by
    induction budget generalizing text with
    | zero => exact absurd enough (Nat.not_lt_zero _)
    | succ budget induction =>
        apply evalLoop_ends text.length
        · intro group shorter
          exact (induction group (by omega)).bind calcEnds
        · simp
  exact eval_ends (text.length + 1) text (Nat.lt_succ_self _)

/-- A brace group is closed in the text. -/
def closesGroup : Str → Char → Int → Bool
  | [], _, _ => false
  | c :: rest, prev, count =>
      if prev == '\\' then closesGroup rest c count
      else if c == '\\' then closesGroup rest c count
      else if c == '\x7b' then closesGroup rest c (count + 1)
      else if c == '\x7d' then
        if count - 1 = 0 then true else closesGroup rest c (count - 1)
      else closesGroup rest c count

/-- Where no group is closed the text is handed on, without what escapes it,
or its braces are unbalanced. -/
theorem evalLoop_opened {inner : Str → M W Str} {text : Str} {prev : Char}
    {count : Int} (opened : closesGroup text prev count = false)
    (group out : Str) (state : St W) :
    (∃ result, evalLoop outside function inner text prev count group out
        state = ⟨state, [], .value result⟩ ∧
      result.length ≤ out.length + text.length) ∨
    ∃ exception, evalLoop outside function inner text prev count group out
      state = ⟨state, [], .error exception⟩ := by
  induction text generalizing prev count group out with
  | nil =>
      unfold evalLoop
      split
      · exact .inr ⟨_, rfl⟩
      · exact .inl ⟨out, rfl, Nat.le_refl _⟩
  | cons c rest induction =>
      have step {count : Int} (opened : closesGroup rest c count = false)
          (group : Str) {written : Str}
          (short : written.length ≤ out.length + 1) :
          (∃ result, evalLoop outside function inner rest c count group written
              state = ⟨state, [], .value result⟩ ∧
            result.length ≤ out.length + (rest.length + 1)) ∨
          ∃ exception, evalLoop outside function inner rest c count group
            written state = ⟨state, [], .error exception⟩ := by
        rcases induction opened group written with ⟨result, ran, bounded⟩ |
          raised
        · exact .inl ⟨result, ran, by omega⟩
        · exact .inr raised
      have added : (out ++ [c]).length ≤ out.length + 1 := by simp
      have kept : out.length ≤ out.length + 1 := Nat.le_succ _
      unfold closesGroup at opened
      unfold evalLoop
      split
      · rw [if_pos ‹_›] at opened
        exact step opened _ added
      rw [if_neg ‹_›] at opened
      split
      · rw [if_pos ‹_›] at opened
        exact step opened _ kept
      rw [if_neg ‹_›] at opened
      split
      · rw [if_pos ‹_›] at opened
        exact step opened _ kept
      rw [if_neg ‹_›] at opened
      split
      · rw [if_pos ‹_›] at opened
        split
        · rw [if_pos ‹_›] at opened
          cases opened
        · rw [if_neg ‹_›] at opened
          exact step opened _ kept
      · rw [if_neg ‹_›] at opened
        split
        · exact step opened _ kept
        · exact step opened _ added

variable (outside function)

/-- The evaluation of a text inside the argument of a function that stops
before it computes a group into which the value of another has been put. -/
def argumentEval : Nat → Str → M W Str
  | 0, _ => Prog.halt .timeout
  | budget + 1, text =>
      evalLoop outside function
        (fun group => do
          let result ← argumentEval budget group
          if closesGroup group (Char.ofNat 0) 0 then Prog.halt .fault
          else pure result)
        text (Char.ofNat 0) 0 [] []

def evaluateArgument (text : Str) : M W Str :=
  argumentEval outside function (text.length + 1) text

variable {outside function}

/-- In an argument nothing is computed that is longer than its groups. -/
theorem argumentEval_ends (bound : Nat)
    (calcEnds : ∀ text, text.length + 2 ≤ bound →
      Prog.Ends (calculate outside function text))
    {budget : Nat} {text : Str} (enough : text.length < budget)
    (within : text.length ≤ bound) :
    Prog.Ends (argumentEval outside function budget text) := by
  induction budget generalizing text with
  | zero => exact absurd enough (Nat.not_lt_zero _)
  | succ budget induction =>
      apply evalLoop_ends text.length
      · intro group shorter
        have inner := @induction group (by omega) (by omega)
        cases closes : closesGroup group (Char.ofNat 0) 0 with
        | true =>
            simp only [if_true]
            rw [Prog.bind_assoc]
            exact inner.bind fun _ => .fault
        | false =>
            simp only [Bool.false_eq_true, if_false]
            obtain ⟨less, rfl⟩ : ∃ less, budget = less + 1 :=
              ⟨budget - 1, by omega⟩
            intro state
            rcases evalLoop_opened closes [] [] state with
              ⟨result, ran, short⟩ | ⟨exception, ran⟩
            · rw [Prog.bind_silent (Prog.bind_silent ran _)]
              apply calcEnds
              simp only [List.length_nil, Nat.zero_add] at short
              omega
            · have raised : argumentEval outside function (less + 1) group
                  state = ⟨state, [], .error exception⟩ := ran
              rw [Prog.bind_error (Prog.bind_error raised _)]
              exact nofun
      · simp

/-- The guarded evaluation of an argument stops or is the evaluation. -/
theorem argumentEval_tends {stop : Halt → Prop} (stops : stop .fault)
    {functions : Nat → Str → Str → M W Str}
    (tends : ∀ name params, Prog.Tends stop
      (fun bound => functions bound name params) (function name params))
    (budget : Nat) (text : Str) :
    Prog.Tends stop (fun bound => eval outside (functions bound) budget text)
      (argumentEval outside function budget text) := by
  induction budget generalizing text with
  | zero => exact .refl _
  | succ budget induction =>
      apply evalLoop_tends outside tends
      intro group
      exact (induction group).check stops _

end Templates

end Evaluator

namespace Function

variable {W : Type} {outside : Outside W}

/-- The operating system's part of the built-in functions returns. -/
structure Returns (api : FunctionApi W) : Prop where
  uuid : ∀ world, (api.uuid world).2 ≠ .halt .timeout
  rand : ∀ world, (api.rand world).2 ≠ .halt .timeout
  time : ∀ world, (api.time world).2 ≠ .halt .timeout
  getenv : ∀ name world, (api.getenv name world).2 ≠ .halt .timeout

theorem io_ends {α : Type} {operation : Io W α}
    (returns : ∀ world, (operation world).2 ≠ .halt .timeout) :
    Prog.Ends (M.io operation) :=
  fun state => returns state.world

variable {evaluate : List Tag → Str → M W Str} {self : Loc}

theorem closed_ends (returns : Returns outside.functions) :
    Closed outside.functions (fun program => Prog.Ends program) where
  pure := Prog.Ends.pure
  bind := Prog.Ends.bind
  throw := Prog.Ends.throw
  fault := Prog.Ends.fault
  emit := Prog.Ends.emit
  uuid := io_ends returns.uuid
  rand := io_ends returns.rand
  time := io_ends returns.time
  getenv := fun name => io_ends (returns.getenv name)
  locale := fun _ => nofun
  domain := fun _ => nofun

/-- A built-in function ends if its arguments do. -/
theorem execute_ends (returns : Returns outside.functions)
    (ends : ∀ param, param ∈ self.tag.params →
      Prog.Ends ((quiet outside evaluate).executeParam self param.2))
    (builtin : Builtin) :
    Prog.Ends (execute (quiet outside evaluate) self builtin) :=
  Closed.execute (closed_ends returns) ends builtin

end Function

namespace Evaluator

variable {W : Type} (outside : Outside W)

/-- A call of a built-in function whose arguments, and the arguments of the
calls they make, are evaluated with the guard. -/
def plainCall : Nat → List Tag → Str → Str → M W Str
  | 0, _, _, _ => Prog.halt .timeout
  | depth + 1, scope, name, params =>
      if name.head? == some '@' then Prog.halt .fault
      else
        executeFunction outside
          (fun self _ =>
            match self.tag.kind with
            | .function builtin =>
                Function.execute
                  (Function.quiet outside fun scope text =>
                    evaluateArgument outside (plainCall depth scope) text)
                  self builtin
            | _ => Prog.halt .fault)
          scope name params

/-- The same, as deep as the arguments require. -/
def plainFunction (scope : List Tag) (name params : Str) : M W Str :=
  plainCall outside (params.length + 1) scope name params

/-- The evaluation of a template calls only built-in functions, and computes
nothing in their arguments into which the value of a group has been put. -/
def Plain (scope : List Tag) (text : Str) (state : St W) : Prop :=
  (evaluate outside (plainFunction outside scope) text state).outcome ≠
    .halt .fault

/-- The tag that is created for a call of a built-in function. -/
def functionLoc (scope : List Tag) (builtin : Builtin) (params : Str) : Loc :=
  ⟨.mk 0 (.function builtin)
    (outside.mapOrder (functionParams outside.dcl params)) [] [], scope⟩

theorem executeFunction_builtin (run : Loc → Option Loc → M W Unit)
    (scope : List Tag) {c : Char} (builtIn : c ≠ '@') (name params : Str) :
    executeFunction outside run scope (c :: name) params =
      match Builtin.ofName (c :: name) with
      | some builtin =>
          (run (functionLoc outside scope builtin params) none).capture
      | none =>
          Prog.throw (outside.dcl.exception "unknown tag found (\x7b0\x7d)"
            ['@' :: c :: name]) := by
  unfold executeFunction
  split
  · contradiction
  · rename_i same
    cases same
    exact absurd rfl builtIn
  · rfl

/-- Functions called by the interpreter behave like plain calls, once the
bound on nested calls is large enough. -/
theorem plainCall_tends (depth : Nat) (scope : List Tag) (name params : Str) :
    Prog.Tends (fun _ => True)
      (fun bound => executeFunction outside (execute outside bound) scope name
        params)
      (plainCall outside depth scope name params) := by
  induction depth generalizing scope name params with
  | zero => exact .stopped trivial _
  | succ depth induction =>
      unfold plainCall
      split
      · exact .stopped trivial _
      · rename_i plain
        cases name with
        | nil => exact .refl _
        | cons c name =>
            have builtIn : c ≠ '@' := by
              rintro rfl
              simp at plain
            simp only [executeFunction_builtin outside _ scope builtIn]
            cases Builtin.ofName (c :: name) with
            | none => exact .refl _
            | some builtin =>
                apply Prog.Tends.capture
                apply Prog.Tends.shift
                have arguments (scope : List Tag) (text : Str) :
                    Prog.Tends (fun _ => True)
                      (fun bound => evaluate outside
                        (executeFunction outside (execute outside bound) scope)
                        text)
                      (evaluateArgument outside (plainCall outside depth scope)
                        text) :=
                  argumentEval_tends trivial (induction scope)
                    (text.length + 1) text
                have called := Function.execute_tends outside arguments
                  (functionLoc outside scope builtin params) builtin
                have same (bound : Nat) := Function.execute_quiet outside bound
                  (execute outside bound)
                  (fun scope text => evaluate outside
                    (executeFunction outside (execute outside bound) scope)
                    text)
                  (functionLoc outside scope builtin params) builtin
                simp only [← same] at called
                exact called

theorem mem_functionParams {scope : List Tag} {builtin : Builtin}
    {params : Str} {param : Str × Str}
    (member : param ∈ (functionLoc outside scope builtin params).tag.params) :
    ∃ argument, argument ∈ outside.dcl.tokens params ∧
      param.2 = setText ('\x7b' :: argument ++ ['\x7d']) := by
  have listed : param ∈ functionParams outside.dcl params :=
    (outside.mapOrder_perm _).mem_iff.mp member
  obtain ⟨index, inside, rfl⟩ := List.mem_mapIdx.mp listed
  exact ⟨_, List.getElem_mem inside, rfl⟩

variable {outside}

/-- A plain call ends, because its arguments are shorter than the text they
were taken from. -/
theorem plainCall_ends
    (infixes : ∀ params token, token ∈ outside.dcl.tokens params →
      token <:+: params)
    (returns : Function.Returns outside.functions) (depth : Nat)
    (scope : List Tag) (name params : Str) (enough : params.length < depth) :
    Prog.Ends (plainCall outside depth scope name params) := by
  induction depth generalizing scope name params with
  | zero => exact absurd enough (Nat.not_lt_zero _)
  | succ depth induction =>
      unfold plainCall
      split
      · exact .fault
      · rename_i plain
        cases name with
        | nil => exact .throw _
        | cons c name =>
            have builtIn : c ≠ '@' := by
              rintro rfl
              simp at plain
            rw [executeFunction_builtin outside _ scope builtIn]
            cases Builtin.ofName (c :: name) with
            | none => exact .throw _
            | some builtin =>
                apply Prog.Ends.capture
                apply Function.execute_ends returns
                intro param member
                obtain ⟨argument, listed, text⟩ :=
                  mem_functionParams outside member
                have part := (infixes params argument listed).length_le
                have shorter := length_setText
                  ('\x7b' :: argument ++ ['\x7d'])
                simp only [List.cons_append, List.length_cons,
                  List.length_append, List.length_nil] at shorter
                rw [text]
                apply argumentEval_ends (params.length + 2) _
                  (Nat.lt_succ_self _) (by simpa using by omega)
                intro text within
                apply calculate_ends
                intro name params' less
                exact induction _ name params' (by omega)

/-- A function that is as deep as its arguments require always ends. -/
theorem plainFunction_ends
    (infixes : ∀ params token, token ∈ outside.dcl.tokens params →
      token <:+: params)
    (returns : Function.Returns outside.functions) (scope : List Tag)
    (text : Str) :
    Prog.Ends (evaluate outside (plainFunction outside scope) text) := by
  apply evaluate_ends
  intro text
  apply calculate_ends
  intro name params _
  exact plainCall_ends infixes returns _ scope name params
    (Nat.lt_succ_self _)

/-- A template that calls only built-in functions, and computes nothing in
their arguments into which a value has been put, is evaluated to a string or
an exception. -/
theorem evaluate_terminates
    (infixes : ∀ params token, token ∈ outside.dcl.tokens params →
      token <:+: params)
    (returns : Function.Returns outside.functions) {scope : List Tag}
    {text : Str} {state : St W} (plain : Plain outside scope text state) :
    ∃ depth, ∀ bound, depth ≤ bound →
      ((Interp.ofRun outside bound (execute outside bound)).evaluate scope
        text state).outcome.Finished := by
  have tends := evaluate_tends outside
    (fun name params => plainCall_tends outside (params.length + 1) scope
      name params) text
  have ends := plainFunction_ends infixes returns scope text state
  unfold Plain at plain
  have finished : (evaluate outside (plainFunction outside scope) text
      state).outcome.Finished := by
    cases outcome : (evaluate outside (plainFunction outside scope) text
        state).outcome with
    | value result => trivial
    | error exception => trivial
    | halt reason =>
        rw [outcome] at plain ends
        cases reason with
        | timeout => exact absurd rfl ends
        | fault => exact absurd rfl plain
  rcases tends state with ⟨reason, _, halted⟩ | ⟨depth, same⟩
  · have stopped : (evaluate outside (plainFunction outside scope) text
        state).outcome = .halt reason := halted
    rw [stopped] at finished
    exact finished.elim
  · refine ⟨depth, ?_⟩
    intro bound large
    have run : (Interp.ofRun outside bound (execute outside bound)).evaluate
        scope text state =
        evaluate outside (plainFunction outside scope) text state :=
      same bound large
    rw [run]
    exact finished

/-- A client value that calls a function on itself, in an argument that is not
evaluated. -/
def unusedReference : St Unit :=
  .fresh [Context.newLocal.addValue "a".toList "iif(1,2,\x7b$a\x7d)".toList]

theorem evaluate_terminates_unused :
    ∃ depth, ∀ bound, depth ≤ bound →
      ((Interp.ofRun Outside.plain bound
        (execute Outside.plain bound)).evaluate []
          "\x7b\x7b$a\x7d\x7d".toList unusedReference).outcome.Finished := by
  apply evaluate_terminates
  · exact Dcl.plain_tokens_infix
  · constructor <;> intros <;> intro halted <;> cases halted
  · have ended : (evaluate Outside.plain (plainFunction Outside.plain [])
        "\x7b\x7b$a\x7d\x7d".toList unusedReference).outcome =
          .value "2".toList := by decide +kernel
    unfold Plain
    rw [ended]
    intro halted
    cases halted

/-- A client has sent the value `len({$expr})` for the variable `expr`. -/
def selfReference : St Unit :=
  .fresh [Context.newLocal.addValue "expr".toList "len(\x7b$expr\x7d)".toList]

theorem calculate_name (function : Str → Str → M Unit Str) :
    calculate Outside.plain function "$expr".toList selfReference =
      ⟨selfReference, [], .value "len(\x7b$expr\x7d)".toList⟩ := by
  rfl

/-- An expression that starts with a function halts where the function
halts. -/
theorem calculate_halts (function : Str → Str → M Unit Str)
    (halts : (function "len".toList "\x7b$expr\x7d".toList
      selfReference).outcome = .halt .timeout) :
    (calculate Outside.plain function "len(\x7b$expr\x7d)".toList
      selfReference).outcome = .halt .timeout := by
  let called : Lexer := ⟨[], .func, "len".toList, "\x7b$expr\x7d".toList⟩
  have primary (budget : Nat) :
      (prim Outside.plain function (budget + 1)
        (selfReference, called)).outcome = .halt .timeout := by
    have lifted : ((Prog.lift (function "len".toList "\x7b$expr\x7d".toList) :
        P Unit Str) (selfReference, { called with type := .end })).outcome =
        .halt .timeout := halts
    exact Prog.outcome_bind_halt lifted _
  have whole : (calculate Outside.plain function
      "len(\x7b$expr\x7d)".toList selfReference).outcome =
      (lexpr Outside.plain (expr Outside.plain (term Outside.plain
        (prim Outside.plain function 14) 14) 14)
        (selfReference, called)).outcome := rfl
  rw [whole]
  apply Prog.outcome_bind_halt
  apply Prog.outcome_bind_halt
  apply Prog.outcome_bind_halt
  exact primary 13

/-- The template `{{$expr}}` calculates the value of the variable. -/
theorem evaluate_selfReference (function : Str → Str → M Unit Str)
    (halts : (function "len".toList "\x7b$expr\x7d".toList
      selfReference).outcome = .halt .timeout) :
    (evaluate Outside.plain function "\x7b\x7b$expr\x7d\x7d".toList
      selfReference).outcome = .halt .timeout := by
  have value : eval Outside.plain function 9 "\x7b$expr\x7d".toList
      selfReference =
      ⟨selfReference, [], .value "len(\x7b$expr\x7d)".toList⟩ := by
    have name : eval Outside.plain function 8 "$expr".toList selfReference =
        ⟨selfReference, [], .value "$expr".toList⟩ := rfl
    have unfolded : eval Outside.plain function 9 "\x7b$expr\x7d".toList =
        (do
          let value ← calculate Outside.plain function
            (← eval Outside.plain function 8 "$expr".toList)
          evalLoop Outside.plain function (eval Outside.plain function 8) []
            '\x7d' 0 [] ([] ++ value)) := rfl
    rw [unfolded, Prog.bind_silent name,
      Prog.bind_silent (calculate_name function)]
    rfl
  have unfolded : evaluate Outside.plain function
      "\x7b\x7b$expr\x7d\x7d".toList =
      (do
        let value ← calculate Outside.plain function
          (← eval Outside.plain function 9 "\x7b$expr\x7d".toList)
        evalLoop Outside.plain function (eval Outside.plain function 9) []
          '\x7d' 0 [] ([] ++ value)) := rfl
  rw [unfolded, Prog.bind_silent value]
  exact Prog.outcome_bind_halt (calculate_halts function halts) _

/-- The argument of the function is the template again. -/
theorem executeFunction_selfReference (depth : Nat) (scope : List Tag) :
    (executeFunction Outside.plain (execute Outside.plain depth) scope
      "len".toList "\x7b$expr\x7d".toList selfReference).outcome =
        .halt .timeout := by
  have called (scope : List Tag) (run : Loc → Option Loc → M Unit Unit) :
      executeFunction Outside.plain run scope "len".toList
        "\x7b$expr\x7d".toList =
        (run (functionLoc Outside.plain scope .length
          "\x7b$expr\x7d".toList) none).capture := rfl
  rw [called]
  apply Prog.outcome_capture_halt
  induction depth generalizing scope with
  | zero => rfl
  | succ depth induction =>
      let self := functionLoc Outside.plain scope .length
        "\x7b$expr\x7d".toList
      let interp := Interp.ofRun Outside.plain depth
        (execute Outside.plain depth)
      have params : self.tag.params =
          [("arg1".toList, "\x7b\x7b$expr\x7d\x7d".toList)] := rfl
      have argument : (Function.first interp self selfReference).outcome =
          .halt .timeout := by
        unfold Function.first
        rw [params]
        apply evaluate_selfReference
        rw [called]
        exact Prog.outcome_capture_halt (induction _)
      have counted : Function.checkCount interp self 1 selfReference =
          ⟨selfReference, [], .value ()⟩ := by
        unfold Function.checkCount
        rw [params]
        rfl
      have unary (result : Str → M Unit Str) :
          (Function.unary interp self result selfReference).outcome =
            .halt .timeout := by
        unfold Function.unary
        rw [Prog.bind_silent counted]
        exact Prog.outcome_bind_halt argument _
      exact unary _

/-- A client value that calls a function on itself is evaluated for ever. -/
theorem evaluate_never_ends :
    ¬ ∃ depth, ((Interp.ofRun Outside.plain depth
      (execute Outside.plain depth)).evaluate []
        "\x7b\x7b$expr\x7d\x7d".toList selfReference).outcome.Finished := by
  apply not_exists.mpr
  intro depth
  have halted : ((Interp.ofRun Outside.plain depth
      (execute Outside.plain depth)).evaluate []
        "\x7b\x7b$expr\x7d\x7d".toList selfReference).outcome =
          .halt .timeout :=
    evaluate_selfReference _ (executeFunction_selfReference depth _)
  rw [halted]
  exact id

end Evaluator

end DbPager
