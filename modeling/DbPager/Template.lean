import DbPager.Interpreter
import Mathlib.Algebra.Order.BigOperators.Group.List
import Mathlib.Algebra.Order.Ring.Nat
import Mathlib.Data.List.TakeWhile

/-!
# Templates over variables

A template is a text in which the only expressions are variables.  Its value
is the text with every variable replaced, whatever the variables hold: the
evaluator does not look into a value again, and the functions of the script
are never called.
-/

namespace DbPager

open Effect

variable {W : Type}

/-- A character that the evaluator copies wherever it stands. -/
def isPlainChar (c : Char) : Bool :=
  c != '\x7b' && c != '\x7d' && c != '\\'

/-- A piece of a template: literal text, or `{$name}`. -/
inductive Piece where
  | literal (text : Str) (plain : text.all isPlainChar = true)
  | var (name : Str) (plain : name.all Lexer.isVariableChar = true)

namespace Piece

/-- What stands in the script. -/
def text : Piece → Str
  | literal text _ => text
  | var name _ => '\x7b' :: '$' :: name ++ ['\x7d']

def value (contexts : List Context) : Piece → Str
  | literal text _ => text
  | var name _ => Chain.getValue name contexts

/-- The variable a piece reads. -/
def reads : Piece → List Str
  | literal _ _ => []
  | var name _ => [upName name]

end Piece

abbrev Template := List Piece

/-- Two ways to replace the items of a list by texts, the texts of the first
never longer: if the whole is the same, every text is the same. -/
theorem flatMap_eq_of_length_le {α β : Type} {first second : α → List β}
    {items : List α}
    (shorter : ∀ item, (first item).length ≤ (second item).length)
    (same : items.flatMap first = items.flatMap second) :
    ∀ item ∈ items, first item = second item := by
  induction items with
  | nil => simp
  | cons item items induction =>
      have tail : (items.flatMap first).length ≤
          (items.flatMap second).length := by
        rw [List.length_flatMap, List.length_flatMap]
        exact List.sum_le_sum fun item _ => shorter item
      have total := congrArg List.length same
      simp only [List.flatMap_cons, List.length_append] at total
      have head := shorter item
      obtain ⟨here, rest⟩ := List.append_inj same (by omega)
      intro other member
      rcases List.mem_cons.mp member with rfl | later
      · exact here
      · exact induction rest other later

namespace Template

def text (template : Template) : Str :=
  template.flatMap Piece.text

def value (contexts : List Context) (template : Template) : Str :=
  template.flatMap (Piece.value contexts)

/-- The literals of the template with a text for every reference. -/
def fill (texts : Str → Str) (template : Template) : Str :=
  template.flatMap fun
    | .literal text _ => text
    | .var name _ => texts name

/-- The names under which the variables of the template are kept. -/
def reads (template : Template) : List Str :=
  template.flatMap Piece.reads

/-- The value depends only on the variables the template reads. -/
theorem value_congr {first second : List Context} {template : Template}
    (same : ∀ name, upName name ∈ template.reads →
      Chain.getValue name first = Chain.getValue name second) :
    template.value first = template.value second := by
  refine List.flatMap_congr fun piece member => ?_
  cases piece with
  | literal text plain => rfl
  | var name plain =>
      exact same name (List.mem_flatMap.mpr ⟨_, member, List.mem_singleton_self _⟩)

end Template

namespace Evaluator

theorem isPlainChar_of_isVariableChar {c : Char}
    (isVariable : Lexer.isVariableChar c = true) : isPlainChar c = true := by
  have other (d : Char) (not : Lexer.isVariableChar d = false) :
      (c != d) = true := by
    refine bne_iff_ne.mpr ?_
    rintro rfl
    rw [isVariable] at not
    cases not
  simp [isPlainChar, other '\x7b' (by decide), other '\x7d' (by decide),
    other '\\' (by decide)]

section Loop

variable (outside : Outside W) (function : Str → Str → M W Str)
  (inner : Str → M W Str)

/-- Plain characters outside the braces are copied. -/
theorem evalLoop_plain (text rest : Str) (prev : Char) (out : Str)
    (plain : text.all isPlainChar = true) (start : prev ≠ '\\') :
    ∃ last, last ≠ '\\' ∧
      evalLoop outside function inner (text ++ rest) prev 0 [] out =
        evalLoop outside function inner rest last 0 [] (out ++ text) := by
  induction text generalizing prev out with
  | nil => exact ⟨prev, start, by simp⟩
  | cons c text induction =>
      simp only [List.all_cons, Bool.and_eq_true, isPlainChar, bne_iff_ne]
        at plain
      obtain ⟨⟨⟨opening, closing⟩, escape⟩, plain⟩ := plain
      obtain ⟨last, next, copied⟩ := induction c (out ++ [c]) plain escape
      refine ⟨last, next, ?_⟩
      rw [List.cons_append, evalLoop]
      simp [start, escape, opening, closing, copied]

/-- Plain characters inside the braces are collected. -/
theorem evalLoop_group (text rest : Str) (prev : Char) (group out : Str)
    (plain : text.all isPlainChar = true) (start : prev ≠ '\\') :
    ∃ last, last ≠ '\\' ∧
      evalLoop outside function inner (text ++ rest) prev 1 group out =
        evalLoop outside function inner rest last 1 (group ++ text) out := by
  induction text generalizing prev group with
  | nil => exact ⟨prev, start, by simp⟩
  | cons c text induction =>
      simp only [List.all_cons, Bool.and_eq_true, isPlainChar, bne_iff_ne]
        at plain
      obtain ⟨⟨⟨opening, closing⟩, escape⟩, plain⟩ := plain
      obtain ⟨last, next, collected⟩ := induction c (group ++ [c]) plain escape
      refine ⟨last, next, ?_⟩
      rw [List.cons_append, evalLoop]
      simp [start, escape, opening, closing, collected]

theorem evalLoop_open (rest : Str) (prev : Char) (out : Str)
    (start : prev ≠ '\\') :
    evalLoop outside function inner ('\x7b' :: rest) prev 0 [] out =
      evalLoop outside function inner rest '\x7b' 1 [] out := by
  rw [evalLoop]
  simp [start]

theorem evalLoop_close (rest : Str) (prev : Char) (group out : Str)
    (start : prev ≠ '\\') :
    evalLoop outside function inner ('\x7d' :: rest) prev 1 group out =
      (do
        let value ← calculate outside function (← inner group)
        evalLoop outside function inner rest '\x7d' 0 [] (out ++ value)) := by
  rw [evalLoop]
  simp [start]

end Loop

section Variable

variable (outside : Outside W) (function : Str → Str → M W Str)
  (state : St W) (name value : Str)

theorem getToken_variable (type : TokenType) (old : Str)
    (plain : name.all Lexer.isVariableChar = true) :
    getToken outside (state, ⟨'$' :: name, type, old, value⟩) =
      ⟨(state, ⟨[], .name, name, value⟩), [], .value ()⟩ := by
  have whole := List.all_eq_true.mp plain
  have taken : name.takeWhile Lexer.isVariableChar = name :=
    List.takeWhile_eq_self_iff.mpr whole
  have dropped : name.dropWhile Lexer.isVariableChar = [] :=
    List.dropWhile_eq_nil_iff.mpr whole
  have space : isSpace '$' = false := by decide
  simp [getToken, Prog.act, Lexer.getToken, Lexer.getTokenFrom, space, taken,
    dropped]

theorem prim_variable (budget : Nat) :
    prim outside function (budget + 1) (state, ⟨[], .name, name, value⟩) =
      ⟨(state, ⟨[], .end, [], value⟩), [],
        .value (Chain.getValue name state.contexts)⟩ :=
  rfl

theorem term_variable (budget : Nat) :
    term outside (prim outside function (budget + 1)) (budget + 1)
        (state, ⟨[], .name, name, value⟩) =
      ⟨(state, ⟨[], .end, [], value⟩), [],
        .value (Chain.getValue name state.contexts)⟩ := by
  unfold term
  rw [Prog.bind_silent (prim_variable outside function state name value budget)]
  rfl

theorem expr_variable (budget : Nat) :
    expr outside
        (term outside (prim outside function (budget + 1)) (budget + 1))
        (budget + 1) (state, ⟨[], .name, name, value⟩) =
      ⟨(state, ⟨[], .end, [], value⟩), [],
        .value (Chain.getValue name state.contexts)⟩ := by
  unfold expr
  rw [Prog.bind_silent (term_variable outside function state name value budget)]
  rfl

theorem lexpr_variable (budget : Nat) :
    lexpr outside
        (expr outside
          (term outside (prim outside function (budget + 1)) (budget + 1))
          (budget + 1)) (state, ⟨[], .name, name, value⟩) =
      ⟨(state, ⟨[], .end, [], value⟩), [],
        .value (Chain.getValue name state.contexts)⟩ := by
  unfold lexpr
  rw [Prog.bind_silent (expr_variable outside function state name value budget)]
  rfl

/-- The expression `$name` has the value of the variable. -/
theorem calculate_variable (plain : name.all Lexer.isVariableChar = true) :
    calculate outside function ('$' :: name) state =
      ⟨state, [], .value (Chain.getValue name state.contexts)⟩ := by
  have token := getToken_variable outside state name [] outside.rawToken []
    plain
  unfold calculate
  refine Prog.within_eq ⟨[], .end, [], []⟩ ?_
  rw [Prog.bind_silent token]
  exact lexpr_variable outside function state name [] (name.length + 2)

end Variable

section Values

variable (outside : Outside W) (function : Str → Str → M W Str)

/-- A text of plain characters is its own value. -/
theorem eval_plain (budget : Nat) (text : Str) (state : St W)
    (plain : text.all isPlainChar = true) :
    eval outside function (budget + 1) text state =
      ⟨state, [], .value text⟩ := by
  obtain ⟨last, -, copied⟩ := evalLoop_plain outside function
    (eval outside function budget) text [] (Char.ofNat 0) [] plain (by decide)
  rw [List.append_nil, List.nil_append] at copied
  rw [eval, copied]
  rfl

/-- The loop over a template, from outside the braces. -/
theorem evalLoop_template (budget : Nat) (template : Template) (prev : Char)
    (out : Str) (state : St W) (start : prev ≠ '\\') :
    evalLoop outside function (eval outside function (budget + 1))
        template.text prev 0 [] out state =
      ⟨state, [], .value (out ++ template.value state.contexts)⟩ := by
  induction template generalizing prev out with
  | nil => simp [Template.text, Template.value, evalLoop, pure, Prog.pure]
  | cons piece template induction =>
      cases piece with
      | literal text plain =>
          obtain ⟨last, next, copied⟩ := evalLoop_plain outside function
            (eval outside function (budget + 1)) text (Template.text template)
            prev out plain start
          have rest := induction last (out ++ text) next
          rw [List.append_assoc] at rest
          exact (congrFun copied state).trans rest
      | var name plain =>
          have plainName : ('$' :: name).all isPlainChar = true := by
            refine List.all_eq_true.mpr fun c member => ?_
            rcases List.mem_cons.mp member with rfl | member
            · decide
            · exact isPlainChar_of_isVariableChar
                (List.all_eq_true.mp plain c member)
          obtain ⟨last, next, collected⟩ := evalLoop_group outside function
            (eval outside function (budget + 1)) ('$' :: name)
            ('\x7d' :: Template.text template) '\x7b' [] out plainName
            (by decide)
          have rest := induction '\x7d'
            (out ++ Chain.getValue name state.contexts) (by decide)
          have whole : Template.text (.var name plain :: template) =
              '\x7b' :: (('$' :: name) ++ '\x7d' :: Template.text template) := by
            simp [Template.text, Piece.text]
          rw [whole, evalLoop_open outside function _ _ prev out start,
            collected, evalLoop_close outside function _ _ last _ out next,
            List.nil_append, Prog.bind_silent (eval_plain outside function budget _ state
              plainName),
            Prog.bind_silent (calculate_variable outside function state name
              plain), rest, List.append_assoc]
          rfl

/-- The value of a template is the text with the variables replaced. -/
theorem evaluate_template (template : Template) (state : St W) :
    evaluate outside function (Template.text template) state =
      ⟨state, [], .value (Template.value state.contexts template)⟩ := by
  have ran (budget : Nat) := evalLoop_template outside function budget template
    (Char.ofNat 0) [] state (by decide)
  unfold evaluate
  cases text : Template.text template with
  | nil =>
      -- Without braces the inner evaluation does not matter.
      have done := ran 0
      rw [text] at done
      exact done
  | cons c rest =>
      have done := ran rest.length
      rw [text] at done
      exact done

/-- In every context the value of a template is its literals with the values
of the variables between them, and nothing for a name without a binding.
Neither the functions of the script nor the state of the context are
touched, whatever the values are. -/
theorem values_inserted_verbatim (template : Template) (state : St W) :
    evaluate outside function (Template.text template) state =
      ⟨state, [], .value (template.fill fun name =>
        (Chain.lookup name state.contexts).getD [])⟩ := by
  have filled : Template.value state.contexts template =
      template.fill fun name => (Chain.lookup name state.contexts).getD [] := by
    refine List.flatMap_congr fun piece _ => ?_
    cases piece with
    | literal text plain => rfl
    | var name plain => rfl
  rw [evaluate_template, filled]

end Values

end Evaluator

end DbPager
