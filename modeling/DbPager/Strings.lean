import DbPager.Plain
import DbPager.Template
import Mathlib.Algebra.BigOperators.Group.List.Lemmas
import Mathlib.Algebra.FreeMonoid.Basic

/-!
# The string functions

`concat` writes its arguments in the order in which the hash map of the
parameters is iterated, and `upper` and `lower` read the characters of their
argument through a stream that skips blanks.
-/

namespace DbPager

open Effect

variable {W : Type}

section Orders

variable {α β : Type}

/-- Two texts that give the same whole in either order. -/
def Commuting (left right : List β) : Prop :=
  left ++ right = right ++ left

theorem flatMap_of_perm {text : α → List β} {items order : List α}
    (commuting : (items.map text).Pairwise Commuting)
    (permuted : order.Perm items) :
    order.flatMap text = items.flatMap text := by
  have joined (list : List α) : list.flatMap text =
      FreeMonoid.toList
        ((list.map fun item => FreeMonoid.ofList (text item)).prod) := by
    rw [FreeMonoid.toList_prod, List.map_map, List.flatMap_def]
    rfl
  have commute : (items.map fun item => FreeMonoid.ofList (text item)).Pairwise
      Commute := by
    rw [List.pairwise_map] at commuting ⊢
    exact commuting
  have same := (permuted.symm.map fun item =>
    FreeMonoid.ofList (text item)).prod_eq' commute
  rw [joined order, joined items, same]

/-- The texts of the items give the same whole in every order exactly when
any two of them do. -/
theorem flatMap_perm_iff (text : α → List β) (items : List α) :
    (∀ order : List α, order.Perm items →
        order.flatMap text = items.flatMap text) ↔
      (items.map text).Pairwise Commuting := by
  constructor
  · intro same
    rw [List.pairwise_map]
    apply List.pairwise_of_forall_sublist
    intro first second sublist
    obtain ⟨others, permuted⟩ := sublist.exists_perm_append
    have forward := same _ permuted.symm
    have backward := same (second :: first :: others)
      ((List.Perm.swap first second others).trans permuted.symm)
    -- The two orders differ in the first two texts only.
    have whole := forward.trans backward.symm
    simp only [List.cons_append, List.nil_append, List.flatMap_cons,
      ← List.append_assoc] at whole
    exact List.append_cancel_right whole
  · intro commuting order permuted
    exact flatMap_of_perm commuting permuted

/-- The iteration order that gives one list of entries as another one. -/
def iterating [DecidableEq α] (entries order listed : List α) : List α :=
  if listed = entries then order else listed

theorem iterating_perm [DecidableEq α] {entries order : List α}
    (permuted : order.Perm entries) (listed : List α) :
    (iterating entries order listed).Perm listed := by
  unfold iterating
  split
  · rename_i same
    rw [same]
    exact permuted
  · exact List.Perm.refl listed

end Orders

namespace Outside

/-- The same world with another iteration order of the parameters. -/
def inOrder (outside : Outside W)
    (order : List (Str × Str) → List (Str × Str))
    (permutes : ∀ entries, (order entries).Perm entries) : Outside W :=
  { outside with mapOrder := order, mapOrder_perm := permutes }

end Outside

namespace Function

/-- The text of an argument has the given value and no effect, in every
scope. -/
def Evaluates (outside : Outside W) (depth : Nat) (state : St W)
    (text value : Str) : Prop :=
  ∀ scope, (Interp.ofRun outside depth (DbPager.execute outside depth)).evaluate
    scope text state = ⟨state, [], .value value⟩

/-- The call of a built-in function: the function's tag is created with the
parameters in the order of the map, and what it writes is the result. -/
theorem executeFunction_builtin (outside : Outside W)
    (run : Loc → Option Loc → M W Unit) (scope : List Tag) (builtin : Builtin)
    (params : Str) :
    Evaluator.executeFunction outside run scope builtin.name params =
      (run ⟨.mk 0 (.function builtin) (outside.mapOrder
        (Evaluator.functionParams outside.dcl params)) [] [], scope⟩
        none).capture := by
  cases builtin <;> rfl

/-- `concat` writes the values of its arguments in the order of the map. -/
theorem concatenate_eq (outside : Outside W) {depth : Nat} {self : Loc}
    {state : St W} {value : Str → Str}
    (evaluated : ∀ param ∈ self.tag.params,
      Evaluates outside depth state param.2 (value param.2)) :
    concatenate (Interp.ofRun outside depth (DbPager.execute outside depth))
        self state =
      ⟨state, self.tag.params.flatMap fun param => value param.2,
        .value ()⟩ := by
  unfold concatenate
  rw [List.flatMap_def]
  apply Prog.forEach_eq
  intro param member
  have ran : (Interp.ofRun outside depth
      (DbPager.execute outside depth)).executeParam self param.2 state =
        ⟨state, [], .value (value param.2)⟩ := evaluated param member _
  rw [Prog.bind_silent ran]
  rfl

theorem executeFunction_concat (outside : Outside W) {depth : Nat}
    (scope : List Tag) {params : Str} {state : St W} {value : Str → Str}
    (evaluated : ∀ param ∈ Evaluator.functionParams outside.dcl params,
      Evaluates outside depth state param.2 (value param.2)) :
    Evaluator.executeFunction outside (DbPager.execute outside (depth + 1))
        scope "concat".toList params state =
      ⟨state, [], .value ((outside.mapOrder
        (Evaluator.functionParams outside.dcl params)).flatMap
          fun param => value param.2)⟩ := by
  have called := executeFunction_builtin outside
    (DbPager.execute outside (depth + 1)) scope .concatenate params
  refine (congrFun called state).trans ?_
  apply Prog.capture_eq
  apply concatenate_eq
  intro param member
  exact evaluated param ((outside.mapOrder_perm _).mem_iff.mp member)

/-- `concat` joins the values of its arguments in the order of the call for
every iteration order of the map exactly when any two of the values give the
same text in either order. -/
theorem concat_joins_in_order (outside : Outside W) (depth : Nat)
    (scope : List Tag) (params : Str) (state : St W) (value : Str → Str)
    (evaluated : ∀ order permutes,
      ∀ param ∈ Evaluator.functionParams outside.dcl params,
        Evaluates (outside.inOrder order permutes) depth state param.2
          (value param.2)) :
    (∀ order permutes,
      Evaluator.executeFunction (outside.inOrder order permutes)
          (DbPager.execute (outside.inOrder order permutes) (depth + 1)) scope
          "concat".toList params state =
        ⟨state, [], .value
          ((Evaluator.functionParams outside.dcl params).flatMap
            fun param => value param.2)⟩) ↔
      ((Evaluator.functionParams outside.dcl params).map
        fun param => value param.2).Pairwise Commuting := by
  have ran (order : List (Str × Str) → List (Str × Str))
      (permutes : ∀ entries, (order entries).Perm entries) :=
    executeFunction_concat (outside.inOrder order permutes) scope
      (evaluated order permutes)
  rw [← flatMap_perm_iff]
  constructor
  · intro joins order permuted
    let entries := Evaluator.functionParams outside.dcl params
    have permutes := iterating_perm permuted
    have joined := (ran (iterating entries order) permutes).symm.trans
      (joins (iterating entries order) permutes)
    have values : (iterating entries order entries).flatMap
        (fun param => value param.2) =
          entries.flatMap fun param => value param.2 := by
      injection joined with _ _ outcome
      injection outcome
    have chosen : iterating entries order entries = order := if_pos rfl
    rwa [chosen] at values
  · intro same order permutes
    refine (ran order permutes).trans ?_
    have whole := same _ (permutes (Evaluator.functionParams outside.dcl params))
    exact congrArg (fun text => (⟨state, [], .value text⟩ : Run _ Exc Char Str))
      whole

theorem evaluates_variable (outside : Outside W) (depth : Nat) (state : St W)
    {name : Str} (plain : name.all Lexer.isVariableChar = true) :
    Evaluates outside depth state ('\x7b' :: '$' :: name ++ ['\x7d'])
      (Chain.getValue name state.contexts) := by
  intro scope
  have ran := Evaluator.evaluate_template outside
    (Evaluator.executeFunction outside (DbPager.execute outside depth) scope)
    [.var name plain] state
  simp only [Template.text, Template.value, Piece.text, Piece.value,
    List.flatMap_cons, List.flatMap_nil, List.append_nil] at ran
  exact ran

/-- A context with two variables. -/
def twoTexts (first second : String) : St Unit :=
  .fresh [Context.newLocal.addValues
    [("a".toList, first.toList), ("b".toList, second.toList)]]

/-- The value of a reference to a variable. -/
def referenced (state : St Unit) (text : Str) : Str :=
  Chain.getValue (text.drop 2).dropLast state.contexts

theorem twoTexts_evaluated (outside : Outside Unit) (first second : String)
    (param : Str × Str)
    (member : param ∈ Evaluator.functionParams Dcl.plain "$a,$b".toList) :
    Evaluates outside 0 (twoTexts first second) param.2
      (referenced (twoTexts first second) param.2) := by
  have listed : param ∈ [("arg1".toList, "\x7b$a\x7d".toList),
      ("arg2".toList, "\x7b$b\x7d".toList)] := member
  rcases List.mem_pair.mp listed with rfl | rfl
  · exact @evaluates_variable _ _ 0 (twoTexts first second) "a".toList rfl
  · exact @evaluates_variable _ _ 0 (twoTexts first second) "b".toList rfl

theorem concat_joins_powers :
    Evaluator.executeFunction Outside.plain (DbPager.execute Outside.plain 1)
        [] "concat".toList "$a,$b".toList (twoTexts "xx" "x") =
      ⟨twoTexts "xx" "x", [], .value "xxx".toList⟩ := by
  have joined := (concat_joins_in_order Outside.plain 0 [] "$a,$b".toList
    (twoTexts "xx" "x") (referenced (twoTexts "xx" "x"))
    fun order permutes => twoTexts_evaluated _ "xx" "x").mpr
      (List.pairwise_pair.mpr rfl)
  exact joined id fun entries => List.Perm.refl entries

/-- If the map is iterated backwards, so are the arguments. -/
theorem concat_joins_backwards :
    ¬ ∀ order permutes,
      Evaluator.executeFunction (Outside.plain.inOrder order permutes)
          (DbPager.execute (Outside.plain.inOrder order permutes) 1) []
          "concat".toList "$a,$b".toList (twoTexts "x" "y") =
        ⟨twoTexts "x" "y", [], .value "xy".toList⟩ := by
  intro joins
  have ran := executeFunction_concat
    (Outside.plain.inOrder List.reverse List.reverse_perm) []
    (twoTexts_evaluated _ "x" "y")
  have same := ran.symm.trans (joins List.reverse List.reverse_perm)
  injection same with _ _ outcome
  injection outcome with texts
  have reversed : "yx".toList = "xy".toList := texts
  exact absurd reversed (by decide)

/-- Every character of the text is converted, and none is lost. -/
def Converts (convert : Char → Char) (text result : Str) : Prop :=
  result.length = text.length ∧
    ∀ (index : Nat) (c : Char), text[index]? = some c →
      result[index]? = some (convert c)

theorem converts_stream_iff (convert : Char → Char) (text : Str) :
    Converts convert text ((streamChars text).map convert) ↔
      ∀ c ∈ text, isSpace c = false := by
  have visible : (∀ c ∈ text, (!isSpace c) = true) ↔
      ∀ c ∈ text, isSpace c = false := by
    simp only [Bool.not_eq_true']
  constructor
  · intro converts
    have length := converts.1
    rw [List.length_map] at length
    exact visible.mp (List.length_filter_eq_length_iff.mp length)
  · intro visibleChars
    have whole : streamChars text = text :=
      List.filter_eq_self.mpr (visible.mpr visibleChars)
    rw [whole]
    constructor
    · exact List.length_map convert
    · intro index c found
      rw [List.getElem?_map, found]
      rfl

/-- A function of one argument returns what it makes of the argument. -/
theorem executeFunction_unary (outside : Outside W) {depth : Nat}
    (scope : List Tag) (builtin : Builtin) (result : Str → Str)
    (defined : ∀ self, execute
        (Interp.ofRun outside depth (DbPager.execute outside depth)) self
        builtin =
      unary (Interp.ofRun outside depth (DbPager.execute outside depth)) self
        fun text => pure (result text))
    {params argument : Str} (single : outside.dcl.tokens params = [argument])
    {state : St W} {text : Str}
    (evaluated : Evaluates outside depth state
      (setText ('\x7b' :: argument ++ ['\x7d'])) text) :
    Evaluator.executeFunction outside (DbPager.execute outside (depth + 1))
        scope builtin.name params state =
      ⟨state, [], .value (result text)⟩ := by
  have entries : outside.mapOrder
      (Evaluator.functionParams outside.dcl params) =
        [("arg".toList ++ outside.dcl.toStringInt 1,
          setText ('\x7b' :: argument ++ ['\x7d']))] := by
    apply List.perm_singleton.mp
    have listed := outside.mapOrder_perm
      (Evaluator.functionParams outside.dcl params)
    unfold Evaluator.functionParams at listed ⊢
    rw [single] at listed ⊢
    exact listed
  rw [executeFunction_builtin, entries]
  apply Prog.capture_eq
  let interp := Interp.ofRun outside depth (DbPager.execute outside depth)
  let self : Loc := ⟨.mk 0 (.function builtin)
    [("arg".toList ++ outside.dcl.toStringInt 1,
      setText ('\x7b' :: argument ++ ['\x7d']))] [] [], scope⟩
  have dispatched : DbPager.execute outside (depth + 1) self none =
      unary interp self fun text => pure (result text) :=
    defined self
  have counted : checkCount interp self 1 state = ⟨state, [], .value ()⟩ := rfl
  have ran : first interp self state = ⟨state, [], .value text⟩ :=
    evaluated _
  refine (congrFun dispatched state).trans ?_
  unfold unary
  rw [Prog.bind_silent counted, Prog.bind_silent ran]
  rfl

/-- `upper` and `lower` convert every character of their argument exactly
when none of them is a blank. -/
theorem upper_lower_convert (outside : Outside W) (depth : Nat)
    (scope : List Tag) (params argument : Str)
    (single : outside.dcl.tokens params = [argument]) (state : St W)
    (text : Str)
    (evaluated : Evaluates outside depth state
      (setText ('\x7b' :: argument ++ ['\x7d'])) text) :
    (∃ upperText lowerText,
      Evaluator.executeFunction outside (DbPager.execute outside (depth + 1))
          scope "upper".toList params state =
        ⟨state, [], .value upperText⟩ ∧
      Evaluator.executeFunction outside (DbPager.execute outside (depth + 1))
          scope "lower".toList params state =
        ⟨state, [], .value lowerText⟩ ∧
      Converts outside.functions.toUpper text upperText ∧
      Converts outside.functions.toLower text lowerText) ↔
      ∀ c ∈ text, isSpace c = false := by
  have uppered : Evaluator.executeFunction outside
      (DbPager.execute outside (depth + 1)) scope "upper".toList params state =
        ⟨state, [], .value
          ((streamChars text).map outside.functions.toUpper)⟩ :=
    executeFunction_unary outside scope .upper
      (fun text => (streamChars text).map outside.functions.toUpper)
      (fun self => rfl) single evaluated
  have lowered : Evaluator.executeFunction outside
      (DbPager.execute outside (depth + 1)) scope "lower".toList params state =
        ⟨state, [], .value
          ((streamChars text).map outside.functions.toLower)⟩ :=
    executeFunction_unary outside scope .lower
      (fun text => (streamChars text).map outside.functions.toLower)
      (fun self => rfl) single evaluated
  constructor
  · rintro ⟨upperText, lowerText, upper, -, converts, -⟩
    rw [uppered] at upper
    injection upper with _ _ outcome
    injection outcome with same
    rw [← same] at converts
    exact (converts_stream_iff _ text).mp converts
  · intro visible
    exact ⟨_, _, uppered, lowered, (converts_stream_iff _ text).mpr visible,
      (converts_stream_iff _ text).mpr visible⟩

theorem upper_lower_convert_word :
    ∃ upperText lowerText,
      Evaluator.executeFunction Outside.plain
          (DbPager.execute Outside.plain 1) [] "upper".toList "$a".toList
          (twoTexts "xY" "") =
        ⟨twoTexts "xY" "", [], .value upperText⟩ ∧
      Evaluator.executeFunction Outside.plain
          (DbPager.execute Outside.plain 1) [] "lower".toList "$a".toList
          (twoTexts "xY" "") =
        ⟨twoTexts "xY" "", [], .value lowerText⟩ ∧
      Converts Char.toUpper "xY".toList upperText ∧
      Converts Char.toLower "xY".toList lowerText :=
  (upper_lower_convert Outside.plain 0 [] "$a".toList "$a".toList rfl
    (twoTexts "xY" "") "xY".toList
    (@evaluates_variable _ _ 0 (twoTexts "xY" "") "a".toList rfl)).mpr
    (by
      intro c member
      rcases List.mem_pair.mp member with rfl | rfl <;> rfl)

/-- The blank between two letters is lost. -/
theorem upper_loses_blank :
    ¬ ∃ upperText,
      Evaluator.executeFunction Outside.plain
          (DbPager.execute Outside.plain 1) [] "upper".toList "$a".toList
          (twoTexts "a b" "") =
        ⟨twoTexts "a b" "", [], .value upperText⟩ ∧
      Converts Char.toUpper "a b".toList upperText := by
  rintro ⟨upperText, ran, length, -⟩
  have uppered : Evaluator.executeFunction Outside.plain
      (DbPager.execute Outside.plain 1) [] "upper".toList "$a".toList
      (twoTexts "a b" "") = ⟨twoTexts "a b" "", [], .value "AB".toList⟩ :=
    @executeFunction_unary _ Outside.plain 0 [] .upper
      (fun text => (streamChars text).map Char.toUpper) (fun self => rfl)
      "$a".toList "$a".toList rfl (twoTexts "a b" "") "a b".toList
      (@evaluates_variable _ _ 0 (twoTexts "a b" "") "a".toList rfl)
  rw [uppered] at ran
  injection ran with _ _ outcome
  injection outcome with same
  rw [← same] at length
  exact absurd length (by decide)

end Function

end DbPager
