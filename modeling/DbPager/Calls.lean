import DbPager.Grammar
import DbPager.Plain

/-!
# Calls in expressions

`get_token` reads a function call as one token: the function's name and the
text of its arguments.  The arguments are read up to the first closing
parenthesis, and one character more is taken from the stream.
-/

namespace DbPager

namespace Lexer

/-- The names of functions. -/
def IsFunctionName (name : Str) : Prop :=
  name.all isFunctionChar = true ∧ name.head?.any Grammar.startsName = true

/-- Every beginning of the text has at least as many opening parentheses as
closing ones, and the whole as many. -/
def Parenthesised (text : Str) : Prop :=
  (∀ start, start <+: text → start.count ')' ≤ start.count '(') ∧
    text.count ')' = text.count '('

theorem code_of_isAlpha {c : Char} (letter : c.isAlpha = true) :
    65 ≤ c.toNat := by
  rcases (Bool.or_eq_true _ _).mp letter with upper | lower
  · have bounds : decide (c.val ≥ 'A'.val ∧ c.val ≤ 'Z'.val) = true := upper
    exact UInt32.le_iff_toNat_le.mp (of_decide_eq_true bounds).1
  · have bounds : (decide (c.val ≥ 'a'.val) && decide (c.val ≤ 'z'.val)) =
        true := lower
    rw [Bool.and_eq_true, decide_eq_true_eq] at bounds
    have low : 97 ≤ c.toNat := UInt32.le_iff_toNat_le.mp bounds.1
    omega

theorem isSpace_of_startsName {c : Char} (starts : Grammar.startsName c = true) :
    isSpace c = false := by
  have code : 64 ≤ c.toNat := by
    simp only [Grammar.startsName, Bool.or_eq_true, beq_iff_eq] at starts
    rcases starts with (letter | rfl) | rfl
    · have low := code_of_isAlpha letter
      omega
    · decide
    · decide
  have blank : c ≠ ' ' := by
    rintro rfl
    exact absurd code (by decide)
  simp only [isSpace, Bool.or_eq_false_iff, Bool.and_eq_false_iff,
    beq_eq_false_iff_ne, decide_eq_false_iff_not]
  exact ⟨blank, .inr (by omega)⟩

theorem isNumberChar_of_startsName {c : Char}
    (starts : Grammar.startsName c = true) : isNumberChar c = false := by
  simp only [Grammar.startsName, Bool.or_eq_true, beq_iff_eq] at starts
  rcases starts with (letter | rfl) | rfl
  · have code := code_of_isAlpha letter
    have dot : c ≠ '.' := by
      rintro rfl
      exact absurd code (by decide)
    have digit : c.isDigit = false := by
      simp only [Char.isDigit, Bool.and_eq_false_iff, decide_eq_false_iff_not,
        UInt32.le_iff_toNat_le]
      right
      change ¬ c.toNat ≤ 57
      omega
    simp [isNumberChar, digit, dot]
  · rfl
  · rfl

/-- The first character of a name decides the branch of `get_token`. -/
theorem getTokenFrom_name (dcl : Dcl) (lexer : Lexer) {c : Char}
    (starts : Grammar.startsName c = true) (rest : Str) :
    getTokenFrom dcl lexer c rest =
      getFunction dcl lexer
        (lexer.name ++ (c :: rest).takeWhile isFunctionChar)
        ((c :: rest).dropWhile isFunctionChar)
        (((c :: rest).takeWhile isFunctionChar).getLast?.getD c) := by
  have number := isNumberChar_of_startsName starts
  unfold getTokenFrom
  split
  case h_16 =>
    have quotes : (c == '\'' || c == '"') = false := by
      apply Bool.eq_false_iff.mpr
      intro quote
      rcases Bool.or_eq_true _ _ |>.mp quote with same | same
      all_goals
        rw [beq_iff_eq.mp same] at starts
        exact absurd starts (by decide)
    rw [if_neg (by simp [number]), if_neg (by simp [quotes])]
    exact if_pos starts
  all_goals exact absurd starts (by decide)

theorem readArguments_closing {arguments : Str} (absent : ')' ∉ arguments)
    (rest value : Str) :
    readArguments (arguments ++ ')' :: rest) 1 value =
      (0, value ++ arguments, rest.tail) := by
  induction arguments generalizing value with
  | nil =>
      rw [List.append_nil]
      cases rest <;> rfl
  | cons c arguments induction =>
      have different : c ≠ ')' := by
        rintro rfl
        exact absent List.mem_cons_self
      have later : ')' ∉ arguments := by
        intro member
        exact absent (List.mem_cons_of_mem _ member)
      have step : readArguments (c :: (arguments ++ ')' :: rest)) 1 value =
          readArguments (arguments ++ ')' :: rest) 1 (value ++ [c]) := by
        simp [readArguments, different]
      rw [List.cons_append, step, induction later, List.append_assoc]
      rfl

/-- A call is read up to the first closing parenthesis; the character after
it is gone. -/
theorem getToken_call (dcl : Dcl) (type : TokenType) {name : Str}
    (called : IsFunctionName name) (old value : Str) {arguments : Str}
    (absent : ')' ∉ arguments) (rest : Str) :
    getToken dcl ⟨name ++ '(' :: (arguments ++ ')' :: rest), type, old, value⟩ =
      (⟨rest.tail, .func, old ++ name, value ++ arguments⟩, none) := by
  obtain ⟨letters, starts⟩ := called
  cases name with
  | nil => cases starts
  | cons c name =>
      have visible := isSpace_of_startsName starts
      have parenthesis : isFunctionChar '(' = false := rfl
      have taken : (c :: name ++ '(' :: (arguments ++ ')' :: rest)).takeWhile
          isFunctionChar = _ :=
        List.takeWhile_append_of_pos (List.all_eq_true.mp letters)
      have dropped : (c :: name ++ '(' :: (arguments ++ ')' :: rest)).dropWhile
          isFunctionChar = _ :=
        List.dropWhile_append_of_pos (List.all_eq_true.mp letters)
      rw [List.takeWhile_cons_of_neg (by simp [parenthesis]),
        List.append_nil] at taken
      rw [List.dropWhile_cons_of_neg (by simp [parenthesis])] at dropped
      unfold getToken
      simp only [List.cons_append]
      rw [List.dropWhile_cons_of_neg (by simp [visible])]
      simp only
      rw [getTokenFrom_name dcl _ starts, ← List.cons_append, taken, dropped]
      have read := readArguments_closing absent rest value
      unfold getFunction
      simp only [read]
      rfl

/-- A call gives a token with its name and its argument text, and leaves the
rest of the text in the stream, exactly when the arguments contain no
parentheses and nothing follows the call. -/
theorem call_token (dcl : Dcl) (type : TokenType) {name arguments : Str}
    (called : IsFunctionName name) (balanced : Parenthesised arguments)
    (rest : Str) :
    getToken dcl ⟨name ++ '(' :: (arguments ++ ')' :: rest), type, [], []⟩ =
        (⟨rest, .func, name, arguments⟩, none) ↔
      ('(' ∉ arguments ∧ ')' ∉ arguments) ∧ rest = [] := by
  by_cases closing : ')' ∈ arguments
  · -- The token's arguments end at the first closing parenthesis.
    apply iff_of_false
    · obtain ⟨before, after, rfl, absent⟩ :=
        List.eq_append_cons_of_mem closing
      rw [List.append_assoc, List.cons_append,
        getToken_call dcl type called [] [] absent]
      intro same
      have shorter := congrArg (fun found => found.1.value.length) same
      simp only [List.nil_append, List.length_append, List.length_cons]
        at shorter
      omega
    · intro plain
      exact plain.1.2 closing
  · have opening : '(' ∉ arguments := by
      have none := List.count_eq_zero.mpr closing
      rw [balanced.2] at none
      exact List.count_eq_zero.mp none
    rw [getToken_call dcl type called [] [] closing]
    constructor
    · intro same
      refine ⟨⟨opening, closing⟩, ?_⟩
      have stream : rest.tail = rest :=
        congrArg (fun found => found.1.input) same
      cases rest with
      | nil => rfl
      | cons c rest =>
          have shorter := congrArg List.length stream
          simp at shorter
    · rintro ⟨_, rfl⟩
      rfl

theorem call_token_len :
    getToken Dcl.plain ⟨"len(abc)".toList, .end, [], []⟩ =
      (⟨[], .func, "len".toList, "abc".toList⟩, none) := by
  have balanced : Parenthesised "abc".toList := by
    constructor
    · intro start before
      have inside : ')' ∉ start := by
        intro member
        exact absurd (before.subset member) (by decide)
      rw [List.count_eq_zero.mpr inside]
      exact Nat.zero_le _
    · rfl
  have name : IsFunctionName "len".toList := ⟨rfl, rfl⟩
  exact (call_token Dcl.plain .end name balanced []).mpr
    ⟨⟨by decide, by decide⟩, rfl⟩

/-- The character after a call is lost. -/
theorem character_after_call_lost :
    getToken Dcl.plain ⟨"len(a)+1".toList, .end, [], []⟩ =
      (⟨"1".toList, .func, "len".toList, "a".toList⟩, none) := by
  rfl

end Lexer

end DbPager
