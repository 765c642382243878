import DbPager.Tags.Services

/-!
# Stylesheet parameters as XPath literals

The transform tags hand each parameter to the stylesheet as an XPath
expression.  A value is meant to arrive as a string literal, and XPath 1.0
has no escape inside a literal.
-/

namespace DbPager

open Effect

/-- The string literals of XPath 1.0 with the strings they denote. -/
inductive XPath.Denotes : Str → Str → Prop where
  | single (value : Str) (plain : '\'' ∉ value) :
      XPath.Denotes ('\'' :: value ++ ['\'']) value
  | double (value : Str) (plain : '"' ∉ value) :
      XPath.Denotes ('"' :: value ++ ['"']) value

namespace XPath.Denotes

theorem length {text value : Str} (denotes : XPath.Denotes text value) :
    text.length = value.length + 2 := by
  cases denotes with
  | single _ plain => simp
  | double _ plain => simp

/-- A literal is never the string it denotes. -/
theorem ne_self (value : Str) : ¬ XPath.Denotes value value := by
  intro denotes
  have length := denotes.length
  omega

theorem mem {text value : Str} (denotes : XPath.Denotes text value) {c : Char}
    (inside : c ∈ value) : c ∈ text := by
  cases denotes with
  | single _ plain => simp [inside]
  | double _ plain => simp [inside]

theorem head {text value : Str} (denotes : XPath.Denotes text value) :
    text.head? = some '\'' ∨ text.head? = some '"' := by
  cases denotes with
  | single _ plain => exact .inl rfl
  | double _ plain => exact .inr rfl

/-- What starts with a single quote is the value between two of them. -/
theorem of_single {rest value : Str}
    (denotes : XPath.Denotes ('\'' :: rest) value) :
    rest = value ++ ['\''] ∧ '\'' ∉ value := by
  generalize whole : '\'' :: rest = text at denotes
  cases denotes with
  | single _ plain => exact ⟨(List.cons.inj whole).2, plain⟩
  | double _ plain => cases (List.cons.inj whole).1

end XPath.Denotes

namespace Xslt

/-- A complete single-quoted literal, which the tags hand on as it is. -/
def Quoted (value : Str) : Prop :=
  ∃ inner : Str, '\'' ∉ inner ∧ value = '\'' :: inner ++ ['\'']

/-- The name and the text the library receives for a parameter. -/
def passed (param : Str × Str) : Str × Str :=
  (cString param.1, cString (quoteValue param.2))

/-- The values of the parameters, evaluated one after the other. -/
def evaluated (interp : Interp W) (self : Loc) :
    List (Str × Str) → M W (List (Str × Str))
  | [] => pure []
  | param :: params =>
      if param.1 = "href".toList then evaluated interp self params
      else do
        let value ← interp.executeParam self param.2
        let rest ← evaluated interp self params
        pure ((param.1, value) :: rest)

/-- The stylesheet, the document and the values of the parameters. -/
def prepared (interp : Interp W) (self : Loc) (caller : Option Loc)
    (document : Str → M W Nat) : M W (Nat × Nat × List (Str × Str)) := do
  let href ← interp.getParameter self "href"
  match ← M.io (interp.outside.xslt.parseStylesheet (cString href)) with
  | none =>
      Prog.throw (interp.dcl.exception
        "can't parse stylesheet file '\x7b0\x7d'" [href])
  | some stylesheet =>
      let source ← (interp.executeChilds self caller).capture
      let doc ← document source
      let values ← evaluated interp self self.tag.params
      pure (stylesheet, doc, values)

/-- The stylesheet applied to a document with the texts of the parameters. -/
def applied (interp : Interp W) (failure : String) (stylesheet doc : Nat)
    (texts : List (Str × Str)) : M W Unit := do
  match ← M.io (interp.outside.xslt.apply stylesheet doc texts) with
  | some result => Prog.emit result
  | none => Prog.throw (interp.dcl.exception failure [])

/-- The tag evaluates its parameters and hands each of them on as the text
that belongs to its value. -/
def HandsOn (interp : Interp W) (self : Loc) (caller : Option Loc)
    (execute : M W Unit) : Prop :=
  ∃ (document : Str → M W Nat) (failure : String),
    execute = prepared interp self caller document >>= fun ready =>
      applied interp failure ready.1 ready.2.1 (ready.2.2.map passed)

theorem stylesheetParams_eq (interp : Interp W) (self : Loc)
    (params : List (Str × Str)) :
    stylesheetParams interp self params =
      evaluated interp self params >>= fun values =>
        pure (values.map passed) := by
  induction params with
  | nil => rfl
  | cons param params induction =>
      unfold stylesheetParams evaluated
      split
      · exact induction
      · rw [induction, Prog.bind_assoc]
        apply congrArg
        funext value
        rw [Prog.bind_assoc, Prog.bind_assoc]
        rfl

theorem transform_handsOn (interp : Interp W) (self : Loc)
    (caller : Option Loc) (document : Str → M W Nat) (failure : String) :
    HandsOn interp self caller
      (transform interp self caller document failure) := by
  refine ⟨document, failure, ?_⟩
  unfold transform prepared
  rw [Prog.bind_assoc]
  apply congrArg
  funext href
  rw [Prog.bind_assoc]
  apply congrArg
  funext found
  cases found with
  | none => rfl
  | some stylesheet =>
      simp only [stylesheetParams_eq, Prog.bind_assoc, Prog.pure_bind]
      rfl

/-- The value with its single quotes doubled. -/
def escaped (value : Str) : Str :=
  value.flatMap (fun c => if c == '\'' then "''".toList else [c])

theorem escaped_plain {value : Str} (plain : '\'' ∉ value) :
    escaped value = value := by
  induction value with
  | nil => rfl
  | cons c value induction =>
      have different : c ≠ '\'' := by
        intro same
        exact plain (by simp [same])
      have rest := induction fun inside => plain (by simp [inside])
      calc
        escaped (c :: value) = c :: escaped value := by
          simp [escaped, different]
        _ = c :: value := by rw [rest]

theorem mem_escaped {value : Str} {c : Char} (inside : c ∈ escaped value) :
    c ∈ value := by
  obtain ⟨d, member, image⟩ := List.mem_flatMap.mp inside
  split at image
  · rename_i quote
    have same : d = '\'' := by simpa using quote
    have equal : c = '\'' := by simpa using image
    exact (equal.trans same.symm) ▸ member
  · have equal : c = d := by simpa using image
    exact equal ▸ member

/-- A value is quoted, or handed on as it is if it is empty or has a single
quote at one of its ends. -/
theorem quoteValue_cases (value : Str) :
    (value ≠ [] ∧ quoteValue value = '\'' :: escaped value ++ ['\'']) ∨
      (('\'' ∈ value ∨ value = []) ∧ quoteValue value = value) := by
  unfold quoteValue
  split
  · rename_i inner
    simp only [Bool.and_eq_true, Bool.not_eq_true',
      List.isEmpty_eq_false_iff] at inner
    exact .inl ⟨inner.1.1, rfl⟩
  · rename_i outer
    refine .inr ⟨?_, rfl⟩
    by_cases empty : value = []
    · exact .inr empty
    · left
      by_cases first : value.head? = some '\''
      · exact List.mem_of_head? first
      · by_cases last : value.getLast? = some '\''
        · exact List.mem_of_getLast? last
        · exact absurd (by simp [empty, first, last]) outer

/-- The text for a value is a literal that denotes it just when there is a
value and neither a single quote nor a NUL is in it. -/
theorem denotes_quoteValue_iff (value : Str) :
    XPath.Denotes (cString (quoteValue value)) value ↔
      value ≠ [] ∧ '\'' ∉ value ∧ Char.ofNat 0 ∉ value := by
  constructor
  · intro denotes
    have noNul : Char.ofNat 0 ∉ value := fun inside =>
      not_mem_cString _ (denotes.mem inside)
    rcases quoteValue_cases value with ⟨present, quoted⟩ | ⟨_, same⟩
    · have plain : Char.ofNat 0 ∉ '\'' :: escaped value ++ ['\''] := by
        intro inside
        rcases List.mem_append.mp inside with front | back
        · rcases List.mem_cons.mp front with quote | inner
          · exact absurd quote (by decide)
          · exact noNul (mem_escaped inner)
        · exact absurd (List.mem_singleton.mp back) (by decide)
      rw [quoted, cString_eq_self plain] at denotes
      exact ⟨present, denotes.of_single.2, noNul⟩
    · rw [same, cString_eq_self noNul] at denotes
      exact absurd denotes (XPath.Denotes.ne_self value)
  · intro ⟨present, noQuote, noNul⟩
    rcases quoteValue_cases value with ⟨-, quoted⟩ | ⟨quote | empty, -⟩
    · rw [quoted, escaped_plain noQuote, cString_eq_self]
      · exact .single value noQuote
      · intro inside
        rcases List.mem_append.mp inside with front | back
        · rcases List.mem_cons.mp front with quote | inner
          · exact absurd quote (by decide)
          · exact noNul inner
        · exact absurd (List.mem_singleton.mp back) (by decide)
    · exact absurd quote noQuote
    · exact absurd empty present

/-- Both transform tags hand on the text that belongs to the value of each
parameter, and that text is a literal for the value just when the value is
neither empty nor has a single quote or a NUL in it. -/
theorem parameters_literal_iff (interp : Interp W) (self : Loc)
    (caller : Option Loc) :
    HandsOn interp self caller (TagTransform.execute interp self caller) ∧
    HandsOn interp self caller (TagTransformJson.execute interp self caller) ∧
    ∀ param : Str × Str,
      XPath.Denotes (passed param).2 param.2 ↔
        param.2 ≠ [] ∧ '\'' ∉ param.2 ∧ Char.ofNat 0 ∉ param.2 := by
  refine ⟨?_, ?_, fun param => denotes_quoteValue_iff param.2⟩
  · apply transform_handsOn
  · apply transform_handsOn

/-- A single quote inside a value ends the literal early. -/
theorem inner_quote_not_literal :
    ¬ ∀ name value : Str, ¬ Quoted value → ¬ ('\'' ∈ value ∧ '"' ∈ value) →
      XPath.Denotes (passed (name, value)).2 value := by
  intro literal
  have quoted : ¬ Quoted "O'Neil".toList := by
    intro ⟨inner, _, same⟩
    cases same
  have denotes := literal "author".toList "O'Neil".toList quoted (by decide)
  have condition := (denotes_quoteValue_iff _).mp denotes
  exact condition.2.1 (by decide)

end Xslt

end DbPager
