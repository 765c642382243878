import DbPager.Library.Holes
import DbPager.Plain

/-!
# The numbers of the placeholders

`tag_query::parse` of `dbp_pgsql` writes `$1`, `$2` and so on for the
placeholders of a statement and keeps their names.  Nothing of the statement is
lost.
-/

namespace DbPager

open Holes

namespace Pgsql

namespace TagQuery

/-- A placeholder as it stands in a statement. -/
inductive Placeholder where
  | question
  | colon (name : Str)

namespace Placeholder

def text : Placeholder → Str
  | question => ['?']
  | colon name => ':' :: name

def name : Placeholder → Str
  | question => []
  | colon name => name

end Placeholder

/-- The name behind a colon is the longest run of the characters of which
names consist. -/
def LongestNames : List (Segment Char Placeholder) → Prop
  | [] => True
  | .piece _ :: rest => LongestNames rest
  | .hole .question :: rest => LongestNames rest
  | .hole (.colon name) :: rest =>
      name.all isParamChar = true ∧
        (∀ c ∈ (fill Placeholder.text rest).head?, isParamChar c = false) ∧
        LongestNames rest

/-- The literal pieces and the placeholders of a statement. -/
structure Divides (segments : List (Segment Char Placeholder))
    (statement : Str) : Prop where
  whole : fill Placeholder.text segments = statement
  longest : LongestNames segments

section Parsing

variable {dcl : Dcl}

/-- A parameter as it stands in a query. -/
def dollar (dcl : Dcl) (number : Nat) : Str :=
  '$' :: dcl.toStringInt number

/-- What the loop has still to do, from a division of the rest. -/
def Produces (dcl : Dcl) (segments : List (Segment Char Placeholder)) (n : Nat)
    (q : Str) (parameters : List Str) : Str × List Str :=
  (q ++ fill (dollar dcl) (number n segments),
    parameters ++ (labels segments).map Placeholder.name)

theorem Divides.piece {segments : List (Segment Char Placeholder)}
    {rest : Str} (divides : Divides segments rest) (c : Char) :
    Divides (.piece [c] :: segments) (c :: rest) :=
  ⟨congrArg (c :: ·) divides.whole, divides.longest⟩

theorem Divides.question {segments : List (Segment Char Placeholder)}
    {rest : Str} (divides : Divides segments rest) :
    Divides (.hole .question :: segments) ('?' :: rest) :=
  ⟨congrArg ('?' :: ·) divides.whole, divides.longest⟩

/-- The loop reads the name in one go. -/
theorem Divides.colon {segments : List (Segment Char Placeholder)}
    {rest : Str} (divides : Divides segments (rest.dropWhile isParamChar)) :
    Divides (.hole (.colon (rest.takeWhile isParamChar)) :: segments)
      (':' :: rest) := by
  refine ⟨?_, List.all_takeWhile, ?_, divides.longest⟩
  · unfold fill
    rw [divides.whole]
    exact congrArg (':' :: ·) List.takeWhile_append_dropWhile
  · rw [divides.whole]
    intro c head
    have stops := List.head?_dropWhile_not isParamChar rest
    rw [Option.mem_def.mp head] at stops
    exact stops

/-- The loop copies the pieces and numbers the placeholders of a division. -/
theorem parseLoop_divides (budget : Nat) {text : Str} (ssq dsq : Bool)
    (n : Nat) (q : Str) (parameters : List Str)
    (enough : text.length < budget) :
    ∃ segments, Divides segments text ∧
      parseLoop dcl budget text ssq dsq n q parameters =
        some (Produces dcl segments n q parameters) := by
  induction budget generalizing text ssq dsq n q parameters with
  | zero => exact absurd enough (Nat.not_lt_zero _)
  | succ budget induction =>
      cases text with
      | nil =>
          refine ⟨[], ⟨rfl, trivial⟩, ?_⟩
          simp [parseLoop, Produces, fill, number, labels]
      | cons c rest =>
          have shorter : rest.length < budget := Nat.lt_of_succ_lt_succ enough
          have dropped : (rest.dropWhile isParamChar).length < budget :=
            Nat.lt_of_le_of_lt (List.dropWhile_suffix _).length_le shorter
          -- Every character but a placeholder is copied.
          have copies (ssq dsq : Bool) : ∃ segments,
              Divides segments (c :: rest) ∧
              parseLoop dcl budget rest ssq dsq n (q ++ [c]) parameters =
                some (Produces dcl segments n q parameters) := by
            obtain ⟨segments, divides, ran⟩ :=
              induction ssq dsq n (q ++ [c]) parameters shorter
            refine ⟨.piece [c] :: segments, divides.piece c, ?_⟩
            rw [ran]
            simp [Produces, fill, number, labels]
          -- A placeholder adds a number and a name.
          have replaces (placeholder : Placeholder)
              (segments : List (Segment Char Placeholder)) :
              Produces dcl segments (n + 1)
                  (q ++ '$' :: dcl.toStringInt (n + 1))
                  (parameters ++ [placeholder.name]) =
                Produces dcl (.hole placeholder :: segments) n q
                  parameters := by
            simp [Produces, fill, number, labels, dollar]
          unfold parseLoop
          by_cases single : c == '\''
          · rw [if_pos single]
            exact copies (!ssq) dsq
          rw [if_neg single]
          by_cases double : c == '"'
          · rw [if_pos double]
            exact copies ssq (!dsq)
          rw [if_neg double]
          by_cases question : c == '?' && !ssq && !dsq
          · rw [if_pos question]
            have mark : c = '?' := by
              simp only [Bool.and_eq_true, beq_iff_eq] at question
              exact question.1.1
            obtain ⟨segments, divides, ran⟩ := induction ssq dsq (n + 1)
              (q ++ '$' :: dcl.toStringInt (n + 1)) (parameters ++ [[]])
              shorter
            subst mark
            refine ⟨_, divides.question, ran.trans ?_⟩
            exact congrArg some (replaces .question segments)
          rw [if_neg question]
          by_cases colon : c == ':' && !ssq && !dsq
          · rw [if_pos colon]
            have mark : c = ':' := by
              simp only [Bool.and_eq_true, beq_iff_eq] at colon
              exact colon.1.1
            obtain ⟨segments, divides, ran⟩ := induction ssq dsq (n + 1)
              (q ++ '$' :: dcl.toStringInt (n + 1))
              (parameters ++ [rest.takeWhile isParamChar]) dropped
            subst mark
            refine ⟨_, divides.colon, ran.trans ?_⟩
            exact congrArg some (replaces (.colon _) segments)
          rw [if_neg colon]
          exact copies ssq dsq

/-- `parse` copies the literal pieces of the statement, and writes `$1`, `$2`
and so on for its placeholders, whose names it lists; the placeholders in the
places of their numbers give the statement again. -/
theorem placeholders_reversible
    (decimal : ∀ number : Nat,
      dcl.toStringInt number = (toString number).toList) (statement : Str) :
    ∃ segments, Divides segments statement ∧
      parse dcl statement =
        some (fill (fun number => '$' :: (toString number).toList)
            (number 0 segments),
          (labels segments).map Placeholder.name) ∧
      shape (number 0 segments) = shape segments ∧
      labels (number 0 segments) = List.range' 1 (labels segments).length ∧
      fill (labelled Placeholder.text (labels segments)) (number 0 segments) =
        statement := by
  obtain ⟨segments, divides, ran⟩ := @parseLoop_divides dcl
    (statement.length + 1) statement false false 0 [] []
    (Nat.lt_succ_self statement.length)
  have written : dollar dcl =
      fun number => '$' :: (toString number).toList := by
    funext number
    rw [dollar, decimal]
  refine ⟨segments, divides, ?_, shape_number 0 segments,
    labels_number 0 segments, (fill_number _ segments).trans divides.whole⟩
  unfold parse
  rw [ran, Produces, written]
  rfl

/-- Placeholders next to each other, at the end and without a name. -/
theorem placeholders_reversible_adjacent :
    ∃ segments, Divides segments "a = :id?::".toList ∧
      parse Dcl.plain "a = :id?::".toList =
        some (fill (fun number => '$' :: (toString number).toList)
            (number 0 segments),
          (labels segments).map Placeholder.name) ∧
      parse Dcl.plain "a = :id?::".toList =
        some ("a = $1$2$3$4".toList, ["id".toList, [], [], []]) ∧
      fill (labelled Placeholder.text (labels segments)) (number 0 segments) =
        "a = :id?::".toList := by
  obtain ⟨segments, divides, parsed, -, -, again⟩ :=
    @placeholders_reversible Dcl.plain (fun _ => rfl) "a = :id?::".toList
  exact ⟨segments, divides, parsed, by decide +kernel, again⟩

end Parsing

end TagQuery

end Pgsql

end DbPager
