import DbPager.Plain
import DbPager.Template
import Mathlib.Data.List.Chain

/-!
# Braces and escapes

`evaluator::eval` goes through a text character by character.  It remembers
the previous character to know what is escaped, and counts braces to know
what belongs to a brace group.  Three things about this loop do not go as
they should: an escaped backslash escapes the next character as well, an
escape inside a group is written at once, and the count may become negative.
-/

namespace DbPager

open Effect

variable {W : Type}

namespace Evaluator

section Steps

variable (outside : Outside W) (function : Str → Str → M W Str)
  (inner : Str → M W Str)

/-- After a backslash every character is written. -/
theorem evalLoop_escaped (c : Char) (rest : Str) (count : Int)
    (group out : Str) :
    evalLoop outside function inner (c :: rest) '\\' count group out =
      evalLoop outside function inner rest c count group (out ++ [c]) := by
  rw [evalLoop]
  rfl

variable {prev : Char} (start : prev ≠ '\\')
include start

theorem evalLoop_backslash (rest : Str) (count : Int) (group out : Str) :
    evalLoop outside function inner ('\\' :: rest) prev count group out =
      evalLoop outside function inner rest '\\' count group out := by
  rw [evalLoop, if_neg (by simpa using start)]
  rfl

theorem evalLoop_opening (rest : Str) (count : Int) (group out : Str) :
    evalLoop outside function inner ('\x7b' :: rest) prev count group out =
      evalLoop outside function inner rest '\x7b' (count + 1)
        (if count + 1 > 1 then group ++ ['\x7b'] else group) out := by
  rw [evalLoop, if_neg (by simpa using start)]
  rfl

theorem evalLoop_closing (rest : Str) {count : Int} (other : count ≠ 1)
    (group out : Str) :
    evalLoop outside function inner ('\x7d' :: rest) prev count group out =
      evalLoop outside function inner rest '\x7d' (count - 1)
        (group ++ ['\x7d']) out := by
  have more : ¬ count - 1 = 0 := by omega
  rw [evalLoop, if_neg (by simpa using start)]
  exact if_neg more

theorem evalLoop_other {c : Char} (plain : isPlainChar c = true)
    (rest : Str) (count : Int) (group out : Str) :
    evalLoop outside function inner (c :: rest) prev count group out =
      if count > 0 then
        evalLoop outside function inner rest c count (group ++ [c]) out
      else evalLoop outside function inner rest c count group (out ++ [c]) := by
  have others : (c ≠ '\x7b' ∧ c ≠ '\x7d') ∧ c ≠ '\\' := by
    simpa [isPlainChar] using plain
  obtain ⟨⟨opening, closing⟩, backslash⟩ := others
  rw [evalLoop, if_neg (by simpa using start), if_neg (by simpa using backslash),
    if_neg (by simpa using opening), if_neg (by simpa using closing)]

end Steps

/-! ## Escaped texts -/

/-- Every special character is preceded by a backslash. -/
def escape (text : Str) : Str :=
  text.flatMap fun c => if isPlainChar c then [c] else ['\\', c]

/-- What the loop makes of an escaped text: a special character after a
backslash brings its own backslash along. -/
def unescaped : Bool → Str → Str
  | _, [] => []
  | after, c :: rest =>
      (if after && !isPlainChar c then ['\\', c] else [c]) ++
        unescaped (c == '\\') rest

/-- No special character directly follows a backslash. -/
def Apart (text : Str) : Prop :=
  text.IsChain fun first second =>
    first = '\\' → isPlainChar second = true

section Escaping

variable (outside : Outside W) (function : Str → Str → M W Str)
  (inner : Str → M W Str)

theorem evalLoop_escape (text : Str) (prev : Char) (group out : Str) :
    evalLoop outside function inner (escape text) prev 0 group out =
      pure (out ++ unescaped (prev == '\\') text) := by
  induction text generalizing prev out with
  | nil =>
      rw [unescaped, List.append_nil]
      rfl
  | cons c text induction =>
      have rest : escape (c :: text) =
          (if isPlainChar c then [c] else ['\\', c]) ++ escape text :=
        List.flatMap_cons ..
      rw [rest, unescaped, ← List.append_assoc]
      by_cases after : prev = '\\'
      · subst after
        cases plain : isPlainChar c with
        | true =>
            rw [← induction]
            exact evalLoop_escaped outside function inner c _ 0 group out
        | false =>
            have both : out ++ ['\\', c] = out ++ ['\\'] ++ [c] := by simp
            rw [← induction]
            change evalLoop outside function inner
              ('\\' :: c :: escape text) '\\' 0 group out =
              evalLoop outside function inner (escape text) c 0 group
                (out ++ ['\\', c])
            rw [evalLoop_escaped, evalLoop_escaped, both]
      · have normal : (prev == '\\') = false := by simpa using after
        rw [normal]
        cases plain : isPlainChar c with
        | true =>
            rw [← induction]
            exact evalLoop_other outside function inner after plain _ 0 group
              out
        | false =>
            rw [← induction]
            exact (evalLoop_backslash outside function inner after _ 0 group
              out).trans (evalLoop_escaped outside function inner c _ 0 group
                out)

end Escaping

theorem length_le_unescaped (after : Bool) (text : Str) :
    text.length ≤ (unescaped after text).length := by
  induction text generalizing after with
  | nil => exact Nat.le_refl 0
  | cons c text induction =>
      have rest := induction (c == '\\')
      rw [unescaped, List.length_append, List.length_cons]
      split
      · simp only [List.length_cons, List.length_nil]
        omega
      · simp only [List.length_cons, List.length_nil]
        omega

/-- The text comes back if nothing special follows a backslash. -/
theorem unescaped_eq_iff (prev : Char) (text : Str) :
    unescaped (prev == '\\') text = text ↔ Apart (prev :: text) := by
  induction text generalizing prev with
  | nil =>
      constructor
      · intro _
        exact List.isChain_singleton prev
      · intro _
        rfl
  | cons c text induction =>
      have step : Apart (prev :: c :: text) ↔
          (prev = '\\' → isPlainChar c = true) ∧ Apart (c :: text) :=
        List.isChain_cons_cons
      rw [step, unescaped, ← induction]
      by_cases doubled : (prev == '\\' && !isPlainChar c) = true
      · rw [if_pos doubled]
        obtain ⟨after, special⟩ := Bool.and_eq_true_iff.mp doubled
        constructor
        · intro same
          have longer := congrArg List.length same
          have rest := length_le_unescaped (c == '\\') text
          simp only [List.length_append, List.length_cons, List.length_nil]
            at longer
          omega
        · rintro ⟨plain, -⟩
          rw [plain (eq_of_beq after)] at special
          cases special
      · rw [if_neg doubled]
        constructor
        · intro same
          constructor
          · rintro rfl
            simpa using doubled
          · exact List.tail_eq_of_cons_eq same
        · rintro ⟨-, same⟩
          exact congrArg (c :: ·) same

/-- An escaped text evaluates to the text exactly when none of its
backslashes stands before a brace or another backslash. -/
theorem escaping_round_trip (outside : Outside W)
    (function : Str → Str → M W Str) (text : Str) (state : St W) :
    evaluate outside function (escape text) state =
        ⟨state, [], .value text⟩ ↔
      Apart text := by
  have whole : evaluate outside function (escape text) state =
      ⟨state, [], .value (unescaped false text)⟩ := by
    have loop := evalLoop_escape outside function
      (eval outside function (escape text).length) text (Char.ofNat 0) [] []
    exact congrFun loop state
  have blank : Apart (Char.ofNat 0 :: text) ↔ Apart text := by
    cases text with
    | nil =>
        constructor
        · intro _
          exact List.isChain_nil
        · intro _
          exact List.isChain_singleton _
    | cons c text =>
        apply List.isChain_cons_cons.trans
        constructor
        · exact And.right
        · intro apart
          exact ⟨fun same => absurd same (by decide), apart⟩
  rw [whole, ← blank, ← unescaped_eq_iff]
  constructor
  · intro same
    exact Outcome.value.inj (congrArg Run.outcome same)
  · intro same
    have plain : unescaped false text = text := same
    rw [plain]

/-- A backslash before a brace comes back doubled. -/
theorem escaped_backslash_doubled :
    (evaluate (Outside.closed Unit) (fun _ _ => pure [])
      (escape "\\\x7b".toList) (St.fresh [])).outcome =
      .value "\\\\\x7b".toList := by
  rfl

/-! ## Counting braces -/

/-- How a character changes the count of open braces. -/
def rise (c : Char) : Int :=
  if c = '\x7b' then 1 else if c = '\x7d' then -1 else 0

def height : Str → Int
  | [] => 0
  | c :: text => rise c + height text

theorem rise_opening : rise '\x7b' = 1 :=
  rfl

theorem rise_closing : rise '\x7d' = -1 :=
  rfl

theorem height_append (first second : Str) :
    height (first ++ second) = height first + height second := by
  induction first with
  | nil => exact (Int.zero_add _).symm
  | cons c first induction =>
      rw [List.cons_append, height, induction, height, Int.add_assoc]

theorem height_eq_count (text : Str) :
    height text = (text.count '\x7b' : Int) - text.count '\x7d' := by
  induction text with
  | nil => rfl
  | cons c text induction =>
      rw [height, induction]
      unfold rise
      by_cases opening : c = '\x7b'
      · subst opening
        rw [if_pos rfl, List.count_cons_self, List.count_cons_of_ne (by decide)]
        omega
      · rw [if_neg opening, List.count_cons_of_ne opening]
        by_cases closing : c = '\x7d'
        · subst closing
          rw [if_pos rfl, List.count_cons_self]
          omega
        · rw [if_neg closing, List.count_cons_of_ne closing]
          omega

/-- Every beginning of the text has at least as many opening braces as
closing ones, and the whole as many. -/
def WellNested (text : Str) : Prop :=
  (∀ start, start <+: text → start.count '\x7d' ≤ start.count '\x7b') ∧
    text.count '\x7d' = text.count '\x7b'

/-- The count has the property at every point of the text. -/
def Throughout (holds : Int → Prop) (count : Int) (text : Str) : Prop :=
  ∀ start, start <+: text → holds (count + height start)

theorem throughout_nil (holds : Int → Prop) (count : Int) :
    Throughout holds count [] ↔ holds count := by
  constructor
  · intro all
    have here := all [] List.prefix_rfl
    rwa [height, Int.add_zero] at here
  · intro here start before
    rw [List.prefix_nil.mp before, height, Int.add_zero]
    exact here

theorem throughout_cons (holds : Int → Prop) (count : Int) (c : Char)
    (text : Str) :
    Throughout holds count (c :: text) ↔
      holds count ∧ Throughout holds (count + rise c) text := by
  constructor
  · intro all
    constructor
    · have here := all [] List.nil_prefix
      rwa [height, Int.add_zero] at here
    · intro start before
      have later := all (c :: start) ((List.prefix_cons_inj c).mpr before)
      rwa [height, ← Int.add_assoc] at later
  · rintro ⟨here, later⟩ start before
    rcases List.prefix_cons_iff.mp before with rfl | ⟨rest, rfl, inside⟩
    · rw [height, Int.add_zero]
      exact here
    · rw [height, ← Int.add_assoc]
      exact later rest inside

theorem wellNested_iff (text : Str) :
    WellNested text ↔ Throughout (0 ≤ ·) 0 text ∧ height text = 0 := by
  have shown (start : Str) :
      start.count '\x7d' ≤ start.count '\x7b' ↔ 0 ≤ 0 + height start := by
    rw [height_eq_count]
    omega
  unfold WellNested Throughout
  simp only [shown]
  rw [height_eq_count]
  constructor
  · rintro ⟨nested, same⟩
    exact ⟨nested, by omega⟩
  · rintro ⟨nested, same⟩
    exact ⟨nested, by omega⟩

/-- The first closing brace without an opening one. -/
theorem exists_unmatched {text : Str} {count : Int} (start : 0 ≤ count)
    (dips : ¬ Throughout (0 ≤ ·) count text) :
    ∃ before after, text = before ++ '\x7d' :: after ∧
      Throughout (0 ≤ ·) count before ∧ count + height before = 0 := by
  induction text generalizing count with
  | nil => exact absurd ((throughout_nil _ count).mpr start) dips
  | cons c text induction =>
      by_cases next : 0 ≤ count + rise c
      · have later : ¬ Throughout (0 ≤ ·) (count + rise c) text := by
          intro inside
          exact dips ((throughout_cons _ count c text).mpr ⟨start, inside⟩)
        obtain ⟨before, after, rfl, nested, level⟩ := induction next later
        refine ⟨c :: before, after, rfl, ?_, ?_⟩
        · exact (throughout_cons _ count c before).mpr ⟨start, nested⟩
        · rw [height, ← Int.add_assoc]
          exact level
      · have closing : c = '\x7d' ∧ count = 0 := by
          unfold rise at next
          split at next
          · omega
          · split at next
            case isTrue closing => exact ⟨closing, by omega⟩
            case isFalse => omega
        obtain ⟨rfl, rfl⟩ := closing
        exact ⟨[], text, rfl, (throughout_nil _ 0).mpr start, rfl⟩

/-- There is only one first unmatched brace. -/
theorem unmatched_unique {before after first second : Str}
    (same : before ++ '\x7d' :: after = first ++ '\x7d' :: second)
    (nested : WellNested before) (other : WellNested first) :
    before = first ∧ after = second := by
  -- Of two such beginnings, neither can go past the end of the other.
  have notLonger {first second third fourth : Str} (shorter : WellNested first)
      (longer : WellNested third)
      (both : first ++ '\x7d' :: second = third ++ '\x7d' :: fourth) :
      third.length ≤ first.length := by
    by_contra beyond
    have here : first ++ ['\x7d'] <+: first ++ '\x7d' :: second :=
      ⟨second, by simp⟩
    have there : third <+: first ++ '\x7d' :: second := by
      rw [both]
      exact List.prefix_append ..
    have taken : first ++ ['\x7d'] <+: third := by
      apply List.prefix_of_prefix_length_le here there
      simp only [List.length_append, List.length_singleton]
      omega
    have level := longer.1 _ taken
    have balanced := shorter.2
    rw [List.count_append, List.count_append, balanced] at level
    simp at level
  have lengths : before.length = first.length :=
    Nat.le_antisymm (notLonger other nested same.symm)
      (notLonger nested other same)
  obtain ⟨heads, tails⟩ := List.append_inj same lengths
  exact ⟨heads, List.tail_eq_of_cons_eq tails⟩

/-- A character is a backslash, a brace, or plain. -/
theorem char_cases (c : Char) (escape : c ≠ '\\') :
    c = '\x7b' ∨ c = '\x7d' ∨ (isPlainChar c = true ∧ rise c = 0) := by
  by_cases opening : c = '\x7b'
  · exact .inl opening
  by_cases closing : c = '\x7d'
  · exact .inr (.inl closing)
  right
  right
  constructor
  · simp [isPlainChar, opening, closing, escape]
  · unfold rise
    rw [if_neg opening, if_neg closing]

def Returns {α : Type} (run : Run (St W) Exc Char α) : Prop :=
  ∃ value, run.outcome = .value value

theorem returns_bind {α β : Type} {first : M W α} {next : α → M W β}
    {state : St W} :
    Returns ((first >>= next) state) ↔
      ∃ middle out value, first state = ⟨middle, out, .value value⟩ ∧
        Returns (next value middle) := by
  constructor
  · rintro ⟨result, returned⟩
    cases ran : (first >>= next) state with
    | mk final out outcome =>
        rw [ran] at returned
        cases returned
        obtain ⟨middle, value, written, rest, head, tail, -⟩ :=
          Prog.of_bind_value ran
        exact ⟨middle, written, value, head, result, by rw [tail]⟩
  · rintro ⟨middle, out, value, head, result, tail⟩
    exact ⟨result, by rw [Prog.bind_eq head, tail]⟩

section Counting

variable {outside : Outside W} {function : Str → Str → M W Str}
  {inner : Str → M W Str} {state : St W} {prev : Char} {count : Int}
  {group out : Str}

/-- The count at the end is zero. -/
theorem height_of_returns {text : Str} (plain : '\\' ∉ text)
    (start : prev ≠ '\\')
    (returned : Returns
      (evalLoop outside function inner text prev count group out state)) :
    count + height text = 0 := by
  induction text generalizing prev count group out state with
  | nil =>
      unfold evalLoop at returned
      by_cases level : count = 0
      · rw [level]
        rfl
      · rw [if_pos level] at returned
        obtain ⟨_, raised⟩ := returned
        cases raised
  | cons c text induction =>
      obtain ⟨here, later⟩ := List.ne_and_not_mem_of_not_mem_cons plain
      rw [height, ← Int.add_assoc]
      rcases char_cases c (Ne.symm here) with rfl | rfl | ⟨other, level⟩
      · rw [evalLoop_opening outside function inner start] at returned
        exact induction later (by decide) returned
      · by_cases last : count = 1
        · subst last
          rw [evalLoop_close outside function inner _ _ _ _ start]
            at returned
          obtain ⟨_, _, _, -, returned⟩ := returns_bind.mp returned
          obtain ⟨_, _, _, -, returned⟩ := returns_bind.mp returned
          exact induction later (by decide) returned
        · rw [evalLoop_closing outside function inner start _ last]
            at returned
          exact induction later (by decide) returned
      · rw [evalLoop_other outside function inner start other] at returned
        rw [level, Int.add_zero]
        split at returned
        · exact induction later (Ne.symm here) returned
        · exact induction later (Ne.symm here) returned

theorem height_of_eval {budget : Nat} {text : Str} (plain : '\\' ∉ text)
    (returned : Returns (eval outside function budget text state)) :
    height text = 0 := by
  cases budget with
  | zero =>
      obtain ⟨_, stopped⟩ := returned
      cases stopped
  | succ budget =>
      have level := height_of_returns plain (by decide) returned
      rwa [Int.zero_add] at level

/-- A group that has collected too many closing braces is not evaluated. -/
theorem not_returns_group {budget : Nat} {text : Str} (plain : '\\' ∉ text)
    (start : prev ≠ '\\') (collected : '\\' ∉ group) (inside : 1 ≤ count)
    (low : height group < count - 1) :
    ¬ Returns (evalLoop outside function (eval outside function budget) text
      prev count group out state) := by
  induction text generalizing prev count group out with
  | nil =>
      intro returned
      have level := height_of_returns plain start returned
      rw [height] at level
      omega
  | cons c text induction =>
      obtain ⟨here, later⟩ := List.ne_and_not_mem_of_not_mem_cons plain
      have more : '\\' ∉ group ++ [c] := by
        simp [collected, here]
      have grown : height (group ++ [c]) = height group + rise c := by
        rw [height_append, height, height, Int.add_zero]
      rcases char_cases c (Ne.symm here) with rfl | rfl | ⟨other, level⟩
      · rw [evalLoop_opening outside function _ start, if_pos (by omega)]
        apply induction later (by decide) more (by omega)
        rw [grown, rise_opening]
        omega
      · by_cases last : count = 1
        · subst last
          intro returned
          rw [evalLoop_close outside function _ _ _ _ _ start] at returned
          obtain ⟨_, _, _, ran, -⟩ := returns_bind.mp returned
          have level := height_of_eval collected ⟨_, by rw [ran]⟩
          omega
        · rw [evalLoop_closing outside function _ start _ last]
          apply induction later (by decide) more (by omega)
          rw [grown, rise_closing]
          omega
      · rw [evalLoop_other outside function _ start other, if_pos (by omega)]
        apply induction later (Ne.symm here) more inside
        rw [grown, level]
        omega

/-- Once the count has been negative, it must not become positive. -/
theorem returns_below {budget : Nat} {text : Str} (plain : '\\' ∉ text)
    (start : prev ≠ '\\') (collected : '\\' ∉ group) (below : count ≤ 0)
    (low : height group < 0) :
    Returns (evalLoop outside function (eval outside function budget) text
        prev count group out state) ↔
      Throughout (· ≤ 0) count text ∧ count + height text = 0 := by
  induction text generalizing prev count group out with
  | nil =>
      rw [throughout_nil]
      constructor
      · intro returned
        exact ⟨below, height_of_returns plain start returned⟩
      · rintro ⟨-, level⟩
        rw [height, Int.add_zero] at level
        rw [level]
        exact ⟨out, rfl⟩
  | cons c text induction =>
      obtain ⟨here, later⟩ := List.ne_and_not_mem_of_not_mem_cons plain
      have now : (fun count : Int => count ≤ 0) count := below
      rw [throughout_cons, and_iff_right now, height, ← Int.add_assoc]
      rcases char_cases c (Ne.symm here) with rfl | rfl | ⟨other, level⟩
      · rw [evalLoop_opening outside function _ start, if_neg (by omega),
          rise_opening]
        by_cases rises : count = 0
        · subst rises
          constructor
          · intro returned
            exact absurd returned (not_returns_group later (by decide)
              collected (by omega) (by omega))
          · rintro ⟨capped, -⟩
            have next := capped [] List.nil_prefix
            rw [height] at next
            omega
        · exact induction later (by decide) collected (by omega) low
      · have more : '\\' ∉ group ++ ['\x7d'] := by simp [collected]
        have lower : height (group ++ ['\x7d']) < 0 := by
          rw [height_append, height, height, rise_closing]
          omega
        rw [evalLoop_closing outside function _ start _ (by omega),
          rise_closing]
        exact induction later (by decide) more (by omega) lower
      · rw [evalLoop_other outside function _ start other, if_neg (by omega),
          level, Int.add_zero]
        exact induction later (Ne.symm here) collected below low

/-- The character before the rest of a text. -/
def lastChar (prev : Char) (text : Str) : Char :=
  text.foldl (fun _ c => c) prev

theorem lastChar_ne {text : Str} (start : prev ≠ '\\')
    (plain : '\\' ∉ text) : lastChar prev text ≠ '\\' := by
  induction text generalizing prev with
  | nil => exact start
  | cons c text induction =>
      obtain ⟨here, later⟩ := List.ne_and_not_mem_of_not_mem_cons plain
      exact induction (Ne.symm here) later

/-- A text that is nested up to some point is evaluated up to that point
first. -/
theorem evalLoop_append {before : Str} (rest : Str) (plain : '\\' ∉ before)
    (start : prev ≠ '\\') (nested : Throughout (0 ≤ ·) count before)
    (level : count + height before = 0) (blank : count = 0 → group = []) :
    evalLoop outside function inner (before ++ rest) prev count group out =
      evalLoop outside function inner before prev count group out >>=
        fun written =>
          evalLoop outside function inner rest (lastChar prev before) 0 []
            written := by
  induction before generalizing prev count group out with
  | nil =>
      rw [height, Int.add_zero] at level
      subst level
      rw [blank rfl]
      rfl
  | cons c before induction =>
      obtain ⟨here, later⟩ := List.ne_and_not_mem_of_not_mem_cons plain
      obtain ⟨now, nested⟩ := (throughout_cons _ count c before).mp nested
      have now : 0 ≤ count := now
      rw [height, ← Int.add_assoc] at level
      rw [List.cons_append]
      rcases char_cases c (Ne.symm here) with rfl | rfl | ⟨other, flat⟩
      · rw [rise_opening] at nested level
        rw [evalLoop_opening outside function inner start,
          evalLoop_opening outside function inner start]
        exact induction later (by decide) nested level (by omega)
      · rw [rise_closing] at nested level
        by_cases last : count = 1
        · subst last
          rw [evalLoop_close outside function inner _ _ _ _ start,
            evalLoop_close outside function inner _ _ _ _ start,
            Prog.bind_assoc]
          congr 1
          funext text
          rw [Prog.bind_assoc]
          congr 1
          funext value
          exact induction later (by decide) nested level fun _ => rfl
        · rw [evalLoop_closing outside function inner start _ last,
            evalLoop_closing outside function inner start _ last]
          have positive : 0 ≤ count - 1 := by
            have next := nested [] List.nil_prefix
            rw [height] at next
            omega
          exact induction later (by decide) nested level (by omega)
      · rw [flat, Int.add_zero] at nested level
        rw [evalLoop_other outside function inner start other,
          evalLoop_other outside function inner start other]
        split
        · exact induction later (Ne.symm here) nested level (by omega)
        · exact induction later (Ne.symm here) nested level blank

end Counting

section Budget

variable (outside : Outside W) (function : Str → Str → M W Str)

/-- A group is shorter than the text it stands in. -/
theorem evalLoop_congr {inner other : Str → M W Str} {bound : Nat}
    (same : ∀ group, group.length < bound → inner group = other group)
    (text : Str) (prev : Char) (count : Int) (group out : Str)
    (short : group.length + text.length ≤ bound) :
    evalLoop outside function inner text prev count group out =
      evalLoop outside function other text prev count group out := by
  induction text generalizing prev count group out with
  | nil => rfl
  | cons c text induction =>
      rw [List.length_cons] at short
      have kept := fun prev count out =>
        induction prev count group out (by omega)
      have grown := fun prev count out =>
        induction prev count (group ++ [c]) out (by
          rw [List.length_append, List.length_singleton]
          omega)
      by_cases escaped : prev = '\\'
      · subst escaped
        rw [evalLoop_escaped, evalLoop_escaped]
        exact kept ..
      by_cases backslash : c = '\\'
      · subst backslash
        rw [evalLoop_backslash outside function inner escaped,
          evalLoop_backslash outside function other escaped]
        exact kept ..
      rcases char_cases c backslash with rfl | rfl | ⟨plain, -⟩
      · rw [evalLoop_opening outside function inner escaped,
          evalLoop_opening outside function other escaped]
        split
        · exact grown ..
        · exact kept ..
      · by_cases last : count = 1
        · subst last
          rw [evalLoop_close outside function inner _ _ _ _ escaped,
            evalLoop_close outside function other _ _ _ _ escaped,
            same group (by omega)]
          congr 1
          funext inside
          congr 1
          funext value
          exact induction _ 0 [] _ (by rw [List.length_nil]; omega)
        · rw [evalLoop_closing outside function inner escaped _ last,
            evalLoop_closing outside function other escaped _ last]
          exact grown ..
      · rw [evalLoop_other outside function inner escaped plain,
          evalLoop_other outside function other escaped plain]
        split
        · exact grown ..
        · exact kept ..

/-- Any budget beyond the length of the text will do. -/
theorem eval_congr {first second : Nat} {text : Str}
    (one : text.length < first) (two : text.length < second) :
    eval outside function first text = eval outside function second text := by
  induction first generalizing second text with
  | zero => cases one
  | succ first induction =>
      cases second with
      | zero => cases two
      | succ second =>
          have same : ∀ group : Str, group.length < text.length →
              eval outside function first group =
                eval outside function second group := by
            intro group shorter
            exact induction (by omega) (by omega)
          exact evalLoop_congr outside function same text _ 0 [] [] (by simp)

end Budget

/-- The braces make the evaluation return although they are not nested: the
text is nested up to an unmatched brace, and after it the count comes back to
zero without ever becoming positive. -/
def Crossed (outside : Outside W) (function : Str → Str → M W Str)
    (state : St W) (text : Str) : Prop :=
  ∃ before after, text = before ++ '\x7d' :: after ∧ WellNested before ∧
    Throughout (· ≤ 0) (-1) after ∧ height after = 1 ∧
    Returns (evaluate outside function before state)

theorem evaluate_unmatched (outside : Outside W)
    (function : Str → Str → M W Str) (state : St W) {before after : Str}
    (plain : '\\' ∉ before ++ '\x7d' :: after) (nested : WellNested before) :
    Returns (evaluate outside function (before ++ '\x7d' :: after) state) ↔
      Throughout (· ≤ 0) (-1) after ∧ height after = 1 ∧
        Returns (evaluate outside function before state) := by
  have left : '\\' ∉ before := fun member =>
    plain (List.mem_append_left _ member)
  have right : '\\' ∉ after := fun member =>
    plain (List.mem_append_right _ (List.mem_cons_of_mem _ member))
  obtain ⟨positive, level⟩ := (wellNested_iff before).mp nested
  let whole := (before ++ '\x7d' :: after).length
  let inner := eval outside function whole
  let last := lastChar (Char.ofNat 0) before
  have start : Char.ofNat 0 ≠ '\\' := by decide
  have first : evaluate outside function before =
      evalLoop outside function inner before (Char.ofNat 0) 0 [] [] := by
    have enough : before.length < whole + 1 := by
      simp only [whole, List.length_append]
      omega
    exact eval_congr outside function (Nat.lt_succ_self _) enough
  have split : evaluate outside function (before ++ '\x7d' :: after) =
      evaluate outside function before >>= fun written =>
        evalLoop outside function inner ('\x7d' :: after) last 0 []
          written := by
    rw [first]
    exact evalLoop_append _ left start positive (by omega) fun _ => rfl
  have below (written : Str) (middle : St W) :
      Returns (evalLoop outside function inner ('\x7d' :: after) last 0 []
        written middle) ↔
        Throughout (· ≤ 0) (-1) after ∧ height after = 1 := by
    have before : last ≠ '\\' := lastChar_ne start left
    rw [evalLoop_closing outside function inner before _ (by decide)]
    apply (returns_below right (by decide) (by decide) (by decide)
      (by decide)).trans
    constructor
    · rintro ⟨capped, level⟩
      exact ⟨capped, by omega⟩
    · rintro ⟨capped, level⟩
      exact ⟨capped, by omega⟩
  rw [split, returns_bind]
  constructor
  · rintro ⟨middle, out, written, ran, returned⟩
    obtain ⟨capped, rises⟩ := (below written middle).mp returned
    exact ⟨capped, rises, written, by rw [ran]⟩
  · rintro ⟨capped, rises, written, returned⟩
    cases ran : evaluate outside function before state with
    | mk middle out outcome =>
        rw [ran] at returned
        cases returned
        exact ⟨middle, out, written, rfl,
          (below written middle).mpr ⟨capped, rises⟩⟩

/-- A text without backslashes is rejected if its braces are not nested,
except where they cross. -/
theorem unbalanced_rejected (outside : Outside W)
    (function : Str → Str → M W Str) (state : St W) (text : Str)
    (plain : '\\' ∉ text) :
    (Returns (evaluate outside function text state) → WellNested text) ↔
      ¬ Crossed outside function state text := by
  by_cases nested : Throughout (0 ≤ ·) 0 text
  · have level (returned : Returns (evaluate outside function text state)) :
        WellNested text :=
      (wellNested_iff text).mpr ⟨nested, height_of_eval plain returned⟩
    apply iff_of_true level
    rintro ⟨before, after, rfl, balanced, -⟩
    have dips := nested (before ++ ['\x7d']) ⟨after, by simp⟩
    rw [height_append, ((wellNested_iff before).mp balanced).2] at dips
    exact absurd dips (by decide)
  · obtain ⟨before, after, rfl, balanced, level⟩ :=
      exists_unmatched (Int.le_refl 0) nested
    have balanced : WellNested before :=
      (wellNested_iff before).mpr ⟨balanced, by omega⟩
    have crossed : ¬ WellNested (before ++ '\x7d' :: after) := by
      intro wellNested
      exact nested ((wellNested_iff _).mp wellNested).1
    have returns := evaluate_unmatched outside function state plain balanced
    constructor
    · rintro rejects ⟨first, second, same, other, capped, rises, ran⟩
      obtain ⟨rfl, rfl⟩ := unmatched_unique same balanced other
      exact crossed (rejects (returns.mpr ⟨capped, rises, ran⟩))
    · intro straight returned
      obtain ⟨capped, rises, ran⟩ := returns.mp returned
      exact absurd ⟨before, after, rfl, balanced, capped, rises, ran⟩ straight

/-- A variable between two letters. -/
theorem unbalanced_rejected_variable : WellNested "a\x7b$x\x7db".toList := by
  apply (unbalanced_rejected (Outside.closed Unit) (fun _ _ => pure [])
    (St.fresh []) "a\x7b$x\x7db".toList (by decide)).mpr
  · rintro ⟨before, after, same, balanced, -⟩
    -- What stands before the closing brace has an opening one.
    have cut : before = "a\x7b$x".toList := by
      rcases before with _ | ⟨_, _ | ⟨_, _ | ⟨_, _ | ⟨_, _ | ⟨_, before⟩⟩⟩⟩⟩
      all_goals simp at same
      · obtain ⟨rfl, rfl, rfl, rfl, -⟩ := same
        rfl
      · cases before <;> simp at same
    rw [cut] at balanced
    exact absurd balanced.2 (by decide)
  · exact ⟨"ab".toList, rfl⟩

/-- A closing brace before an opening one is accepted. -/
theorem crossed_braces_accepted :
    Returns (evaluate (Outside.closed Unit) (fun _ _ => pure [])
        "\x7d\x7b".toList (St.fresh [])) ∧
      ¬ WellNested "\x7d\x7b".toList := by
  constructor
  · exact ⟨[], rfl⟩
  · rintro ⟨nested, -⟩
    have first := nested ['\x7d'] ⟨['\x7b'], rfl⟩
    exact absurd first (by decide)

/-! ## Segments -/

/-- What the loop writes: a character of the text, or the value of a group. -/
inductive Segment where
  | literal (c : Char)
  | value (group : Str)
  deriving DecidableEq

/-- The segments of a text in which a backslash escapes the character after
it; `escaped` says that the next character is.  There are none if the
unescaped braces are not balanced. -/
def segments : Str → Bool → Nat → Str → Option (List Segment)
  | [], _, depth, _ => if depth = 0 then some [] else none
  | c :: rest, true, depth, group =>
      if depth = 0 then (segments rest false 0 []).map (.literal c :: ·)
      else segments rest false depth (group ++ ['\\', c])
  | c :: rest, false, depth, group =>
      if c == '\\' then segments rest true depth group
      else if c == '\x7b' then
        segments rest false (depth + 1)
          (if depth = 0 then [] else group ++ [c])
      else if c == '\x7d' then
        if depth = 0 then none
        else if depth = 1 then
          (segments rest false 0 []).map (.value group :: ·)
        else segments rest false (depth - 1) (group ++ [c])
      else if depth = 0 then (segments rest false 0 []).map (.literal c :: ·)
      else segments rest false depth (group ++ [c])

/-- Backslashes stand outside of groups only, and after an escaped one
(`after`) there is no brace and no backslash. -/
def separable : Str → Bool → Bool → Nat → Bool
  | [], _, _, _ => true
  | c :: rest, true, _, depth => separable rest false (c == '\\') depth
  | c :: rest, false, after, depth =>
      !(after && !isPlainChar c) &&
        if c == '\\' then depth == 0 && separable rest true false depth
        else if c == '\x7b' then separable rest false false (depth + 1)
        else if c == '\x7d' then separable rest false false (depth - 1)
        else separable rest false false depth

/-- What the loop writes, and whether the braces are balanced at the end. -/
def writes : Str → Char → Int → Str → List Segment × Bool
  | [], _, count, _ => ([], count == 0)
  | c :: rest, prev, count, group =>
      let write (segment : Segment) (tail : List Segment × Bool) :=
        (segment :: tail.1, tail.2)
      if prev == '\\' then write (.literal c) (writes rest c count group)
      else if c == '\\' then writes rest c count group
      else if c == '\x7b' then
        writes rest c (count + 1)
          (if count + 1 > 1 then group ++ [c] else group)
      else if c == '\x7d' then
        if count - 1 = 0 then write (.value group) (writes rest c 0 [])
        else writes rest c (count - 1) (group ++ [c])
      else if count > 0 then writes rest c count (group ++ [c])
      else write (.literal c) (writes rest c count group)

/-- Write the segments one after the other. -/
def perform (outside : Outside W) (function : Str → Str → M W Str)
    (inner : Str → M W Str) : List Segment → Bool → Str → M W Str
  | [], balanced, out =>
      if balanced then pure out
      else
        Prog.throw
          (outside.dcl.exception "unbalanced expression braces found" [])
  | .literal c :: rest, balanced, out =>
      perform outside function inner rest balanced (out ++ [c])
  | .value group :: rest, balanced, out => do
      let value ← calculate outside function (← inner group)
      perform outside function inner rest balanced (out ++ value)

/-- The loop does nothing but write. -/
theorem evalLoop_eq_perform (outside : Outside W)
    (function : Str → Str → M W Str) (inner : Str → M W Str) (text : Str)
    (prev : Char) (count : Int) (group out : Str) :
    evalLoop outside function inner text prev count group out =
      perform outside function inner (writes text prev count group).1
        (writes text prev count group).2 out := by
  induction text generalizing prev count group out with
  | nil =>
      unfold evalLoop writes perform
      by_cases level : count = 0
      · rw [if_neg (not_not.mpr level), if_pos (beq_iff_eq.mpr level)]
      · rw [if_pos level, if_neg (by simpa using level)]
  | cons c text induction =>
      rw [evalLoop, writes]
      split
      · exact induction ..
      split
      · exact induction ..
      split
      · exact induction ..
      split
      · split
        · unfold perform
          congr 1
          funext inside
          congr 1
          funext value
          exact induction ..
        · exact induction ..
      split
      · exact induction ..
      · exact induction ..

/-- Inside of a group, the next segment is the value of the group. -/
theorem segments_inside {text : Str} {escaped : Bool} {depth : Nat}
    {group : Str} {found : List Segment} (inside : depth ≠ 0)
    (cut : segments text escaped depth group = some found) :
    ∃ whole rest, found = .value whole :: rest := by
  induction text generalizing escaped depth group with
  | nil =>
      rw [segments, if_neg inside] at cut
      cases cut
  | cons c text induction =>
      cases escaped with
      | true =>
          rw [segments, if_neg inside] at cut
          exact induction inside cut
      | false =>
          rw [segments] at cut
          split at cut
          · exact induction inside cut
          split at cut
          · exact induction (Nat.succ_ne_zero depth) cut
          split at cut
          · split at cut
            · obtain ⟨rest, -, rfl⟩ := Option.map_eq_some_iff.mp cut
              exact ⟨group, rest, rfl⟩
            · exact induction (by omega) cut
          · exact induction inside cut

theorem writes_escaped (c : Char) (rest : Str) (count : Int) (group : Str) :
    writes (c :: rest) '\\' count group =
      (.literal c :: (writes rest c count group).1,
        (writes rest c count group).2) := by
  rw [writes]
  rfl

/-- A loop that has written too many backslashes never falls back in step. -/
theorem writes_ahead {text : Str} {escaped : Bool} {found : List Segment}
    (ahead : Nat) (cut : segments text escaped 0 [] = some found) :
    List.replicate (ahead + 1) (.literal '\\') ++ (writes text '\\' 0 []).1 ≠
      found := by
  induction text generalizing escaped found ahead with
  | nil =>
      rw [segments, if_pos rfl] at cut
      cases cut
      intro same
      cases same
  | cons c text induction =>
      rw [writes_escaped]
      cases escaped with
      | true =>
          rw [segments, if_pos rfl] at cut
          obtain ⟨rest, later, rfl⟩ := Option.map_eq_some_iff.mp cut
          intro same
          obtain ⟨head, tail⟩ := List.cons_eq_cons.mp same
          cases head
          have tail : List.replicate ahead (.literal '\\') ++
              .literal '\\' :: (writes text '\\' 0 []).1 = rest := tail
          rw [List.append_cons, ← List.replicate_succ'] at tail
          exact induction ahead later tail
      | false =>
          rw [segments] at cut
          split at cut
          case isTrue backslash =>
            rw [eq_of_beq backslash, List.append_cons,
              ← List.replicate_succ']
            exact induction (ahead + 1) cut
          split at cut
          · obtain ⟨group, rest, rfl⟩ :=
              segments_inside (Nat.succ_ne_zero 0) cut
            intro same
            cases same
          split at cut
          · cases cut
          case isFalse backslash _ _ =>
            obtain ⟨rest, -, rfl⟩ := Option.map_eq_some_iff.mp cut
            intro same
            obtain ⟨head, -⟩ := List.cons_eq_cons.mp same
            cases head
            exact backslash rfl

/-- The loop and the segmentation are in step: the loop takes the next
character for escaped where it is, or where the backslash before it was. -/
structure InStep (escaped after : Bool) (depth : Nat) (prev : Char)
    (group : Str) : Prop where
  prev : (prev == '\\') = (escaped || after)
  outside : escaped = true ∨ after = true → depth = 0
  one : ¬ (escaped = true ∧ after = true)
  blank : depth = 0 → group = []

theorem InStep.next {c : Char} {depth : Nat} {group : Str}
    (other : (c == '\\') = false) (blank : depth = 0 → group = []) :
    InStep false false depth c group where
  prev := other
  outside := by
    rintro (absent | absent)
    · cases absent
    · cases absent
  one := by
    rintro ⟨absent, -⟩
    cases absent
  blank := blank

/-- After a backslash outside of groups. -/
theorem InStep.escape (escaped after : Bool)
    (one : ¬ (escaped = true ∧ after = true)) {c : Char}
    (prev : (c == '\\') = (escaped || after)) :
    InStep escaped after 0 c [] where
  prev := prev
  outside := fun _ => rfl
  one := one
  blank := fun _ => rfl

theorem plain_ne {c : Char} (plain : isPlainChar c = true) :
    (c == '\\') = false ∧ (c == '\x7b') = false ∧ (c == '\x7d') = false := by
  simp only [isPlainChar, Bool.and_eq_true, bne_iff_ne, ne_eq] at plain
  obtain ⟨⟨opening, closing⟩, backslash⟩ := plain
  exact ⟨beq_eq_false_iff_ne.mpr backslash, beq_eq_false_iff_ne.mpr opening,
    beq_eq_false_iff_ne.mpr closing⟩

theorem written_iff {segment : Segment} {written : List Segment × Bool}
    {found : List Segment} :
    (segment :: written.1, written.2) = (segment :: found, true) ↔
      written = (found, true) := by
  constructor
  · intro same
    have first : written.1 = found :=
      List.tail_eq_of_cons_eq (congrArg Prod.fst same)
    have second : written.2 = true := congrArg Prod.snd same
    exact Prod.ext first second
  · intro same
    rw [same]

theorem writes_iff {text : Str} {escaped after : Bool} {depth : Nat}
    {prev : Char} {group : Str} {found : List Segment}
    (step : InStep escaped after depth prev group)
    (cut : segments text escaped depth group = some found) :
    writes text prev depth group = (found, true) ↔
      separable text escaped after depth = true := by
  induction text generalizing escaped after depth prev group found with
  | nil =>
      rw [segments] at cut
      split at cut
      case isTrue level =>
        cases cut
        subst level
        exact iff_of_true rfl rfl
      case isFalse =>
        cases cut
  | cons c text induction =>
      cases escaped with
      | true =>
          obtain rfl := step.outside (.inl rfl)
          obtain rfl := eq_of_beq step.prev
          rw [segments, if_pos rfl] at cut
          obtain ⟨rest, later, rfl⟩ := Option.map_eq_some_iff.mp cut
          rw [step.blank rfl, writes_escaped, written_iff, separable]
          apply induction _ later
          apply InStep.escape
          · rintro ⟨absent, -⟩
            cases absent
          · rfl
      | false =>
          cases after with
          | true =>
              obtain rfl := step.outside (.inr rfl)
              obtain rfl := eq_of_beq step.prev
              obtain rfl := step.blank rfl
              rw [writes_escaped]
              cases plain : isPlainChar c with
              | true =>
                  obtain ⟨backslash, opening, closing⟩ := plain_ne plain
                  simp only [segments, separable, backslash, opening, closing,
                    plain, Bool.false_eq_true, if_false, if_true] at cut ⊢
                  obtain ⟨rest, later, rfl⟩ := Option.map_eq_some_iff.mp cut
                  rw [written_iff]
                  exact induction (.next backslash fun _ => rfl) later
              | false =>
                  apply iff_of_false _ (by simp [separable, plain])
                  intro same
                  rw [segments] at cut
                  split at cut
                  case isTrue backslash =>
                    rw [eq_of_beq backslash] at same
                    exact writes_ahead 0 cut (congrArg Prod.fst same)
                  split at cut
                  · obtain ⟨whole, rest, rfl⟩ :=
                      segments_inside (Nat.succ_ne_zero 0) cut
                    cases same
                  split at cut
                  · cases cut
                  case isFalse backslash opening closing =>
                    simp [isPlainChar, bne, backslash, opening, closing]
                      at plain
          | false =>
              have normal : (prev == '\\') = false := step.prev
              rw [writes, normal]
              simp only [Bool.false_eq_true, if_false]
              rw [segments] at cut
              rw [separable, Bool.false_and, Bool.not_false, Bool.true_and]
              by_cases backslash : (c == '\\') = true
              · rw [if_pos backslash] at cut ⊢
                rw [if_pos backslash]
                obtain rfl := eq_of_beq backslash
                by_cases level : depth = 0
                · subst level
                  obtain rfl := step.blank rfl
                  rw [beq_self_eq_true, Bool.true_and]
                  apply induction _ cut
                  apply InStep.escape
                  · rintro ⟨-, absent⟩
                    cases absent
                  · rfl
                · rw [beq_eq_false_iff_ne.mpr level, Bool.false_and]
                  apply iff_of_false _ Bool.false_ne_true
                  intro same
                  obtain ⟨whole, rest, rfl⟩ := segments_inside level cut
                  cases text with
                  | nil =>
                      cases same
                  | cons d text =>
                      rw [writes_escaped] at same
                      cases same
              rw [if_neg backslash] at cut ⊢
              rw [if_neg backslash]
              have other : (c == '\\') = false := by simpa using backslash
              by_cases opening : (c == '\x7b') = true
              · rw [if_pos opening] at cut ⊢
                rw [if_pos opening]
                have deeper : (depth : Int) + 1 = ((depth + 1 : Nat) : Int) :=
                  rfl
                have collected : (if (depth : Int) + 1 > 1 then group ++ [c]
                    else group) = if depth = 0 then [] else group ++ [c] := by
                  by_cases level : depth = 0
                  · rw [if_pos level, if_neg (by omega), step.blank level]
                  · rw [if_neg level, if_pos (by omega)]
                rw [collected, deeper]
                exact induction
                  (.next other fun zero => absurd zero (Nat.succ_ne_zero _))
                  cut
              rw [if_neg opening] at cut ⊢
              rw [if_neg opening]
              by_cases closing : (c == '\x7d') = true
              · rw [if_pos closing] at cut ⊢
                rw [if_pos closing]
                by_cases level : depth = 0
                · rw [if_pos level] at cut
                  cases cut
                rw [if_neg level] at cut
                by_cases last : depth = 1
                · subst last
                  rw [if_pos rfl] at cut
                  obtain ⟨rest, later, rfl⟩ := Option.map_eq_some_iff.mp cut
                  rw [if_pos (by decide), written_iff]
                  exact induction (.next other fun _ => rfl) later
                · have less : (depth : Int) - 1 = ((depth - 1 : Nat) : Int) := by
                    omega
                  rw [if_neg last] at cut
                  rw [if_neg (by omega), less]
                  exact induction
                    (.next other fun zero => absurd zero (by omega)) cut
              rw [if_neg closing] at cut ⊢
              rw [if_neg closing]
              by_cases level : depth = 0
              · subst level
                obtain rfl := step.blank rfl
                rw [if_pos rfl] at cut
                obtain ⟨rest, later, rfl⟩ := Option.map_eq_some_iff.mp cut
                rw [if_neg (by decide), written_iff]
                exact induction (.next other fun _ => rfl) later
              · rw [if_neg level] at cut
                rw [if_pos (by omega)]
                exact induction (.next other fun zero => absurd zero level) cut

/-- What the evaluation of a text writes. -/
def written (text : Str) : List Segment × Bool :=
  writes text (Char.ofNat 0) 0 []

/-- Where the unescaped braces are balanced, the evaluation writes the
segments of the text in order, exactly when no backslash stands inside a
group and no escaped backslash before a brace or another backslash. -/
theorem segment_by_segment (outside : Outside W)
    (function : Str → Str → M W Str) (text : Str) {found : List Segment}
    (balanced : segments text false 0 [] = some found) :
    evaluate outside function text =
        perform outside function (eval outside function text.length)
          (written text).1 (written text).2 [] ∧
      (written text = (found, true) ↔
        separable text false false 0 = true) := by
  constructor
  · exact evalLoop_eq_perform ..
  · exact writes_iff (.next (by decide) fun _ => rfl) balanced

theorem segment_by_segment_escape :
    evaluate (Outside.closed Unit) (fun _ _ => pure [])
        "\\\x7b\x7b$x\x7d".toList =
      perform (Outside.closed Unit) (fun _ _ => pure [])
        (eval (Outside.closed Unit) (fun _ _ => pure []) 6)
        [.literal '\x7b', .value "$x".toList] true [] := by
  have whole := segment_by_segment (Outside.closed Unit)
    (fun _ _ => pure []) "\\\x7b\x7b$x\x7d".toList
    (rfl : segments _ false 0 [] =
      some [.literal '\x7b', .value "$x".toList])
  have same := whole.2.mpr rfl
  rw [whole.1, same]
  rfl

/-- An escaped character inside of a group is written before the value of the
group, and is missing there. -/
theorem escape_leaves_group :
    segments "\x7b'a\\\x7bb'\x7d".toList false 0 [] =
        some [.value "'a\\\x7bb'".toList] ∧
      written "\x7b'a\\\x7bb'\x7d".toList =
        ([.literal '\x7b', .value "'ab'".toList], true) ∧
      (evaluate (Outside.closed Unit) (fun _ _ => pure [])
        "\x7b'a\\\x7bb'\x7d".toList (St.fresh [])).outcome =
        .value "\x7bab".toList := by
  constructor
  · rfl
  constructor
  · rfl
  · decide +kernel

end Evaluator

end DbPager
