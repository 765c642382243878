import DbPager.Plain
import Mathlib.Logic.Relation

/-!
# The matches of a regular expression

The search loop of `dbp:regexp` goes on behind the end of the match it has
found.  It gets ahead as long as the match is not empty at the very
beginning of what is left.
-/

namespace DbPager

open Effect Relation

variable {W : Type}

/-- A matcher gives for every input no match, or the bounds of one. -/
structure Matcher where
  find : Str → Option (Nat × Nat)
  inside : ∀ {input : Str} {start stop : Nat},
    find input = some (start, stop) → start ≤ stop ∧ stop ≤ input.length

namespace Matcher

variable (matcher : Matcher)

/-- What is left of an input behind its match. -/
def next (input : Str) : Option Str :=
  (matcher.find input).map fun found => input.drop found.2

/-- Successive matches in an input that starts at the offset: from left to
right, each one in what the one before has left. -/
inductive Successive : Nat → Str → List (Nat × Nat) → Prop where
  | none {offset : Nat} {input : Str} :
      matcher.find input = none → Successive offset input []
  | next {offset start stop : Nat} {input : Str} {rest : List (Nat × Nat)} :
      matcher.find input = some (start, stop) →
      Successive (offset + stop) (input.drop stop) rest →
      Successive offset input ((offset + start, offset + stop) :: rest)

/-- The inputs the search gets to. -/
def Reaches : Str → Str → Prop :=
  ReflTransGen fun input rest => matcher.next input = some rest

/-- No input the search gets to has an empty match at its beginning. -/
def Advances (value : Str) : Prop :=
  ∀ rest, matcher.Reaches value rest → matcher.find rest ≠ some (0, 0)

variable {matcher}

/-- Successive matches lie in the input and do not overlap. -/
theorem Successive.ordered {offset : Nat} {input : Str}
    {places : List (Nat × Nat)}
    (found : matcher.Successive offset input places) :
    (∀ place ∈ places, offset ≤ place.1 ∧ place.1 ≤ place.2 ∧
      place.2 ≤ offset + input.length) ∧
    places.Pairwise fun first second => first.2 ≤ second.1 := by
  induction found with
  | none missing => simp
  | next here more induction =>
      obtain ⟨ordered, within⟩ := matcher.inside here
      obtain ⟨bounds, apart⟩ := induction
      simp only [List.length_drop] at bounds
      constructor
      · intro place member
        rcases List.mem_cons.mp member with rfl | member
        · simp only
          omega
        · have bound := bounds place member
          omega
      · refine List.pairwise_cons.mpr ⟨?_, apart⟩
        intro place member
        exact (bounds place member).1

theorem Advances.behind {value rest : Str} (advances : matcher.Advances value)
    (next : matcher.next value = some rest) : matcher.Advances rest := by
  intro last reaches
  exact advances last (.head next reaches)

/-- A search that gets ahead has finitely many successive matches. -/
theorem Advances.successive {value : Str} (advances : matcher.Advances value)
    (offset : Nat) :
    ∃ places, matcher.Successive offset value places := by
  generalize size : value.length = length
  induction length using Nat.strong_induction_on generalizing value offset with
  | _ length induction =>
      cases here : matcher.find value with
      | none => exact ⟨[], .none here⟩
      | some found =>
          obtain ⟨start, stop⟩ := found
          obtain ⟨ordered, within⟩ := matcher.inside here
          have filled : 0 < stop := by
            by_contra none
            have both : start = 0 ∧ stop = 0 := by omega
            rw [both.1, both.2] at here
            exact advances value .refl here
          have behind : matcher.next value = some (value.drop stop) := by
            unfold next
            rw [here]
            rfl
          have fewer : (value.drop stop).length < length := by
            rw [List.length_drop]
            omega
          obtain ⟨rest, more⟩ := induction _ fewer
            (advances.behind behind) (offset + stop) rfl
          exact ⟨_, .next here more⟩

end Matcher

namespace TagRegexp

/-- `FindAndConsume` returns true and drops the input up to the end of the
match, or returns false when there is none. -/
def Consumes (api : RegexpApi) (expression : Str) (matcher : Matcher) :
    Prop :=
  ∀ input, (api.findAndConsume expression input).map Prod.snd =
    matcher.next input

/-- The texts found in a number of rounds. -/
def foundTexts (api : RegexpApi) (expression : Str) : Nat → Str → List Str
  | 0, _ => []
  | count + 1, input =>
      match api.findAndConsume expression input with
      | some (found, rest) => found :: foundTexts api expression count rest
      | none => []

/-- The children and the text of the tag in a new layer, in which the variable
is bound to what has been found. -/
def matchBody (interp : Interp W) (self : Loc) (caller : Option Loc)
    (name found : Str) : M W Unit :=
  M.withLayer do
    M.addValue interp.dcl name found
    Prog.forEach (fun tag => interp.run (self.child tag) caller)
      self.tag.childs
    Prog.emit self.tag.text

/-- The search loop over the value ends, and executes the body once for each
of the successive matches, from left to right.  The matches lie in the value
and do not overlap. -/
def SearchVisits (matcher : Matcher) (expression value : Str) : Prop :=
  ∃ places, matcher.Successive 0 value places ∧
    (∀ place ∈ places, place.1 ≤ place.2 ∧ place.2 ≤ value.length) ∧
    places.Pairwise (fun first second => first.2 ≤ second.1) ∧
    ∀ (W : Type) (interp : Interp W),
      Consumes interp.outside.regexp expression matcher →
      (foundTexts interp.outside.regexp expression places.length
          value).length = places.length ∧
      ∀ (self : Loc) (caller : Option Loc) (name : Str) (budget : Nat),
        places.length < budget →
        search interp self caller expression name budget value =
          Prog.forEach (matchBody interp self caller name)
            (foundTexts interp.outside.regexp expression places.length
              value)

theorem withVariable_eq (interp : Interp W) (self : Loc)
    (caller : Option Loc) (name : Str) :
    withVariable interp self caller name =
      matchBody interp self caller name :=
  rfl

theorem findAndConsume_none {api : RegexpApi} {expression : Str}
    {matcher : Matcher} (consumes : Consumes api expression matcher)
    {input : Str} (missing : matcher.find input = none) :
    api.findAndConsume expression input = none := by
  have law := consumes input
  unfold Matcher.next at law
  rw [missing] at law
  exact Option.map_eq_none_iff.mp law

theorem findAndConsume_some {api : RegexpApi} {expression : Str}
    {matcher : Matcher} (consumes : Consumes api expression matcher)
    {input rest : Str} (next : matcher.next input = some rest) :
    ∃ found, api.findAndConsume expression input = some (found, rest) := by
  have law := consumes input
  rw [next] at law
  obtain ⟨⟨found, left⟩, consumed, rfl⟩ := Option.map_eq_some_iff.mp law
  exact ⟨found, consumed⟩

/-- The search goes through the successive matches. -/
theorem search_eq {interp : Interp W} {expression : Str} {matcher : Matcher}
    (consumes : Consumes interp.outside.regexp expression matcher)
    {offset : Nat} {input : Str} {places : List (Nat × Nat)}
    (found : matcher.Successive offset input places) :
    (foundTexts interp.outside.regexp expression places.length
        input).length = places.length ∧
    ∀ (self : Loc) (caller : Option Loc) (name : Str) (budget : Nat),
      places.length < budget →
      search interp self caller expression name budget input =
        Prog.forEach (matchBody interp self caller name)
          (foundTexts interp.outside.regexp expression places.length
            input) := by
  induction found with
  | none missing =>
      refine ⟨rfl, ?_⟩
      intro self caller name budget enough
      cases budget with
      | zero => exact absurd enough (Nat.not_lt_zero _)
      | succ budget =>
          unfold search
          rw [findAndConsume_none consumes missing]
          rfl
  | @next offset start stop input rest here more induction =>
      have next : matcher.next input = some (input.drop stop) := by
        unfold Matcher.next
        rw [here]
        rfl
      obtain ⟨found, consumed⟩ := findAndConsume_some consumes next
      have texts : foundTexts interp.outside.regexp expression
          (rest.length + 1) input = found ::
            foundTexts interp.outside.regexp expression rest.length
              (input.drop stop) := by
        rw [foundTexts, consumed]
      constructor
      · rw [List.length_cons, texts, List.length_cons, induction.1]
      · intro self caller name budget enough
        cases budget with
        | zero => exact absurd enough (Nat.not_lt_zero _)
        | succ budget =>
            have fewer : rest.length < budget := by
              rw [List.length_cons] at enough
              omega
            rw [List.length_cons, texts]
            unfold search Prog.forEach
            rw [consumed, ← induction.2 self caller name budget fewer,
              ← withVariable_eq]

/-! ## An empty match at the beginning -/

/-- The library for a matcher; the whole match is what is found. -/
def apiOf (matcher : Matcher) : RegexpApi where
  globalReplace _ _ _ := none
  findAndConsume _ input :=
    (matcher.find input).map fun place =>
      ((input.drop place.1).take (place.2 - place.1), input.drop place.2)

def plainRegexp (matcher : Matcher) : Outside Unit :=
  { Outside.plain with regexp := apiOf matcher }

theorem plainRegexp_consumes (matcher : Matcher) (expression : Str) :
    Consumes (plainRegexp matcher).regexp expression matcher := by
  intro input
  change ((matcher.find input).map _).map Prod.snd = _
  rw [Option.map_map]
  rfl

/-- `<dbp:regexp/>` without children. -/
def emptyRegexp : Loc :=
  ⟨.mk 1 .regexp [] [] [], []⟩

def searching (matcher : Matcher) : Interp Unit :=
  .ofRun (plainRegexp matcher) 1 (DbPager.execute (plainRegexp matcher) 1)

theorem emptyRegexp_returns (matcher : Matcher) (found : Str) :
    matchBody (searching matcher) emptyRegexp none "x".toList found
        (St.fresh [Context.newLocal]) =
      ⟨St.fresh [Context.newLocal], [], .value ()⟩ := by
  rfl

/-- The search never gets past an empty match at the beginning of what is
left. -/
theorem search_never_ends {matcher : Matcher} {value rest : Str}
    (reaches : matcher.Reaches value rest)
    (empty : matcher.find rest = some (0, 0)) (expression : Str)
    (budget : Nat) :
    (search (searching matcher) emptyRegexp none expression "x".toList budget
      value (St.fresh [Context.newLocal])).outcome = .halt .timeout := by
  induction budget generalizing value with
  | zero => rfl
  | succ budget induction =>
      have round : ∀ left, matcher.next value = some left →
          matcher.Reaches left rest →
          (search (searching matcher) emptyRegexp none expression "x".toList
            (budget + 1) value (St.fresh [Context.newLocal])).outcome =
              .halt .timeout := by
        intro left next later
        obtain ⟨found, consumed⟩ := findAndConsume_some
          (plainRegexp_consumes matcher expression) next
        have consumed : (searching matcher).outside.regexp.findAndConsume
            expression value = some (found, left) := consumed
        unfold search
        rw [consumed]
        simp only
        rw [withVariable_eq,
          Prog.bind_silent (emptyRegexp_returns matcher found)]
        exact induction later
      rcases ReflTransGen.cases_head reaches with rfl | ⟨left, next, later⟩
      · apply round value
        · unfold Matcher.next
          rw [empty]
          rfl
        · exact .refl
      · exact round left next later

/-- The search visits the successive matches exactly when it gets ahead: no
input it gets to has an empty match at its beginning. -/
theorem search_visits_iff (matcher : Matcher) (expression value : Str) :
    SearchVisits matcher expression value ↔ matcher.Advances value := by
  constructor
  · rintro ⟨places, -, -, -, visits⟩ rest reaches empty
    have ended := (visits Unit (searching matcher)
      (plainRegexp_consumes matcher expression)).2 emptyRegexp none
        "x".toList (places.length + 1) (Nat.lt_succ_self _)
    have halts := search_never_ends reaches empty expression
      (places.length + 1)
    rw [ended, Prog.forEach_eq fun found _ =>
      emptyRegexp_returns matcher found] at halts
    cases halts
  · intro advances
    obtain ⟨places, found⟩ := advances.successive 0
    obtain ⟨bounds, apart⟩ := found.ordered
    refine ⟨places, found, ?_, apart, fun W interp consumes =>
      search_eq consumes found⟩
    intro place member
    have bound := bounds place member
    exact ⟨bound.2.1, by simpa using bound.2.2⟩

/-- The matcher of `x*`. -/
def starMatcher : Matcher where
  find input := some (0, (input.takeWhile (· == 'x')).length)
  inside := by
    intro input start stop found
    cases found
    exact ⟨Nat.zero_le _, (List.takeWhile_prefix _).length_le⟩

/-- `x*` matches the empty string at the beginning of `a`. -/
theorem star_never_ends :
    ¬ SearchVisits starMatcher "(x*)".toList "xxa".toList := by
  rintro ⟨places, -, -, -, visits⟩
  have ended := (visits Unit (searching starMatcher)
    (plainRegexp_consumes starMatcher _)).2 emptyRegexp none
      "x".toList (places.length + 1) (Nat.lt_succ_self _)
  have reaches : starMatcher.Reaches "xxa".toList "a".toList :=
    .single rfl
  have halts := search_never_ends reaches rfl "(x*)".toList
    (places.length + 1)
  rw [ended, Prog.forEach_eq fun found _ =>
    emptyRegexp_returns starMatcher found] at halts
  cases halts

end TagRegexp

end DbPager
