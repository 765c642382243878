import DbPager.Fragments
import Mathlib.Logic.Relation

/-!
# The replacement of a substring

`replace_with` changes a string in place and goes on searching behind the
text it has inserted.  The string is at every moment a finished part, which
is not searched again, and a rest of the source.
-/

namespace DbPager

open Occurrences Relation

/-- With a finished part before the search position, the loop replaces the
occurrences in the rest and ends. -/
theorem replaceFrom_eq {find : Str} (filled : find ≠ []) (replace : Str)
    {budget : Nat} {rest : Str} (enough : rest.length < budget) (done : Str) :
    ∃ pieces, Pieces find rest pieces ∧
      replaceFrom find replace budget (done ++ rest) done.length =
        some (done ++ replace.intercalate pieces) := by
  induction budget generalizing rest done with
  | zero => exact absurd enough (Nat.not_lt_zero _)
  | succ budget induction =>
      have within : done.length ≤ (done ++ rest).length := by simp
      have cases := findFrom_cases find within
      rw [List.drop_left] at cases
      unfold replaceFrom
      rcases cases with ⟨none, absent⟩ | ⟨position, found, first⟩
      · rw [none]
        exact ⟨[rest], .last absent, by simp⟩
      · have behind := first.behind
        have longer := List.length_pos_iff.mpr filled
        have fewer : (rest.drop (position + find.length)).length < budget := by
          rw [List.length_drop]
          omega
        obtain ⟨pieces, cut, replaced⟩ :=
          induction fewer (done ++ rest.take position ++ replace)
        rw [found]
        refine ⟨rest.take position :: pieces, .next first cut, ?_⟩
        have before : (done ++ rest).take (done.length + position) =
            done ++ rest.take position :=
          List.take_length_add_append position
        have after : (done ++ rest).drop
            (done.length + position + find.length) =
              rest.drop (position + find.length) := by
          rw [Nat.add_assoc, List.drop_length_add_append]
        have moved : done.length + position + replace.length =
            (done ++ rest.take position ++ replace).length := by
          have within := first.within
          simp only [List.length_append, List.length_take]
          omega
        simp only [before, after, moved]
        rw [replaced, List.intercalate_cons_of_ne_nil cut.ne_nil]
        simp only [List.append_assoc]

/-- An empty search string is found at every position, and the search never
gets to the end. -/
theorem replaceFrom_empty (replace : Str) (budget : Nat) {source : Str}
    {i : Nat} (within : i ≤ source.length) :
    replaceFrom [] replace budget source i = none := by
  induction budget generalizing source i with
  | zero => rfl
  | succ budget induction =>
      have found : findFrom source [] i = some i := by
        unfold findFrom
        rw [if_pos within]
        cases source.drop i <;> rfl
      unfold replaceFrom
      rw [found]
      apply induction
      simp only [List.length_append, List.length_take, List.length_drop,
        List.length_nil]
      omega

/-- The loop of `replace_with` ends exactly when the search string is not
empty. -/
theorem replace_ends_iff (source find replace : Str) :
    (∃ budget result,
        replaceWith budget source find replace = some result) ↔
      find ≠ [] := by
  constructor
  · rintro ⟨budget, result, ended⟩ rfl
    unfold replaceWith at ended
    rw [replaceFrom_empty replace budget (Nat.zero_le _)] at ended
    cases ended
  · intro filled
    obtain ⟨pieces, -, replaced⟩ := replaceFrom_eq filled replace
      (Nat.lt_succ_self source.length) []
    exact ⟨source.length + 1, _, replaced⟩

/-- `<dbp:substr value="abc" what="" with="">` never ends. -/
theorem empty_search_never_ends :
    ¬ ∃ budget result,
      replaceWith budget "abc".toList [] [] = some result := by
  rintro ⟨budget, result, ended⟩
  unfold replaceWith at ended
  rw [replaceFrom_empty [] budget (Nat.zero_le _)] at ended
  cases ended

/-! ## What is searched -/

/-- One round of the loop of `replace_with`: the string and the position from
which it is searched, before the round and after it. -/
def replaceRound (find replace : Str) (now : Str × Nat) : Option (Str × Nat) :=
  (findFrom now.1 find now.2).map fun pos =>
    (now.1.take pos ++ replace ++ now.1.drop (pos + find.length),
      pos + replace.length)

theorem replaceFrom_succ (find replace : Str) (budget : Nat)
    (now : Str × Nat) :
    replaceFrom find replace (budget + 1) now.1 now.2 =
      (replaceRound find replace now).elim (some now.1) fun next =>
        replaceFrom find replace budget next.1 next.2 := by
  rw [replaceFrom, replaceRound]
  cases findFrom now.1 find now.2 <;> rfl

/-- The strings and positions the loop gets to. -/
def ReplaceReaches (find replace : Str) : Str × Nat → Str × Nat → Prop :=
  ReflTransGen fun now next => replaceRound find replace now = some next

/-- Behind the position there is only text of the source. -/
def SearchesSource (source : Str) (now : Str × Nat) : Prop :=
  now.2 ≤ now.1.length ∧ now.1.drop now.2 <:+ source

theorem SearchesSource.round {source find replace : Str} {now next : Str × Nat}
    (searches : SearchesSource source now)
    (round : replaceRound find replace now = some next) :
    SearchesSource source next := by
  obtain ⟨within, suffix⟩ := searches
  obtain ⟨pos, found, rfl⟩ := Option.map_eq_some_iff.mp round
  rcases findFrom_cases find within with ⟨none, -⟩ | ⟨position, there, first⟩
  · rw [none] at found
    cases found
  · rw [there] at found
    cases found
    have behind := first.behind
    rw [List.length_drop] at behind
    let front := now.1.take (now.2 + position) ++ replace
    have size : now.2 + position + replace.length = front.length := by
      simp only [front, List.length_append, List.length_take]
      omega
    have rest : now.1.drop (now.2 + position + find.length) <:+
        now.1.drop now.2 := by
      rw [Nat.add_assoc, ← List.drop_drop]
      exact List.drop_suffix _ _
    constructor
    · simp only [size, front, List.length_append]
      omega
    · simp only [size, front, List.drop_left]
      exact rest.trans suffix

theorem ReplaceReaches.searches {source find replace : Str} {now : Str × Nat}
    (reaches : ReplaceReaches find replace (source, 0) now) :
    SearchesSource source now := by
  induction reaches with
  | refl => exact ⟨Nat.zero_le _, List.suffix_refl source⟩
  | tail _ round induction => exact induction.round round

/-- `replace_with` puts the replacement between the pieces of the source that
stand between its leftmost occurrences of the search string.  The pieces are
the same for every replacement, and no round of the loop searches in what has
been inserted. -/
theorem replaces_leftmost (source : Str) {find : Str} (filled : find ≠ []) :
    ∃ pieces, Pieces find source pieces ∧
      (∀ others, Pieces find source others → others = pieces) ∧
      find.intercalate pieces = source ∧
      (∀ piece ∈ pieces, ¬ find <:+: piece) ∧
      ∀ replace,
        (∀ budget, source.length < budget →
          replaceWith budget source find replace =
            some (replace.intercalate pieces)) ∧
        (∀ budget now, replaceFrom find replace (budget + 1) now.1 now.2 =
          (replaceRound find replace now).elim (some now.1) fun next =>
            replaceFrom find replace budget next.1 next.2) ∧
        ∀ now, ReplaceReaches find replace (source, 0) now →
          SearchesSource source now := by
  obtain ⟨pieces, cut, -⟩ :=
    replaceFrom_eq filled [] (Nat.lt_succ_self source.length) []
  refine ⟨pieces, cut, fun others other => other.unique cut,
    cut.intercalate_eq, cut.not_infix filled, ?_⟩
  intro replace
  refine ⟨?_, replaceFrom_succ find replace, fun now reaches =>
    reaches.searches⟩
  intro budget enough
  obtain ⟨others, other, replaced⟩ := replaceFrom_eq filled replace enough []
  rw [other.unique cut] at replaced
  exact replaced

/-- In `aaa` only the first two characters are replaced, also by a text that
holds the search string. -/
theorem replaces_leftmost_overlapping :
    ∃ pieces, Pieces "aa".toList "aaa".toList pieces ∧
      "aa".toList.intercalate pieces = "aaa".toList ∧
      replaceWith 4 "aaa".toList "aa".toList "aab".toList =
        some ("aab".toList.intercalate pieces) := by
  obtain ⟨pieces, cut, -, whole, -, replaced⟩ :=
    replaces_leftmost "aaa".toList (List.cons_ne_nil 'a' ['a'])
  exact ⟨pieces, cut, whole, (replaced "aab".toList).1 4 (by decide)⟩

end DbPager
