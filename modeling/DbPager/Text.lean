import DbPager.Library.Effect
import Mathlib.Data.List.AList
import Mathlib.Data.List.TakeWhile

/-!
# Text, character classes and exceptions

The server works on byte strings in the C locale.  A string is modelled as
a list of characters; the character tests are those of the C locale, so they
only ever recognise ASCII characters.
-/

namespace DbPager

/-- `std::string`. -/
abbrev Str := List Char

/-- `isspace` in the C locale. -/
def isSpace (c : Char) : Bool :=
  c == ' ' || (9 ≤ c.toNat && c.toNat ≤ 13)

/-- The name under which a variable is kept: `transform(..., ::toupper)`. -/
def upName (name : Str) : Str :=
  name.map Char.toUpper

@[simp] theorem upName_nil : upName [] = [] := rfl

@[simp] theorem upName_cons (c : Char) (name : Str) :
    upName (c :: name) = c.toUpper :: upName name := rfl

@[simp] theorem upName_append (left right : Str) :
    upName (left ++ right) = upName left ++ upName right := by
  simp [upName]

/-- `toupper` moves the lower-case letters and leaves the rest alone. -/
theorem toUpper_cases (c : Char) :
    (97 ≤ c.val.toNat ∧ c.val.toNat ≤ 122 ∧
      c.toUpper.val.toNat = c.val.toNat - 32) ∨
    (¬ (97 ≤ c.val.toNat ∧ c.val.toNat ≤ 122) ∧ c.toUpper = c) := by
  have first : 'a'.val.toNat = 97 := rfl
  have last : 'z'.val.toNat = 122 := rfl
  have shift : ('A'.val - 'a'.val).toNat = 4294967264 := rfl
  unfold Char.toUpper
  split
  · rename_i range
    have low := UInt32.le_iff_toNat_le.mp range.1
    have high := UInt32.le_iff_toNat_le.mp range.2
    left
    simp only [UInt32.toNat_add, shift]
    omega
  · rename_i range
    right
    simp only [UInt32.le_iff_toNat_le, first, last] at range
    exact ⟨range, rfl⟩

/-- What `toupper` turns into a character below the letters is that
character. -/
theorem eq_of_toUpper_eq {c d : Char} (upper : c.toUpper = d)
    (below : d.val.toNat < 65) : c = d := by
  rcases toUpper_cases c with ⟨low, high, value⟩ | ⟨_, same⟩
  · rw [upper] at value
    omega
  · exact same ▸ upper

theorem upName_idem (name : Str) : upName (upName name) = upName name := by
  have idem : ∀ c : Char, c.toUpper.toUpper = c.toUpper := by
    intro c
    rcases toUpper_cases c.toUpper with ⟨low, high, value⟩ | ⟨_, same⟩
    · rcases toUpper_cases c with ⟨_, _, moved⟩ | ⟨_, same⟩
      · omega
      · rw [same]
        exact same
    · exact same
  simp [upName, idem]

/-- Of two different strings the one that is not before the other is behind
it. -/
theorem str_lt_of_not_lt {first second : Str} (below : ¬ first < second)
    (different : first ≠ second) : second < first := by
  by_contra above
  exact different (List.le_antisymm (List.not_lt.mp above)
    (List.not_lt.mp below))

/-- The first entry of a list decides about its own name. -/
theorem lookup_entry {α : Type} (entry : Str × α) (entries : List (Str × α))
    (name : Str) :
    (entry :: entries).lookup name =
      if name = entry.1 then some entry.2 else entries.lookup name := by
  rw [List.lookup_cons]
  by_cases same : name = entry.1
  · rw [if_pos same, same, beq_self_eq_true]
  · rw [if_neg same, beq_false_of_ne same]

/-- What a C string shows of a byte string: everything up to the first NUL. -/
def cString (text : Str) : Str :=
  text.takeWhile (fun c => c != Char.ofNat 0)

theorem not_mem_cString (text : Str) : Char.ofNat 0 ∉ cString text := by
  intro inside
  simpa using List.mem_takeWhile_imp inside

theorem cString_eq_self {text : Str} (plain : Char.ofNat 0 ∉ text) :
    cString text = text := by
  apply List.takeWhile_eq_self_iff.mpr
  intro c inside
  simp only [bne_iff_ne, ne_eq]
  intro same
  exact plain (same ▸ inside)

/-- `std::unordered_map<std::string, std::string>`.  The entries are listed
in the order in which the map is iterated. -/
abbrev Vars := AList fun _ : Str => Str

/-- The exception classes the handlers of the server tell apart. -/
inductive ExcClass where
  | tagCase
  | app
  | typeConversion
  | brokenConnection
  | dbp
  | std
  | foreign
  deriving DecidableEq, Repr

/-- A C++ exception: its class, its `what()` text, and the code that
`app_exception` carries. -/
structure Exc where
  cls : ExcClass
  what : Str
  code : Int
  deriving DecidableEq, Repr

namespace Exc

/-- `catch (std::exception &e)` takes everything but foreign exceptions. -/
def isStd (e : Exc) : Bool :=
  e.cls != .foreign

def tagCase : Exc := ⟨.tagCase, [], 0⟩

def dbp (what : Str) : Exc := ⟨.dbp, what, 0⟩

def app (what : Str) (code : Int) : Exc := ⟨.app, what, code⟩

end Exc

end DbPager
