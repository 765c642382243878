import DbPager.Text

/-!
# The support library and the numbers

The string utilities, conversions and messages come from the `dcl` library,
which is not part of the repository.  They are parameters of the model; a
result that relies on what one of them does states that as a hypothesis.

Floating-point numbers are an arbitrary type with the operations the
expression evaluator uses.
-/

namespace DbPager

structure Dcl where
  /-- `tokenize()(text, separators)`. -/
  tokenize : Str → Str → List Str
  /-- `tokenize()(text, left, right, false, separator)`. -/
  tokenizePair : Str → Str → Str × Str
  trim : Str → Str
  /-- `compare()`: equality of names without regard to case. -/
  compare : Str → Str → Bool
  compare_self : ∀ text, compare text text = true
  /-- `(format(_(message)) % argument % ...).str()`. -/
  format : Str → List Str → Str
  fromStringInt : Str → Option Int
  toStringInt : Int → Str
  fromStringBool : Str → Option Bool
  fromStringPtr : Str → Option Nat
  toStringPtr : Nat → Str
  /-- The text of the exception `from_string` raises. -/
  conversionMessage : Str → Str
  urlEncode : Str → Str
  urlDecode : Str → Str
  Double : Type
  fromStringDouble : Str → Option Double
  toStringDouble : Double → Str
  add : Double → Double → Double
  sub : Double → Double → Double
  mul : Double → Double → Double
  div : Double → Double → Double
  fmod : Double → Double → Double
  pow : Double → Double → Double
  /-- `-1.0 * x`. -/
  negate : Double → Double
  lt : Double → Double → Bool
  le : Double → Double → Bool
  eq : Double → Double → Bool

namespace Dcl

variable (dcl : Dcl)

/-- The default separator of `tokenize`. -/
def tokens (text : Str) : List Str :=
  dcl.tokenize text ",".toList

/-- A message without arguments. -/
def text (message : String) : Str :=
  dcl.format message.toList []

/-- What `from_string` raises on a text that does not convert. -/
def conversionException (text : Str) : Exc :=
  ⟨.typeConversion, dcl.conversionMessage text, 0⟩

/-- A `dbp::exception` with a formatted message. -/
def exception (message : String) (arguments : List Str) : Exc :=
  .dbp (dcl.format message.toList arguments)

end Dcl

end DbPager
