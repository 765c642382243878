import DbPager.Chains
import DbPager.Evaluation
import DbPager.Library.Guard

/-!
# The evaluator as a limit

The parsing functions are built from their operands and from the functions
an expression calls, and they only run them.  So what these tend to decides
what the evaluator tends to: a program for every bound, together with the
limit, is a family of its own.
-/

namespace DbPager

open Effect

variable {W : Type} {stop : Halt → Prop}

/-- A family for every bound, and its limit. -/
def withLimit {α : Type} (family : Nat → α) (limit : α) : Option Nat → α
  | some bound => family bound
  | none => limit

/-- The last member of the family is the limit of the others. -/
def HasLimit (stop : Halt → Prop) {σ ε ω α : Type}
    (family : Option Nat → Prog σ ε ω α) : Prop :=
  Prog.Tends stop (fun bound => family (some bound)) (family none)

namespace Evaluator

variable (outside : Outside W)

theorem uniform_tends :
    Uniform outside (fun family => HasLimit stop family)
      (fun family => HasLimit stop family) where
  pure _ := .refl _
  bind := Prog.Tends.bind
  throw _ := .refl _
  timeout := .refl _
  tryCatch := Prog.Tends.tryCatch
  getToken := .refl _
  read _ := .refl _
  dropValue := .refl _
  lookup := .refl _
  lift := Prog.Tends.lift
  within holds := Prog.Tends.within holds _
  outerPure _ := .refl _
  outerBind := Prog.Tends.bind
  outerThrow _ := .refl _
  outerTimeout := .refl _

section Operands

variable {family : Nat → P W Str} {operand : P W Str}
  (tends : Prog.Tends stop family operand)

include tends

theorem operands_tends (left : Str) :
    Prog.Tends stop (fun bound => operands outside left (family bound))
      (operands outside left operand) :=
  @Uniform.operands _ _ _ _ _ (uniform_tends outside)
    (withLimit family operand) left tends

theorem term_tends (loops : Nat) :
    Prog.Tends stop (fun bound => term outside (family bound) loops)
      (term outside operand loops) :=
  @Uniform.term _ _ _ _ _ (uniform_tends outside)
    (withLimit family operand) tends loops

theorem expr_tends (loops : Nat) :
    Prog.Tends stop (fun bound => expr outside (family bound) loops)
      (expr outside operand loops) :=
  @Uniform.expr _ _ _ _ _ (uniform_tends outside)
    (withLimit family operand) tends loops

end Operands

theorem evalLoop_tends {functions : Nat → Str → Str → M W Str}
    {function : Str → Str → M W Str}
    (tends : ∀ name params, Prog.Tends stop
      (fun bound => functions bound name params) (function name params))
    {inners : Nat → Str → M W Str} {inner : Str → M W Str}
    (innerTends : ∀ group, Prog.Tends stop (fun bound => inners bound group)
      (inner group)) (text : Str) (prev : Char) (count : Int)
    (group out : Str) :
    Prog.Tends stop
      (fun bound => evalLoop outside (functions bound) (inners bound) text prev
        count group out)
      (evalLoop outside function inner text prev count group out) :=
  @Uniform.evalLoop _ _ _ _ _ (uniform_tends outside)
    (withLimit functions function) tends (withLimit inners inner) innerTends
    text prev count group out

theorem evaluate_tends {functions : Nat → Str → Str → M W Str}
    {function : Str → Str → M W Str}
    (tends : ∀ name params, Prog.Tends stop
      (fun bound => functions bound name params) (function name params))
    (text : Str) :
    Prog.Tends stop (fun bound => evaluate outside (functions bound) text)
      (evaluate outside function text) :=
  @Uniform.evaluate _ _ _ _ _ (uniform_tends outside)
    (withLimit functions function) tends text

end Evaluator

namespace Function

variable (outside : Outside W)

theorem uniform_tends :
    Uniform outside.functions
      (fun family : Option Nat → M W _ => HasLimit stop family) where
  pure _ := .refl _
  bind := Prog.Tends.bind
  throw _ := .refl _
  fault := .refl _
  emit _ := .refl _
  uuid := .refl _
  rand := .refl _
  time := .refl _
  getenv _ := .refl _
  locale := .refl _
  domain := .refl _

/-- An interpreter that can only evaluate expressions. -/
def quiet (evaluate : List Tag → Str → M W Str) : Interp W :=
  { outside, budget := 0, run := fun _ _ => pure (), evaluate }

/-- The built-in functions need nothing else. -/
theorem execute_quiet (budget : Nat) (run : Loc → Option Loc → M W Unit)
    (evaluate : List Tag → Str → M W Str) (self : Loc) (builtin : Builtin) :
    execute { outside, budget, run, evaluate } self builtin =
      execute (quiet outside evaluate) self builtin := by
  cases builtin <;> rfl

/-- The built-in functions only run their arguments. -/
theorem execute_tends {evaluate : List Tag → Str → M W Str}
    {evaluates : Nat → List Tag → Str → M W Str}
    (tends : ∀ scope text, Prog.Tends stop
      (fun bound => evaluates bound scope text) (evaluate scope text))
    (self : Loc) (builtin : Builtin) :
    Prog.Tends stop
      (fun bound => execute (quiet outside (evaluates bound)) self builtin)
      (execute (quiet outside evaluate) self builtin) := by
  let family : Family W (Option Nat) :=
    ⟨outside, 0, fun _ _ _ => pure (), withLimit evaluates evaluate, self.tag,
      fun _ => self.up, fun _ => none⟩
  have uniform : Uniform family.outside.functions
      (fun family : Option Nat → M W _ => HasLimit stop family) :=
    uniform_tends outside
  exact uniform.execute (fun param _ => tends _ param.2) builtin

end Function

end DbPager
