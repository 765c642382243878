import DbPager.Library.Related

/-!
# Families of programs

A uniform property of families of programs is handed on by sequences, handlers
and captures.  A family of one is a program, a family of two is a pair of
programs to be compared, and a family over the numbers is a program with a
bound.  So what is proved once about the programs that a text is put together
from covers properties of one program as well as comparisons.
-/

namespace Effect

namespace Prog

variable {σ ε ω ι α β : Type}

structure Uniform (Holds : ∀ {α : Type}, (ι → Prog σ ε ω α) → Prop) :
    Prop where
  pure : ∀ {α : Type} (result : α),
    Holds fun _ => (Pure.pure result : Prog σ ε ω α)
  throw : ∀ {α : Type} (exception : ε),
    Holds fun _ => (Prog.throw exception : Prog σ ε ω α)
  halt : ∀ {α : Type} (reason : Halt),
    Holds fun _ => (Prog.halt reason : Prog σ ε ω α)
  emit : ∀ out : List ω, Holds fun _ => (Prog.emit out : Prog σ ε ω Unit)
  bind : ∀ {α β : Type} {first : ι → Prog σ ε ω α}
      {next : ι → α → Prog σ ε ω β},
    Holds first → (∀ result, Holds fun member => next member result) →
    Holds fun member => first member >>= next member
  tryCatch : ∀ {α : Type} {body : ι → Prog σ ε ω α}
      {handler : ι → ε → Prog σ ε ω α},
    Holds body → (∀ exception, Holds fun member => handler member exception) →
    Holds fun member => (body member).tryCatch (handler member)
  capture : ∀ {body : ι → Prog σ ε ω Unit},
    Holds body → Holds fun member => (body member).capture

namespace Uniform

variable {Holds : ∀ {α : Type}, (ι → Prog σ ε ω α) → Prop}
  (uniform : Uniform Holds)

include uniform

theorem orThrow (exception : ε) (result : Option α) :
    Holds fun _ => (Prog.orThrow exception result : Prog σ ε ω α) := by
  cases result with
  | some result => exact uniform.pure result
  | none => exact uniform.throw exception

omit uniform in
theorem ite {condition : Prop} [Decidable condition]
    {first second : ι → Prog σ ε ω α} (holds : Holds first)
    (fails : Holds second) :
    Holds fun member => if condition then first member else second member := by
  by_cases decided : condition
  · simp only [if_pos decided]
    exact holds
  · simp only [if_neg decided]
    exact fails

theorem when {condition : Bool} {body : ι → Prog σ ε ω Unit}
    (inside : Holds body) :
    Holds fun member => Prog.when condition (body member) := by
  cases condition with
  | true => exact inside
  | false => exact uniform.pure ()

theorem onError {body : ι → Prog σ ε ω α} {cleanup : ι → Prog σ ε ω Unit}
    (inside : Holds body) (cleaned : Holds cleanup) :
    Holds fun member => (body member).onError (cleanup member) := by
  apply uniform.tryCatch inside
  intro exception
  exact uniform.bind cleaned fun _ => uniform.throw exception

theorem forEach {body : ι → α → Prog σ ε ω Unit} {items : List α}
    (each : ∀ item ∈ items, Holds fun member => body member item) :
    Holds fun member => Prog.forEach (body member) items := by
  induction items with
  | nil => exact uniform.pure ()
  | cons item items induction =>
      apply uniform.bind (each item List.mem_cons_self)
      intro _
      apply induction
      intro other later
      exact each other (List.mem_cons_of_mem item later)

theorem whileLoop {test : ι → Prog σ ε ω Bool} {body : ι → Prog σ ε ω Unit}
    (tests : Holds test) (inside : Holds body) (budget : Nat) :
    Holds fun member => Prog.whileLoop (test member) (body member) budget := by
  induction budget with
  | zero => exact uniform.halt .timeout
  | succ budget induction =>
      apply uniform.bind tests
      intro holds
      cases holds with
      | true => exact uniform.bind inside fun _ => induction
      | false => exact uniform.pure ()

theorem whileSome {fetch : ι → Prog σ ε ω (Option α)}
    {body : ι → α → Prog σ ε ω Unit} (fetches : Holds fetch)
    (inside : ∀ item, Holds fun member => body member item) (budget : Nat) :
    Holds fun member => Prog.whileSome (fetch member) (body member) budget := by
  induction budget with
  | zero => exact uniform.halt .timeout
  | succ budget induction =>
      apply uniform.bind fetches
      intro item
      cases item with
      | some item => exact uniform.bind (inside item) fun _ => induction
      | none => exact uniform.pure ()

end Uniform

end Prog

/-- A contract is kept by every member of a family. -/
theorem Keeps.uniform {σ ε ω ι : Type} (contract : Contract σ) :
    Prog.Uniform fun {α : Type} (family : ι → Prog σ ε ω α) =>
      ∀ member, Keeps contract (family member) where
  pure result _ := .pure result
  throw exception _ := .throw exception
  halt reason _ := .halt reason
  emit out _ := .emit out
  bind first next member := (first member).bind fun result => next result member
  tryCatch body handler member :=
    (body member).tryCatch fun exception => handler exception member
  capture body member := (body member).capture

/-- The second member of a pair is guarded by the first one. -/
theorem Prog.Guards.uniform {σ ε ω : Type} :
    Prog.Uniform fun {α : Type} (family : Bool → Prog σ ε ω α) =>
      Prog.Guards (family true) (family false) where
  pure _ := .refl _
  throw _ := .refl _
  halt _ := .refl _
  emit _ := .refl _
  bind first next := first.bind next
  tryCatch body handler := body.tryCatch handler
  capture body := Prog.Tends.capture body

/-- One member does not see any of the differences between states. -/
theorem Prog.Related.uniform {σ ε ω ι κ : Type} (alike : κ → σ → σ → Prop)
    (member : ι) :
    Prog.Uniform fun {α : Type} (family : ι → Prog σ ε ω α) =>
      ∀ view, Prog.Related (alike view) (family member) (family member) where
  pure result _ := .pure result
  throw exception _ := .throw exception
  halt reason _ := .halt reason
  emit out _ := .emit out
  bind first next view := (first view).bind fun result => next result view
  tryCatch body handler view :=
    (body view).tryCatch fun exception => handler exception view
  capture body view := (body view).capture

theorem Prog.Uniform.and {σ ε ω ι : Type}
    {First Second : ∀ {α : Type}, (ι → Prog σ ε ω α) → Prop}
    (first : Prog.Uniform First) (second : Prog.Uniform Second) :
    Prog.Uniform fun {α : Type} (family : ι → Prog σ ε ω α) =>
      First family ∧ Second family where
  pure result := ⟨first.pure result, second.pure result⟩
  throw exception := ⟨first.throw exception, second.throw exception⟩
  halt reason := ⟨first.halt reason, second.halt reason⟩
  emit out := ⟨first.emit out, second.emit out⟩
  bind holds next := ⟨first.bind holds.1 fun result => (next result).1,
    second.bind holds.2 fun result => (next result).2⟩
  tryCatch body handler :=
    ⟨first.tryCatch body.1 fun exception => (handler exception).1,
      second.tryCatch body.2 fun exception => (handler exception).2⟩
  capture body := ⟨first.capture body.1, second.capture body.2⟩

end Effect
