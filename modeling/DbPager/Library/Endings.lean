import DbPager.Library.Effect

/-!
# Where a program ends

The state and the outcome of a run, whatever the program has written on the
way.
-/

namespace Effect

namespace Prog

variable {σ ε ω α β : Type}

/-- The program leads from one state to the other and has this outcome. -/
def Leads (program : Prog σ ε ω α) (state final : σ)
    (outcome : Outcome ε α) : Prop :=
  ∃ out, program state = ⟨final, out, outcome⟩

namespace Leads

variable {program : Prog σ ε ω α} {next : α → Prog σ ε ω β}
  {handler : ε → Prog σ ε ω α} {state middle final : σ} {result : α}
  {exception : ε}

theorem bind {outcome : Outcome ε β}
    (first : Leads program state middle (.value result))
    (second : Leads (next result) middle final outcome) :
    Leads (program >>= next) state final outcome := by
  obtain ⟨one, ran⟩ := first
  obtain ⟨two, later⟩ := second
  refine ⟨one ++ two, ?_⟩
  rw [bind_eq ran, later]

theorem raise (first : Leads program state final (.error exception)) :
    Leads (program >>= next) state final (.error exception) := by
  obtain ⟨out, ran⟩ := first
  exact ⟨out, bind_error ran _⟩

theorem tryCatch (first : Leads program state final (.value result)) :
    Leads (program.tryCatch handler) state final (.value result) := by
  obtain ⟨out, ran⟩ := first
  exact ⟨out, tryCatch_eq ran _⟩

theorem caught {outcome : Outcome ε α}
    (first : Leads program state middle (.error exception))
    (second : Leads (handler exception) middle final outcome) :
    Leads (program.tryCatch handler) state final outcome := by
  obtain ⟨one, ran⟩ := first
  obtain ⟨two, handled⟩ := second
  refine ⟨one ++ two, ?_⟩
  rw [tryCatch_error ran, handled]

/-- Another program that does the same from here. -/
theorem congr {other : Prog σ ε ω α} {start : σ} {outcome : Outcome ε α}
    (leads : Leads program start final outcome)
    (same : other state = program start) :
    Leads other state final outcome := by
  obtain ⟨out, ran⟩ := leads
  exact ⟨out, same.trans ran⟩

end Leads

end Prog

end Effect
