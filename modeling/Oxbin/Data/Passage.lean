import Mathlib.Data.List.Basic

/-!
# Passages

Inputs lead a system from state to state.  A passage tells of every state on the way that it is of
some kind, so that the system may stop at any of them.
-/

namespace Oxbin

variable {σ α ε : Type}

/-- The inputs lead from a state to another one, through states of a kind. -/
def Passage (step : σ → α → Except ε σ) (kind : σ → Prop) : σ → List α → σ → Prop
  | first, [], last => first = last
  | first, input :: inputs, last =>
      ∃ next, step first input = .ok next ∧ kind next ∧ Passage step kind next inputs last

section Passage

variable {step : σ → α → Except ε σ} {kind kind' : σ → Prop} {first middle last : σ}
  {inputs later : List α}

theorem Passage.append (leads : Passage step kind first inputs middle)
    (rest : Passage step kind middle later last) :
    Passage step kind first (inputs ++ later) last := by
  induction inputs generalizing first with
  | nil => exact leads ▸ rest
  | cons input inputs induction =>
      obtain ⟨next, steps, holds, leads⟩ := leads
      exact ⟨next, steps, holds, induction leads⟩

theorem Passage.mono (leads : Passage step kind first inputs last)
    (weaker : ∀ state, kind state → kind' state) : Passage step kind' first inputs last := by
  induction inputs generalizing first with
  | nil => exact leads
  | cons input inputs induction =>
      obtain ⟨next, steps, holds, leads⟩ := leads
      exact ⟨next, steps, weaker next holds, induction leads⟩

/-- One more input. -/
theorem Passage.concat (leads : Passage step kind first inputs middle) {input : α}
    (steps : step middle input = .ok last) (holds : kind last) :
    Passage step kind first (inputs ++ [input]) last :=
  leads.append ⟨last, steps, holds, rfl⟩

theorem Passage.foldlM (leads : Passage step kind first inputs last) :
    inputs.foldlM step first = .ok last := by
  induction inputs generalizing first with
  | nil => exact congrArg Except.ok leads
  | cons input inputs induction =>
      obtain ⟨next, steps, holds, leads⟩ := leads
      rw [List.foldlM_cons, steps]
      exact induction leads

/-- A passage can be interrupted anywhere. -/
theorem Passage.interrupt (leads : Passage step kind first (inputs ++ later) last)
    (holds : kind first) :
    ∃ state, inputs.foldlM step first = .ok state ∧ kind state ∧
      Passage step kind state later last := by
  induction inputs generalizing first with
  | nil => exact ⟨first, rfl, holds, leads⟩
  | cons input inputs induction =>
      obtain ⟨next, steps, holds', leads⟩ := leads
      rw [List.foldlM_cons, steps]
      exact induction leads holds'

end Passage

end Oxbin
