import Mathlib.Data.List.Induction

/-!
# Runs of a fallible event system

A step function takes a state and an event and returns the next state, or `none`
when the process aborts. A run folds it over a list of events. The induction rule
below lets an invariant mention the events that led to a state.
-/

namespace EventSystem

variable {σ ε : Type*} {step : σ → ε → Option σ}

/-- The state reached after a list of events, `none` once a step has aborted. -/
def run (step : σ → ε → Option σ) (s : σ) (es : List ε) : Option σ := es.foldlM step s

/-- The empty run. -/
@[simp] theorem run_nil (s : σ) : run step s [] = some s := rfl

/-- The last event of a run is one step from the state its prefix reaches. -/
theorem run_concat (s : σ) (es : List ε) (e : ε) :
    run step s (es ++ [e]) = (run step s es).bind (step · e) := by
  simp only [run, List.foldlM_append, List.foldlM_cons, List.foldlM_nil]
  cases es.foldlM step s with
  | none => rfl
  | some t => cases hstep : step t e <;> simp [hstep]

/-- A step that never aborts gives runs that never abort. -/
theorem exists_run_eq_some (htotal : ∀ s e, ∃ s', step s e = some s') (s : σ) (es : List ε) :
    ∃ s', run step s es = some s' := by
  induction es using List.reverseRecOn with
  | nil => exact ⟨s, rfl⟩
  | append_singleton es e ih =>
    obtain ⟨t, ht⟩ := ih
    obtain ⟨t', ht'⟩ := htotal t e
    exact ⟨t', by rw [run_concat, ht]; exact ht'⟩

/-- Induction over a run: a relation between the past events and the present
state holds of every run when it holds at the start and each step extends it. -/
theorem run_induction {s₀ : σ} {P : List ε → σ → Prop} (hinit : P [] s₀)
    (hstep : ∀ es e s s', run step s₀ es = some s → P es s → step s e = some s' →
      P (es ++ [e]) s')
    {es : List ε} {s : σ} (hrun : run step s₀ es = some s) : P es s := by
  induction es using List.reverseRecOn generalizing s with
  | nil =>
    obtain rfl : s₀ = s := by simpa using hrun
    exact hinit
  | append_singleton es e ih =>
    rw [run_concat] at hrun
    obtain ⟨t, ht, hlast⟩ := Option.bind_eq_some_iff.mp hrun
    exact hstep es e t s ht (ih ht) hlast

end EventSystem
