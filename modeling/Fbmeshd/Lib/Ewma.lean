import Mathlib.Algebra.Order.Ring.Nat
import Mathlib.Data.Nat.Notation
import Mathlib.Order.Interval.Set.UnorderedInterval
import Mathlib.Order.Lattice.Nat

/-!
# Moving averages in fixed point

An exponentially weighted moving average is stored as its value times a scale `k`. A sample `n`
takes out the `k`-th part of what is stored, rounded down, and adds `n`. The rounding keeps the
average inside every interval that holds all samples. With a constant sample the descaled average
moves to the sample, never passes it, and reaches it exactly.
-/

namespace Ewma

variable {k n e lo hi : ℕ}

/-- The stored average after one more sample. -/
def step (k n e : ℕ) : ℕ := e - e / k + n

/-- What a step keeps of the stored average grows with it. -/
theorem monotone_sub_div (k : ℕ) : Monotone fun e : ℕ => e - e / k := by
  refine monotone_nat_of_le_succ fun e => ?_
  have hdiv : (e + 1) / k = e / k + if k ∣ e + 1 then 1 else 0 := Nat.succ_div
  have hle := Nat.div_le_self e k
  split at hdiv <;> omega

private theorem mul_sub_div (hk : 0 < k) : lo * k - lo * k / k + lo = lo * k := by
  rw [Nat.mul_div_cancel lo hk]
  exact Nat.sub_add_cancel (Nat.le_mul_of_pos_right lo hk)

private theorem mul_le_step (hk : 0 < k) (hn : lo ≤ n) (he : lo * k ≤ e) : lo * k ≤ step k n e :=
  calc lo * k = lo * k - lo * k / k + lo := (mul_sub_div hk).symm
    _ ≤ e - e / k + n := Nat.add_le_add (monotone_sub_div k he) hn

private theorem step_le_mul (hk : 0 < k) (hn : n ≤ hi) (he : e ≤ hi * k) : step k n e ≤ hi * k :=
  calc e - e / k + n ≤ hi * k - hi * k / k + hi := Nat.add_le_add (monotone_sub_div k he) hn
    _ = hi * k := mul_sub_div hk

/-- A word that holds the scaled bound holds every average: the strict form of `step_le_mul`
needs no bound on the earlier samples. -/
theorem step_lt_mul (hk : 0 < k) (hn : n < hi) (he : e < hi * k) : step k n e < hi * k := by
  obtain ⟨m, rfl⟩ : ∃ m, hi = m + 1 := ⟨hi - 1, by omega⟩
  have hlast : (m * k + (k - 1)) / k = m := by
    rw [Nat.add_comm, Nat.add_mul_div_right _ _ hk, Nat.div_eq_of_lt (by omega), Nat.zero_add]
  have hkeep : e - e / k ≤ m * k + (k - 1) - m := by
    have h : e ≤ m * k + (k - 1) := by
      rw [Nat.succ_mul] at he
      omega
    simpa only [hlast] using monotone_sub_div k h
  have hm : m ≤ m * k := Nat.le_mul_of_pos_right m hk
  rw [step, Nat.succ_mul]
  omega

/-- The average stays above a bound of the samples. -/
theorem mul_le_iterate_step (hk : 0 < k) (hn : lo ≤ n) (he : lo * k ≤ e) (j : ℕ) :
    lo * k ≤ (step k n)^[j] e := by
  induction j with
  | zero => exact he
  | succ j ih =>
    rw [Function.iterate_succ_apply']
    exact mul_le_step hk hn ih

/-- It stays below one. -/
theorem iterate_step_le_mul (hk : 0 < k) (hn : n ≤ hi) (he : e ≤ hi * k) (j : ℕ) :
    (step k n)^[j] e ≤ hi * k := by
  induction j with
  | zero => exact he
  | succ j ih =>
    rw [Function.iterate_succ_apply']
    exact step_le_mul hk hn ih

/-! ## A constant sample -/

/-- Every stored value that descales to the sample is a fixed point. -/
theorem step_of_div_eq (h : e / k = n) : step k n e = e := by
  rw [step, h]
  exact Nat.sub_add_cancel (h ▸ Nat.div_le_self e k)

private theorem lt_step (h : e / k < n) : e < step k n e := by
  have hle := Nat.div_le_self e k
  unfold step
  omega

private theorem step_lt (h : n < e / k) : step k n e < e := by
  have hle := Nat.div_le_self e k
  unfold step
  omega

/-- One step goes towards the sample and not beyond it. -/
theorem div_step_mem_uIcc (hk : 0 < k) : step k n e / k ∈ Set.uIcc (e / k) n := by
  rcases Nat.lt_trichotomy (e / k) n with h | h | h
  · have hmul : e ≤ n * k := ((Nat.div_lt_iff_lt_mul hk).mp h).le
    refine Set.mem_uIcc_of_le (Nat.div_le_div_right (lt_step h).le) ?_
    exact Nat.div_le_of_le_mul (Nat.mul_comm k n ▸ step_le_mul hk le_rfl hmul)
  · rw [step_of_div_eq h]
    exact Set.left_mem_uIcc
  · have hmul : n * k ≤ e := (Nat.le_div_iff_mul_le hk).mp h.le
    refine Set.mem_uIcc_of_ge ?_ (Nat.div_le_div_right (step_lt h).le)
    exact (Nat.le_div_iff_mul_le hk).mpr (mul_le_step hk le_rfl hmul)

/-- It stays between where it was and the sample. -/
theorem div_iterate_step_mem_uIcc (hk : 0 < k) (j : ℕ) :
    (step k n)^[j] e / k ∈ Set.uIcc (e / k) n := by
  induction j with
  | zero => exact Set.left_mem_uIcc
  | succ j ih =>
    rw [Function.iterate_succ_apply']
    exact Set.uIcc_subset_uIcc_right ih (div_step_mem_uIcc hk)

/-- The distance of the stored value to the scaled sample bounds the number of steps. Below the
sample the stored value grows to at most `n * k`, above it falls to at least `n * k`, so in both
cases the distance shrinks until the descaled values agree. -/
theorem div_iterate_step (hk : 0 < k) {j : ℕ} (hj : e - n * k + (n * k - e) ≤ j) :
    (step k n)^[j] e / k = n := by
  induction j generalizing e with
  | zero =>
    have he : e = n * k := by omega
    rw [he]
    exact Nat.mul_div_cancel n hk
  | succ j ih =>
    rw [Function.iterate_succ_apply]
    rcases Nat.lt_trichotomy (e / k) n with h | h | h
    · have hmul : e < n * k := (Nat.div_lt_iff_lt_mul hk).mp h
      have hstep := step_le_mul hk le_rfl hmul.le
      have hlt := lt_step h
      exact ih (by omega)
    · rw [step_of_div_eq h, Function.iterate_fixed (step_of_div_eq h)]
      exact h
    · have hmul : n * k ≤ e := (Nat.le_div_iff_mul_le hk).mp h.le
      have hstep := mul_le_step hk le_rfl hmul
      have hlt := step_lt h
      exact ih (by omega)

end Ewma
