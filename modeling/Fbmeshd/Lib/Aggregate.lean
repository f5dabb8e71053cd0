import Mathlib.Algebra.BigOperators.Group.List.Basic
import Mathlib.Algebra.Order.BigOperators.Group.List
import Mathlib.Algebra.Order.Field.Basic

/-!
# Aggregates

Sum, average, maximum and minimum of a list of numbers, and when they are the same without the
zeros of the list. The average is the one that tells: it is over fewer numbers.
-/

/-- The aggregates of a list of numbers. -/
inductive Aggregate where
  | sum
  | avg
  | max
  | min
  deriving DecidableEq

namespace Aggregate

variable {K : Type*} [Field K] [LinearOrder K] {l : List K}

/-- The value of an aggregate. An empty list has no maximum and no minimum. -/
def eval (l : List K) : Aggregate → Option K
  | sum => some l.sum
  | avg => some (l.sum / l.length)
  | max => l.max?
  | min => l.min?

/-- Values have every aggregate. -/
theorem isSome_eval (hne : l ≠ []) (a : Aggregate) : (eval l a).isSome := by
  cases a with
  | sum | avg => rfl
  | max => exact List.isSome_max?_iff.mpr hne
  | min => exact List.isSome_min?_iff.mpr hne

/-- Every aggregate of zeros is zero. -/
theorem eval_of_forall_eq_zero (hne : l ≠ []) (h : ∀ x ∈ l, x = 0) (a : Aggregate) :
    eval l a = some 0 := by
  have hsum : l.sum = 0 := List.sum_eq_zero h
  obtain ⟨x, hx⟩ := List.exists_mem_of_ne_nil l hne
  have hzero : (0 : K) ∈ l := h x hx ▸ hx
  cases a with
  | sum => rw [eval, hsum]
  | avg => rw [eval, hsum, zero_div]
  | max => exact List.max?_eq_some_iff.mpr ⟨hzero, fun y hy => (h y hy).le⟩
  | min => exact List.min?_eq_some_iff.mpr ⟨hzero, fun y hy => (h y hy).ge⟩

/-- The values that are not zero. -/
theorem mem_filter_bne_zero {x : K} : x ∈ l.filter (· != 0) ↔ x ∈ l ∧ x ≠ 0 := by
  simp

/-- The maximum is the same without the zeros if it is positive. -/
theorem max?_filter_bne_zero (hpos : ∃ x ∈ l, 0 < x) : (l.filter (· != 0)).max? = l.max? := by
  obtain ⟨x, hx, hxpos⟩ := hpos
  obtain ⟨y, hy⟩ := Option.isSome_iff_exists.mp
    (List.isSome_max?_iff.mpr (List.ne_nil_of_mem hx))
  obtain ⟨hmem, hle⟩ := List.max?_eq_some_iff.mp hy
  rw [hy, List.max?_eq_some_iff]
  exact ⟨mem_filter_bne_zero.mpr ⟨hmem, (hxpos.trans_le (hle x hx)).ne'⟩,
    fun z hz => hle z (List.mem_filter.mp hz).1⟩

private theorem min?_filter_bne_zero (hneg : ∃ x ∈ l, x < 0) :
    (l.filter (· != 0)).min? = l.min? := by
  obtain ⟨x, hx, hxneg⟩ := hneg
  obtain ⟨y, hy⟩ := Option.isSome_iff_exists.mp
    (List.isSome_min?_iff.mpr (List.ne_nil_of_mem hx))
  obtain ⟨hmem, hle⟩ := List.min?_eq_some_iff.mp hy
  rw [hy, List.min?_eq_some_iff]
  exact ⟨mem_filter_bne_zero.mpr ⟨hmem, ((hle x hx).trans_lt hxneg).ne⟩,
    fun z hz => hle z (List.mem_filter.mp hz).1⟩

variable [IsStrictOrderedRing K]

/-- Numbers that cancel out are on both sides of zero. -/
theorem exists_pos_of_sum_eq_zero (hsum : l.sum = 0) (hx : ∃ x ∈ l, x ≠ 0) : ∃ x ∈ l, 0 < x := by
  by_contra! hle
  obtain ⟨x, hmem, hne⟩ := hx
  refine hne (neg_eq_zero.mp (List.all_zero_of_le_zero_le_of_sum_eq_zero
    (l := l.map (-·)) ?_ ?_ (List.mem_map_of_mem hmem)))
  · intro y hy
    obtain ⟨z, hz, rfl⟩ := List.mem_map.mp hy
    exact neg_nonneg.mpr (hle z hz)
  · rw [← List.sum_neg, hsum, neg_zero]

private theorem exists_neg_of_sum_eq_zero (hsum : l.sum = 0) (hx : ∃ x ∈ l, x ≠ 0) :
    ∃ x ∈ l, x < 0 := by
  by_contra! hle
  obtain ⟨x, hmem, hne⟩ := hx
  exact hne (List.all_zero_of_le_zero_le_of_sum_eq_zero hle hsum hmem)

/-- All aggregates are the same without the zeros of a list if there are none, or if the other
numbers cancel out. -/
theorem eval_filter_bne_zero_iff :
    (∀ a, eval (l.filter (· != 0)) a = eval l a) ↔
      0 ∉ l ∨ l.sum = 0 ∧ ∃ x ∈ l, x ≠ 0 := by
  have hsum : (l.filter (· != 0)).sum = l.sum := List.sum_filter_bne_zero l
  constructor
  · intro h
    by_cases hzero : (0 : K) ∈ l
    · right
      have hlt : (l.filter (· != 0)).length < l.length :=
        List.length_filter_lt_length_iff_exists.mpr ⟨0, hzero, by simp⟩
      obtain ⟨y, hy⟩ := Option.isSome_iff_exists.mp
        (List.isSome_max?_iff.mpr (List.ne_nil_of_mem hzero))
      have hmem : y ∈ l.filter (· != 0) :=
        (List.max?_eq_some_iff.mp ((h .max).trans hy)).1
      refine ⟨?_, y, mem_filter_bne_zero.mp hmem⟩
      have havg : (l.filter (· != 0)).sum / _ = l.sum / l.length := Option.some.inj (h .avg)
      rw [hsum, div_eq_mul_inv, div_eq_mul_inv] at havg
      by_contra hne
      have hlen := Nat.cast_injective (R := K) (inv_injective (mul_left_cancel₀ hne havg))
      omega
    · exact .inl hzero
  · rintro (hzero | ⟨hcancel, hx⟩) a
    · have hall : l.filter (· != 0) = l :=
        List.filter_eq_self.mpr fun x hx => by
          simpa using fun h : x = 0 => hzero (h ▸ hx)
      rw [hall]
    · cases a with
      | sum => rw [eval, eval, hsum]
      | avg => rw [eval, eval, hsum, hcancel, zero_div, zero_div]
      | max => exact max?_filter_bne_zero (exists_pos_of_sum_eq_zero hcancel hx)
      | min => exact min?_filter_bne_zero (exists_neg_of_sum_eq_zero hcancel hx)

end Aggregate
