import Mathlib.Data.List.Induction
import Mathlib.Data.List.Sort
import Mathlib.Order.Bounds.Basic

/-!
# The best few of a list

Two ways to select the best `k` items. One sorts all of them and takes a prefix. The other sees
the items one after another and admits each that has fewer than `k` admitted ones at least as
good; what it admits depends on the order, but the best items are among them in any order.
-/

namespace TopK

variable {α : Type*}

/-- An item with fewer than `k` others in front of it is among the first `k`. -/
theorem mem_take_insertionSort [DecidableEq α] {r : α → α → Prop} [DecidableRel r] [Std.Total r]
    [IsTrans α r] {l : List α} {a : α} {k : ℕ} (ha : a ∈ l)
    (hcount : l.countP (fun b => r b a ∧ b ≠ a) < k) : a ∈ (l.insertionSort r).take k := by
  have hperm : (l.insertionSort r).Perm l := List.perm_insertionSort r l
  obtain ⟨before, after, hsplit, hbefore⟩ :=
    List.eq_append_cons_of_mem ((List.mem_insertionSort r).mpr ha)
  have hsorted : (before ++ a :: after).Pairwise r := hsplit ▸ List.pairwise_insertionSort r l
  have hfront : ∀ b ∈ before, decide (r b a ∧ b ≠ a) = true := by
    intro b hb
    have hrel : r b a := (List.pairwise_append.mp hsorted).2.2 b hb a List.mem_cons_self
    exact decide_eq_true ⟨hrel, fun heq => hbefore (heq ▸ hb)⟩
  have hlen : before.length < k := by
    refine Nat.lt_of_le_of_lt ?_ hcount
    rw [← hperm.countP_eq, hsplit, List.countP_append, List.countP_eq_length.mpr hfront]
    exact Nat.le_add_right _ _
  obtain ⟨n, rfl⟩ := Nat.exists_eq_add_of_lt hlen
  rw [hsplit, Nat.add_assoc, List.take_length_add_append, List.take_succ_cons]
  exact List.mem_append_right _ List.mem_cons_self

section Admission

variable {M : Type*} [Preorder M] [DecidableLE M] (metric : α → M) (k : ℕ)

/-- Admit an item unless `k` admitted ones are at least as good. -/
def consider (admitted : List α) (x : α) : List α :=
  if admitted.countP (fun y => metric y ≤ metric x) < k then x :: admitted else admitted

/-- The items that are admitted one after another, the last one first. -/
def admitAll (xs : List α) : List α := xs.foldl (consider metric k) []

variable {metric k} {xs ys : List α} {x : α}

/-- The last element is considered after the others. -/
theorem admitAll_concat : admitAll metric k (xs ++ [x]) =
    consider metric k (admitAll metric k xs) x := by
  rw [admitAll, List.foldl_append]
  rfl

private theorem consider_sublist : (consider metric k xs x).Sublist (x :: xs) := by
  rw [consider]
  split
  · exact List.Sublist.refl _
  · exact List.sublist_cons_self x xs

variable (metric k xs) in
/-- Only items of the list are admitted, each at most once. -/
theorem admitAll_sublist : (admitAll metric k xs).Sublist xs.reverse := by
  induction xs using List.reverseRecOn with
  | nil => exact List.Sublist.slnil
  | append_singleton xs x ih =>
    rw [admitAll_concat, List.reverse_concat]
    exact consider_sublist.trans (ih.cons_cons x)

private theorem mem_of_mem_admitAll (h : x ∈ admitAll metric k xs) : x ∈ xs :=
  List.mem_reverse.mp ((admitAll_sublist metric k xs).mem h)

/-- What is admitted stays admitted. -/
theorem admitAll_subset_append (h : x ∈ admitAll metric k xs) (ys : List α) :
    x ∈ admitAll metric k (xs ++ ys) := by
  induction ys using List.reverseRecOn with
  | nil => rwa [List.append_nil]
  | append_singleton ys y ih =>
    rw [← List.append_assoc, admitAll_concat, consider]
    split
    · exact List.mem_cons_of_mem y ih
    · exact ih

/-- An item is admitted if fewer than `k` of those admitted before it are at least as good. -/
theorem mem_admitAll_of_admitted
    (h : (admitAll metric k xs).countP (fun y => metric y ≤ metric x) < k) (ys : List α) :
    x ∈ admitAll metric k (xs ++ x :: ys) := by
  have hmem : x ∈ admitAll metric k (xs ++ [x]) := by
    rw [admitAll_concat, consider, if_pos h]
    exact List.mem_cons_self
  have hall := admitAll_subset_append hmem ys
  rwa [List.append_assoc] at hall

/-- An item is admitted if fewer than `k` items before it are at least as good. -/
theorem mem_admitAll_of_countP_lt (h : xs.countP (fun y => metric y ≤ metric x) < k)
    (ys : List α) : x ∈ admitAll metric k (xs ++ x :: ys) := by
  refine mem_admitAll_of_admitted (Nat.lt_of_le_of_lt ?_ h) ys
  rw [← xs.countP_reverse]
  exact (admitAll_sublist metric k xs).countP_le

/-- For each item an admitted one is at least as good. -/
theorem exists_admitted_le (hk : 0 < k) (h : x ∈ xs) :
    ∃ y ∈ admitAll metric k xs, metric y ≤ metric x := by
  obtain ⟨before, after, rfl⟩ := List.append_of_mem h
  by_cases hcount : (admitAll metric k before).countP (fun y => metric y ≤ metric x) < k
  · exact ⟨x, mem_admitAll_of_admitted hcount after, le_rfl⟩
  · have hpos : 0 < (admitAll metric k before).countP fun y => metric y ≤ metric x := by omega
    obtain ⟨y, hy, hle⟩ := List.countP_pos_iff.mp hpos
    exact ⟨y, admitAll_subset_append hy _, of_decide_eq_true hle⟩

end Admission

/-- The best of the list is the best of the admitted ones. -/
theorem isLeast_admitAll_iff {M : Type*} [PartialOrder M] [DecidableLE M] {metric : α → M} {k : ℕ}
    {xs : List α} {m : M} (hk : 0 < k) :
    IsLeast {n | ∃ x ∈ admitAll metric k xs, metric x = n} m ↔
      IsLeast {n | ∃ x ∈ xs, metric x = n} m := by
  constructor
  · rintro ⟨⟨y, hy, rfl⟩, hlower⟩
    refine ⟨⟨y, mem_of_mem_admitAll hy, rfl⟩, ?_⟩
    rintro n ⟨x, hx, rfl⟩
    obtain ⟨z, hz, hle⟩ : ∃ z ∈ admitAll metric k xs, metric z ≤ metric x :=
      exists_admitted_le hk hx
    exact (hlower ⟨z, hz, rfl⟩).trans hle
  · rintro ⟨⟨x, hx, rfl⟩, hlower⟩
    refine ⟨?_, ?_⟩
    · obtain ⟨y, hy, hle⟩ : ∃ y ∈ admitAll metric k xs, metric y ≤ metric x :=
        exists_admitted_le hk hx
      exact ⟨y, hy, le_antisymm hle (hlower ⟨y, mem_of_mem_admitAll hy, rfl⟩)⟩
    · rintro n ⟨y, hy, rfl⟩
      exact hlower ⟨y, mem_of_mem_admitAll hy, rfl⟩

end TopK
