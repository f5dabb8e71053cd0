import Mathlib.Data.Finset.Card
import Mathlib.Data.List.Perm.Basic

/-!
# Sets in hash tables

A set in the manner of `std::unordered_set`, for a hash function and an equality of its elements.
An element is looked for in its bucket only, so an equal element with another hash may be missed.
If the hash respects the equality, the table is a set: it holds no two equal elements, and an
element is found exactly if an equal one is stored.
-/

/-- A hash table: its elements in the order of iteration, and the number of its buckets. -/
structure UnorderedSet (α : Type*) where
  elems : List α
  bucketCount : ℕ

namespace UnorderedSet

variable {α : Type*} (hash : α → ℕ) (eq : α → α → Bool)

/-- An equal element is in the bucket. -/
def found (s : UnorderedSet α) (x : α) : Bool :=
  s.elems.any fun y => hash y % s.bucketCount == hash x % s.bucketCount && eq y x

/-- `count`. -/
def count (s : UnorderedSet α) (x : α) : ℕ := if s.found hash eq x then 1 else 0

/-- `size`. -/
def size (s : UnorderedSet α) : ℕ := s.elems.length

/-- The tables that insertions lead to. An insertion may leave any number of buckets and any order
of iteration. -/
inductive Built : UnorderedSet α → Prop
  | empty (bucketCount : ℕ) : Built ⟨[], bucketCount⟩
  | insert {s : UnorderedSet α} (x : α) {elems : List α} (bucketCount : ℕ) (h : Built s)
      (hperm : elems.Perm (if s.found hash eq x then s.elems else x :: s.elems)) :
      Built ⟨elems, bucketCount⟩

section Lawful

variable {hash eq} (heq : Equivalence fun a b => eq a b = true)
  (hhash : ∀ a b, eq a b = true → hash a = hash b) {s t : UnorderedSet α}

include hhash in
/-- An element is found if an equal one is in the set. -/
theorem found_iff {x : α} : s.found hash eq x = true ↔ ∃ y ∈ s.elems, eq y x = true := by
  simp only [found, List.any_eq_true, Bool.and_eq_true, beq_iff_eq]
  constructor
  · rintro ⟨y, hy, -, hyx⟩
    exact ⟨y, hy, hyx⟩
  · rintro ⟨y, hy, hyx⟩
    exact ⟨y, hy, by rw [hhash y x hyx], hyx⟩

include hhash in
/-- It is counted under the same condition. -/
theorem count_ne_zero_iff {x : α} : s.count hash eq x ≠ 0 ↔ ∃ y ∈ s.elems, eq y x = true := by
  rw [← found_iff hhash, count]
  simp

include heq hhash in
/-- No two elements are equal. -/
theorem Built.pairwise (h : Built hash eq s) : s.elems.Pairwise fun a b => eq a b = false := by
  induction h with
  | empty => exact .nil
  | insert x bucketCount h hperm ih =>
    have hsymm : ∀ {a b : α}, eq a b = false → eq b a = false := fun {a b} hab =>
      Bool.eq_false_iff.mpr fun hba => Bool.eq_false_iff.mp hab (heq.symm hba)
    refine (hperm.pairwise_iff hsymm).mpr ?_
    split
    · exact ih
    next hnew =>
      refine ih.cons fun y hy => Bool.eq_false_iff.mpr fun hxy => hnew ?_
      exact (found_iff hhash).mpr ⟨y, hy, heq.symm hxy⟩

/-- Every element of the first table has an equal one in the second. -/
def Includes (eq : α → α → Bool) (s t : UnorderedSet α) : Prop :=
  ∀ x ∈ s.elems, ∃ y ∈ t.elems, eq y x = true

open Classical in
/-- The classes of equal elements. -/
noncomputable def classes (s : UnorderedSet α) : Finset (Quotient ⟨_, heq⟩) :=
  (s.elems.map (Quotient.mk _)).toFinset

private theorem mk_mem_classes {x : α} :
    Quotient.mk ⟨_, heq⟩ x ∈ s.classes heq ↔ ∃ y ∈ s.elems, eq y x = true := by
  simp only [classes, List.mem_toFinset, List.mem_map]
  exact exists_congr fun y => and_congr_right fun _ => Quotient.eq

private theorem classes_subset_iff : s.classes heq ⊆ t.classes heq ↔ Includes eq s t := by
  constructor
  · intro hsub x hx
    exact (mk_mem_classes heq).mp (hsub ((mk_mem_classes heq).mpr ⟨x, hx, heq.refl x⟩))
  · intro hincl c hc
    obtain ⟨z, rfl⟩ := Quotient.exists_rep c
    obtain ⟨x, hx, hxz⟩ := (mk_mem_classes heq).mp hc
    obtain ⟨y, hy, hyx⟩ := hincl x hx
    exact (mk_mem_classes heq).mpr ⟨y, hy, heq.trans hyx hxz⟩

include hhash in
private theorem Built.card_classes (h : Built hash eq s) : (s.classes heq).card = s.size := by
  classical
  refine (List.toFinset_card_of_nodup ?_).trans (List.length_map _)
  refine List.pairwise_map.mpr ((h.pairwise heq hhash).imp fun hab hcl => ?_)
  exact Bool.eq_false_iff.mp hab (Quotient.eq.mp hcl)

include heq hhash in
/-- Tables of one size include each other if one includes the other, by counting classes. -/
theorem Built.includes_and_size_iff (hs : Built hash eq s) (ht : Built hash eq t) :
    s.size = t.size ∧ Includes eq s t ↔ Includes eq s t ∧ Includes eq t s := by
  rw [← classes_subset_iff heq, ← classes_subset_iff heq, ← hs.card_classes heq hhash,
    ← ht.card_classes heq hhash]
  constructor
  · rintro ⟨hcard, hsub⟩
    exact ⟨hsub, (Finset.eq_of_subset_of_card_le hsub hcard.ge).ge⟩
  · rintro ⟨hsub, hsup⟩
    exact ⟨congrArg Finset.card (hsub.antisymm hsup), hsub⟩

end Lawful

end UnorderedSet
