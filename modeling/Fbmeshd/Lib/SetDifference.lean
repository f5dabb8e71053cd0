import Mathlib.Data.List.Sort
import Mathlib.Data.List.TakeWhile
import Mathlib.Order.Basic

/-!
# Differences of sorted lists

`difference` walks through two sorted lists side by side, as `std::set_difference` does. If the
first list has no element twice, it keeps the elements that the second list does not have, each in
the place that its order among them gives it. The comparison need not be an order on all elements:
it is enough that it is one on those of the two lists.
-/

namespace SetDifference

variable {α β : Type*}

/-- A strict order in which different elements are comparable. -/
structure StrictTotal (lt : α → α → Bool) : Prop where
  asymm : ∀ {a b}, lt a b = true → lt b a = false
  trans : ∀ {a b c}, lt a b = true → lt b c = true → lt a c = true
  total : ∀ {a b}, lt a b = false → lt b a = false → a = b

/-- The elements of the first list that are left when those of the second are taken out. -/
def difference (lt : α → α → Bool) : List α → List α → List α
  | [], _ => []
  | a :: as, bs =>
    match bs.dropWhile (lt · a) with
    | [] => a :: as
    | b :: bs => if lt a b then a :: difference lt as (b :: bs) else difference lt as bs

/-- A list in ascending order. -/
def sort (lt : α → α → Bool) (l : List α) : List α := l.insertionSort fun a b => lt b a = false

section Sorting

variable {lt : α → α → Bool} {l l₁ l₂ : List α} {x : α}

private theorem perm_sort (l : List α) : (sort lt l).Perm l := List.perm_insertionSort _ l

/-- Sorting keeps the elements. -/
@[simp] theorem mem_sort : x ∈ sort lt l ↔ x ∈ l := (perm_sort l).mem_iff

/-- The elements that are left stay in their order. -/
theorem difference_sublist (lt : α → α → Bool) (l₁ l₂ : List α) :
    (difference lt l₁ l₂).Sublist l₁ := by
  induction l₁ generalizing l₂ with
  | nil => exact List.Sublist.refl []
  | cons a as ih =>
    rw [difference]
    split
    · exact List.Sublist.refl _
    · split
      · exact (ih _).cons_cons a
      · exact (ih _).cons a

private theorem mem_dropWhile_iff {p : α → Bool} (hx : p x = false) :
    x ∈ l.dropWhile p ↔ x ∈ l := by
  constructor
  · exact fun hmem => (List.dropWhile_sublist p).subset hmem
  · intro hmem
    rw [← List.takeWhile_append_dropWhile (p := p) (l := l)] at hmem
    refine (List.mem_append.mp hmem).resolve_left fun htake => ?_
    exact absurd (List.mem_takeWhile_imp htake) (by simp [hx])

private theorem head_of_dropWhile {p : α → Bool} {b : α} {bs : List α}
    (h : l.dropWhile p = b :: bs) :
    p b = false := by
  have hnot := List.head_dropWhile_not p (l := l) (by simp [h])
  simpa [h] using hnot

variable (h : StrictTotal lt)

include h

/-- Nothing is less than itself. -/
theorem StrictTotal.irrefl (a : α) : lt a a = false := by
  cases hlt : lt a a with
  | false => rfl
  | true => exact hlt.symm.trans (h.asymm hlt)

/-- An element below another one is below what is not less than that. -/
theorem StrictTotal.lt_of_lt_of_le {a b c : α} (hab : lt a b = true) (hbc : lt c b = false) :
    lt a c = true := by
  cases hlt : lt b c with
  | true => exact h.trans hab hlt
  | false => rwa [← h.total hlt hbc]

private theorem pairwise_sort (l : List α) : (sort lt l).Pairwise fun a b => lt b a = false := by
  have : Std.Total fun a b => lt b a = false := ⟨fun a b => by
    cases hlt : lt b a with
    | false => exact .inl rfl
    | true => exact .inr (h.asymm hlt)⟩
  have : IsTrans α fun a b => lt b a = false := ⟨fun a b c hab hbc => by
    cases hlt : lt c a with
    | false => rfl
    | true => exact (h.lt_of_lt_of_le hlt hab).symm.trans hbc⟩
  exact List.pairwise_insertionSort _ l

/-- Without repetitions the order is strict. -/
theorem pairwise_sort_of_nodup (hl : l.Nodup) : (sort lt l).Pairwise fun a b => lt a b = true := by
  have hne : (sort lt l).Nodup := (perm_sort l).nodup_iff.mpr hl
  refine (hne.and (pairwise_sort h l)).imp fun {a b} hab => ?_
  cases hlt : lt a b with
  | true => rfl
  | false => exact absurd (h.total hlt hab.2) hab.1

private theorem mem_difference_iff (h₁ : l₁.Pairwise fun a b => lt a b = true)
    (h₂ : l₂.Pairwise fun a b => lt b a = false) :
    x ∈ difference lt l₁ l₂ ↔ x ∈ l₁ ∧ x ∉ l₂ := by
  induction l₁ generalizing l₂ with
  | nil => simp [difference]
  | cons a as ih =>
    obtain ⟨ha, has⟩ := List.pairwise_cons.mp h₁
    have hsorted := h₂.sublist (List.dropWhile_sublist (lt · a))
    -- what is dropped is smaller than `a`, so no element of the first list is
    have hself : a ∈ l₂.dropWhile (lt · a) ↔ a ∈ l₂ := mem_dropWhile_iff (h.irrefl a)
    have htail (hx : x ∈ as) : x ∈ l₂.dropWhile (lt · a) ↔ x ∈ l₂ :=
      mem_dropWhile_iff (h.asymm (ha x hx))
    rw [difference]
    cases hd : l₂.dropWhile (lt · a) with
    | nil =>
      simp only [hd, List.not_mem_nil, false_iff] at hself htail
      constructor
      · intro hx
        refine ⟨hx, ?_⟩
        rcases List.mem_cons.mp hx with rfl | hx
        · exact hself
        · exact htail hx
      · exact And.left
    | cons b bs =>
      rw [hd] at hself htail hsorted
      obtain ⟨hb, hbs⟩ := List.pairwise_cons.mp hsorted
      dsimp only
      split
      next hab =>
        have hnot : a ∉ b :: bs := by
          intro hmem
          rcases List.mem_cons.mp hmem with rfl | hmem
          · exact absurd hab (by simp [h.irrefl a])
          · have hlt := h.lt_of_lt_of_le hab (hb a hmem)
            exact absurd hlt (by simp [h.irrefl a])
        rw [List.mem_cons, List.mem_cons, ih has hsorted]
        constructor
        · rintro (rfl | ⟨hx, hnew⟩)
          · exact ⟨.inl rfl, mt hself.mpr hnot⟩
          · exact ⟨.inr hx, mt (htail hx).mpr hnew⟩
        · rintro ⟨rfl | hx, hnew⟩
          · exact .inl rfl
          · exact .inr ⟨hx, mt (htail hx).mp hnew⟩
      next hab =>
        have hba : lt b a = false := head_of_dropWhile (p := (lt · a)) hd
        obtain rfl : a = b := h.total (by simpa using hab) hba
        rw [List.mem_cons, ih has hbs]
        constructor
        · rintro ⟨hx, hnew⟩
          refine ⟨.inr hx, fun hmem => ?_⟩
          rcases List.mem_cons.mp ((htail hx).mpr hmem) with rfl | hmem
          · exact absurd (ha x hx) (by simp [h.irrefl x])
          · exact hnew hmem
        · rintro ⟨rfl | hx, hnew⟩
          · exact absurd (hself.mp List.mem_cons_self) hnew
          · exact ⟨hx, fun hmem => hnew ((htail hx).mp (List.mem_cons_of_mem _ hmem))⟩

end Sorting

section Positions

variable {lt : α → α → Bool} {l : List α} {x : α} {n : ℕ}

/-- An element of a sorted list comes after as many elements as are smaller. -/
theorem getElem?_eq_some_iff_countP (h : StrictTotal lt)
    (hl : l.Pairwise fun a b => lt a b = true) :
    l[n]? = some x ↔ x ∈ l ∧ n = l.countP (lt · x) := by
  induction l generalizing n with
  | nil => simp
  | cons a as ih =>
    obtain ⟨ha, has⟩ := List.pairwise_cons.mp hl
    have hfirst : (a :: as).countP (lt · a) = 0 := by
      rw [List.countP_eq_zero]
      intro b hb
      rcases List.mem_cons.mp hb with rfl | hb
      · simp [h.irrefl b]
      · simp [h.asymm (ha b hb)]
    have hlater (hx : x ∈ as) : (a :: as).countP (lt · x) = as.countP (lt · x) + 1 := by
      rw [List.countP_cons, if_pos (ha x hx)]
    cases n with
    | zero =>
      rw [List.getElem?_cons_zero, Option.some.injEq, List.mem_cons]
      constructor
      · rintro rfl
        exact ⟨.inl rfl, hfirst.symm⟩
      · rintro ⟨rfl | hx, hn⟩
        · rfl
        · rw [hlater hx] at hn
          omega
    | succ n =>
      rw [List.getElem?_cons_succ, ih has, List.mem_cons]
      constructor
      · rintro ⟨hx, hn⟩
        exact ⟨.inr hx, by rw [hlater hx, hn]⟩
      · rintro ⟨rfl | hx, hn⟩
        · omega
        · rw [hlater hx] at hn
          exact ⟨hx, by omega⟩

end Positions

section Restricted

variable {p : α → Prop} {lt cmp : α → α → Bool} {l : List {x // p x}} {l₁ l₂ : List α}

private theorem map_sort (h : ∀ a b, p a → p b → cmp a b = lt a b) :
    sort cmp (l.map Subtype.val) = (sort (fun a b : {x // p x} => lt a b) l).map Subtype.val :=
  (List.map_insertionSort _ _ Subtype.val l fun a _ b _ => by rw [h b a b.2 a.2]).symm

private theorem map_difference (l₁ l₂ : List {x // p x}) :
    difference lt (l₁.map Subtype.val) (l₂.map Subtype.val) =
      (difference (fun a b : {x // p x} => lt a b) l₁ l₂).map Subtype.val := by
  induction l₁ generalizing l₂ with
  | nil => rfl
  | cons a as ih =>
    have hdrop : (l₂.map Subtype.val).dropWhile (lt · a) =
        (l₂.dropWhile fun b : {x // p x} => lt b a).map Subtype.val := by
      rw [List.dropWhile_map]
      rfl
    rw [List.map_cons, difference, difference, hdrop]
    cases l₂.dropWhile fun b : {x // p x} => lt b a with
    | nil => rfl
    | cons b bs =>
      simp only [List.map_cons]
      split
      · rw [List.map_cons, ← ih, List.map_cons]
      · exact ih bs

/-- Where the elements of a difference are in it. -/
theorem getElem?_difference_sort {lt : α → α → Bool} (h : StrictTotal lt) {l₁ l₂ : List α}
    (hl : l₁.Nodup) {isLeft : α → Bool} (hleft : ∀ y, isLeft y = true ↔ y ∉ l₂) {x : α} {n : ℕ} :
    (difference lt (sort lt l₁) (sort lt l₂))[n]? = some x ↔
      x ∈ l₁ ∧ x ∉ l₂ ∧ n = l₁.countP fun y => lt y x && isLeft y := by
  have hsorted := (pairwise_sort_of_nodup h hl).sublist (difference_sublist lt _ (sort lt l₂))
  have hmem (y : α) : y ∈ difference lt (sort lt l₁) (sort lt l₂) ↔ y ∈ l₁ ∧ y ∉ l₂ := by
    rw [mem_difference_iff h (pairwise_sort_of_nodup h hl) (pairwise_sort h l₂), mem_sort, mem_sort]
  -- the difference is a permutation of what a filter leaves
  have hperm : (difference lt (sort lt l₁) (sort lt l₂)).Perm (l₁.filter isLeft) := by
    refine (List.perm_ext_iff_of_nodup (hsorted.imp fun {a b} hab => ?_) (hl.filter _)).mpr
      fun y => ?_
    · rintro rfl
      simp [h.irrefl a] at hab
    · rw [hmem, List.mem_filter, hleft]
  rw [getElem?_eq_some_iff_countP h hsorted, hmem, hperm.countP_eq, List.countP_filter, and_assoc]

/-- The comparison may be an order on the elements at hand only, and the two lists may be sorted by
another comparison that is the same on them. -/
theorem getElem?_difference_sort_on (h : StrictTotal fun a b : {x // p x} => lt a b)
    (hcmp : ∀ a b, p a → p b → cmp a b = lt a b) (h₁ : ∀ x ∈ l₁, p x) (h₂ : ∀ x ∈ l₂, p x)
    (hl : l₁.Nodup) {isLeft : α → Bool} (hleft : ∀ y, isLeft y = true ↔ y ∉ l₂) {x : α} {n : ℕ} :
    (difference lt (sort cmp l₁) (sort cmp l₂))[n]? = some x ↔
      x ∈ l₁ ∧ x ∉ l₂ ∧ n = l₁.countP fun y => lt y x && isLeft y := by
  obtain ⟨l₁, rfl⟩ : ∃ l : List {x // p x}, l.map Subtype.val = l₁ :=
    ⟨l₁.attachWith p h₁, List.attachWith_map_subtype_val h₁⟩
  obtain ⟨l₂, rfl⟩ : ∃ l : List {x // p x}, l.map Subtype.val = l₂ :=
    ⟨l₂.attachWith p h₂, List.attachWith_map_subtype_val h₂⟩
  have hvalue (y : {x // p x}) (l : List {x // p x}) : y.1 ∈ l.map Subtype.val ↔ y ∈ l :=
    List.mem_map_of_injective Subtype.val_injective
  have hleft' (y : {x // p x}) : isLeft y = true ↔ y ∉ l₂ := by rw [hleft, hvalue]
  rw [map_sort hcmp, map_sort hcmp, map_difference, List.getElem?_map, Option.map_eq_some_iff,
    List.countP_map]
  constructor
  · rintro ⟨y, hy, rfl⟩
    obtain ⟨hmem, hnot, hn⟩ := (getElem?_difference_sort h hl.of_map hleft').mp hy
    exact ⟨(hvalue y l₁).mpr hmem, mt (hvalue y l₂).mp hnot, hn⟩
  · rintro ⟨hmem, hnot, hn⟩
    obtain ⟨y, hy, rfl⟩ := List.mem_map.mp hmem
    exact ⟨y, (getElem?_difference_sort h hl.of_map hleft').mpr
      ⟨hy, mt (hvalue y l₂).mpr hnot, hn⟩, rfl⟩

end Restricted

end SetDifference
