/-!
# Computations with an exception

When a sequence of computations ends with a value, and when with an exception.
-/

namespace Except

variable {ε α β : Type} {x : Except ε α} {f : α → Except ε β} {e : ε}

/-- A sequence succeeds if both parts do. -/
theorem bind_eq_ok_iff {b : β} : (x >>= f) = ok b ↔ ∃ a, x = ok a ∧ f a = ok b := by
  cases x with
  | ok a => simp [bind, Except.bind]
  | error e => simp [bind, Except.bind]

/-- It fails if one of them does. -/
theorem bind_eq_error_iff :
    (x >>= f) = error e ↔ x = error e ∨ ∃ a, x = ok a ∧ f a = error e := by
  cases x with
  | ok a => simp [bind, Except.bind]
  | error e => simp [bind, Except.bind]

/-- Two steps, of which each succeeds under a condition and with a result that is known. -/
theorem bind_eq_ok_iff_and {P Q : Prop} {a : α} {b c : β} (hx : ∀ a', x = ok a' ↔ P ∧ a = a')
    (hf : f a = ok c ↔ Q ∧ b = c) : (x >>= f) = ok c ↔ (P ∧ Q) ∧ b = c := by
  rw [bind_eq_ok_iff]
  constructor
  · rintro ⟨a', ha', h⟩
    obtain ⟨hP, rfl⟩ := (hx a').mp ha'
    obtain ⟨hQ, hb⟩ := hf.mp h
    exact ⟨⟨hP, hQ⟩, hb⟩
  · rintro ⟨⟨hP, hQ⟩, hb⟩
    exact ⟨a, (hx a).mpr ⟨hP, rfl⟩, hf.mpr ⟨hQ, hb⟩⟩

/-- A loop whose rounds succeed on what satisfies `P`, each with the result that `g` has. -/
theorem foldlM_eq_ok_iff {step : α → β → Except ε α} {P : β → Prop} {g : α → β → α}
    (hstep : ∀ a b r, step a b = ok r ↔ P b ∧ g a b = r) {bs : List β} {a r : α} :
    bs.foldlM step a = ok r ↔ (∀ b ∈ bs, P b) ∧ bs.foldl g a = r := by
  induction bs generalizing a with
  | nil => simp [pure, Except.pure]
  | cons b bs ih =>
    rw [List.foldlM_cons, List.foldl_cons, List.forall_mem_cons]
    exact bind_eq_ok_iff_and (hstep a b) ih

/-- What a sequence of computations returns comes from one of them. -/
theorem exists_of_mem_mapM {as : List α} {bs : List β} {b : β} (h : as.mapM f = ok bs)
    (hb : b ∈ bs) : ∃ a ∈ as, f a = ok b := by
  induction as generalizing bs with
  | nil =>
    obtain rfl : [] = bs := ok.inj h
    nomatch hb
  | cons a as ih =>
    rw [List.mapM_cons, bind_eq_ok_iff] at h
    obtain ⟨c, hc, h⟩ := h
    rw [bind_eq_ok_iff] at h
    obtain ⟨cs, hcs, h⟩ := h
    obtain rfl : c :: cs = bs := ok.inj h
    rcases List.mem_cons.mp hb with rfl | hb
    · exact ⟨a, List.mem_cons_self, hc⟩
    · obtain ⟨a', ha', hf⟩ := ih hcs hb
      exact ⟨a', List.mem_cons_of_mem _ ha', hf⟩

/-- The result of a successful computation is mapped. -/
theorem map_eq_ok_iff {g : α → β} {b : β} : x.map g = ok b ↔ ∃ a, x = ok a ∧ g a = b := by
  cases x <;> simp [Except.map]

end Except
