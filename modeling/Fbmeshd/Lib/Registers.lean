import Mathlib.Data.Option.Basic
import Mathlib.Logic.Basic

/-!
# Registers

Updates of a state that overwrite parts of it. A register is a part that each update either gives a
new value or leaves alone, so after a list of updates its value comes from the last one that gave it
a value, or from the start.
-/

namespace Registers

variable {S U F : Type*} {apply : S → U → S}

/-- A part of the state that an update overwrites or leaves alone. -/
structure Register (apply : S → U → S) (F : Type*) where
  read : S → F
  writes : U → Option F
  read_apply : ∀ s u, read (apply s u) = (writes u).getD (read s)

/-- Two runs of the same updates differ in a register if it differs at the start and no update
writes it. -/
theorem Register.read_foldl_eq_iff (r : Register apply F) (us : List U) (s s' : S) :
    r.read (us.foldl apply s) = r.read (us.foldl apply s') ↔
      (∃ u ∈ us, r.writes u ≠ none) ∨ r.read s = r.read s' := by
  induction us generalizing s s' with
  | nil => simp
  | cons u us ih =>
    rw [List.foldl_cons, List.foldl_cons, ih, r.read_apply, r.read_apply]
    cases hu : r.writes u with
    | none => simp [hu]
    | some v => simp [hu]

/-- A register that one kind of update writes. -/
theorem Register.exists_writes_iff {A : Type*} {update : A → U} (r : Register apply F)
    (h : ∀ u, r.writes u ≠ none ↔ ∃ a, u = update a) (us : List U) :
    (∃ u ∈ us, r.writes u ≠ none) ↔ ∃ a, update a ∈ us := by
  constructor
  · rintro ⟨u, hu, hwrites⟩
    obtain ⟨a, rfl⟩ := (h u).mp hwrites
    exact ⟨a, hu⟩
  · rintro ⟨a, ha⟩
    exact ⟨update a, ha, (h _).mpr ⟨a, rfl⟩⟩

/-- What every update preserves holds between the ends of two runs. -/
theorem related_foldl {R : S → S → Prop} (h : ∀ u s s', R s s' → R (apply s u) (apply s' u))
    (us : List U) {s s' : S} (hs : R s s') : R (us.foldl apply s) (us.foldl apply s') := by
  induction us generalizing s s' with
  | nil => exact hs
  | cons u us ih => exact ih (h u s s' hs)

end Registers
