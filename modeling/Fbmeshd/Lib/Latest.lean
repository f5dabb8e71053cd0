import Mathlib.Data.List.Induction

/-!
# The latest item of a history

A history is a list of items in the order in which they came, each with a key. What is recorded
under a key is overwritten by every item with that key, so in the end it is what the latest one
says.
-/

namespace Latest

variable {α κ : Type*} [DecidableEq κ] {key : α → κ} {k : κ} {xs : List α} {x : α}

variable (key k) in
/-- The latest item with a key. -/
def latest (xs : List α) : Option α := xs.reverse.find? fun x => key x = k

/-- There is none without entries. -/
@[simp] theorem latest_nil : latest key k [] = none := rfl

/-- The last entry is the latest one of its key. -/
@[simp] theorem latest_concat :
    latest key k (xs ++ [x]) = if key x = k then some x else latest key k xs := by
  rw [latest, List.reverse_concat, List.find?_cons]
  by_cases h : key x = k
  · simp [h]
  · simp [h, latest]

/-- The latest entry has the key. -/
theorem key_of_latest (h : latest key k xs = some x) : key x = k := by
  have hfound := List.find?_some h
  exact of_decide_eq_true hfound

/-- It is one of the entries. -/
theorem mem_of_latest (h : latest key k xs = some x) : x ∈ xs :=
  List.mem_reverse.mp (List.mem_of_find?_eq_some h)

/-- There is one for the key of every entry. -/
theorem exists_latest (hx : x ∈ xs) (hkey : key x = k) : ∃ y, latest key k xs = some y := by
  refine Option.isSome_iff_exists.mp (List.find?_isSome.mpr ?_)
  exact ⟨x, List.mem_reverse.mpr hx, decide_eq_true hkey⟩

/-- Without one, no entry has the key. -/
theorem latest_eq_none (h : latest key k xs = none) (hx : x ∈ xs) : key x ≠ k := by
  intro hkey
  obtain ⟨y, hy⟩ := exists_latest hx hkey
  rw [h] at hy
  cases hy

/-- A state that records, under the key of every item, what the item says: a step changes the
record of that key alone. -/
theorem record_foldl {σ β : Type*} {step : σ → α → σ} (record : σ → κ → Option β) {val : α → β}
    (hstep : ∀ s x k, record (step s x) k = if key x = k then some (val x) else record s k)
    {s : σ} (hs : record s k = none) :
    record (xs.foldl step s) k = (latest key k xs).map val := by
  induction xs using List.reverseRecOn with
  | nil => exact hs
  | append_singleton xs x ih =>
    rw [List.foldl_append, List.foldl_cons, List.foldl_nil, hstep, latest_concat, ih]
    split <;> rfl

/-- A loop that keeps the last match. -/
theorem foldl_keep {β : Type*} (val : α → β) (init : β) :
    xs.foldl (fun b x => if key x = k then val x else b) init =
      ((latest key k xs).map val).getD init := by
  induction xs using List.reverseRecOn with
  | nil => rfl
  | append_singleton xs x ih =>
    rw [List.foldl_append, List.foldl_cons, List.foldl_nil, latest_concat, ih]
    split <;> rfl

end Latest
