import Mathlib.Data.List.Basic

/-!
# Computations that may throw

An action changes a state and may end with an exception. What it changed by then stays changed,
and the actions after it do not run. A record of the past that an action can only extend
satisfies `Reflects`: what is true of the record afterwards was true of it before. The rules
below follow an invariant through sequences and loops under an assumption of this kind about
the state at the end.
-/

namespace Fallible

variable {σ ε α : Type*}

/-- A computation on a state, with the exception it ends with, if any. -/
abbrev Action (σ ε : Type*) := σ → σ × Option ε

/-- The action that changes the state and does not throw. -/
def modify (f : σ → σ) : Action σ ε := fun s => (f s, none)

/-- Run `b` unless `a` throws. -/
def andThen (a b : Action σ ε) : Action σ ε := fun s =>
  match (a s).2 with
  | none => b (a s).1
  | some e => ((a s).1, some e)

/-- Run an action for each element of a list until one throws. -/
def forEach (f : α → Action σ ε) : List α → Action σ ε
  | [] => fun s => (s, none)
  | x :: xs => andThen (f x) (forEach f xs)

/-- Handle the exception of an action: it becomes another one, or none. -/
def handle (h : ε → Option ε) (a : Action σ ε) : Action σ ε := fun s => ((a s).1, (a s).2.bind h)

variable {a b : Action σ ε} {f : α → Action σ ε} {s : σ}

/-- The second action runs if the first one does not fail. -/
theorem andThen_of_none (h : (a s).2 = none) : andThen a b s = b (a s).1 := by
  simp only [andThen, h]

/-- A failure of the first action is the failure. -/
theorem andThen_of_some {e : ε} (h : (a s).2 = some e) : andThen a b s = ((a s).1, some e) := by
  simp only [andThen, h]

/-- A sequence that throws nothing is two actions that throw nothing. -/
theorem andThen_eq_none (h : (andThen a b s).2 = none) :
    (a s).2 = none ∧ andThen a b s = b (a s).1 := by
  cases hres : (a s).2 with
  | none => exact ⟨rfl, andThen_of_none hres⟩
  | some e => simp [andThen_of_some hres] at h

/-- A sequence throws nothing that neither of its actions throws. -/
theorem andThen_ne_some {e : ε} (ha : (a s).2 ≠ some e) (hb : (b (a s).1).2 ≠ some e) :
    (andThen a b s).2 ≠ some e := by
  cases hres : (a s).2 with
  | none => rwa [andThen_of_none hres]
  | some e' =>
    rw [andThen_of_some hres]
    exact hres ▸ ha

/-- A change of the state does not fail. -/
@[simp] theorem modify_apply (g : σ → σ) (s : σ) : (modify g s : σ × Option ε) = (g s, none) := rfl

/-- An action after a change of the state. -/
@[simp] theorem andThen_modify (g : σ → σ) : andThen (modify g) b s = b (g s) := rfl

/-- An empty loop does nothing. -/
@[simp] theorem forEach_nil : forEach f [] s = (s, none) := rfl

/-- Sequences need no brackets. -/
theorem andThen_assoc (a b c : Action σ ε) :
    andThen (andThen a b) c = andThen a (andThen b c) := by
  funext s
  cases hres : (a s).2 with
  | none => simp only [andThen, hres]
  | some e => simp only [andThen, hres]

/-- Nothing is done at the end. -/
theorem andThen_done (a : Action σ ε) : andThen a (fun s => (s, none)) = a := by
  funext s
  cases hres : (a s).2 with
  | none => rw [andThen_of_none hres, ← hres]
  | some e => rw [andThen_of_some hres, ← hres]

/-- A loop whose rounds do nothing. -/
theorem forEach_of_unchanged {xs : List α} (h : ∀ x ∈ xs, f x s = (s, none)) :
    forEach f xs s = (s, none) := by
  induction xs with
  | nil => rfl
  | cons x xs ih =>
    have hx := h x List.mem_cons_self
    rw [forEach, andThen_of_none (by rw [hx]), hx]
    exact ih fun y hy => h y (List.mem_cons_of_mem _ hy)

/-- A loop whose rounds throw nothing is a fold. -/
theorem forEach_modify {g : α → σ → σ} (xs : List α) (s : σ) :
    (forEach (fun x => modify (g x)) xs s : σ × Option ε) =
      (xs.foldl (fun s x => g x s) s, none) := by
  induction xs generalizing s with
  | nil => rfl
  | cons x xs ih => exact ih (g x s)

/-- A loop that throws nothing carries what each of its rounds carries. `Q` relates the elements
that remain to the state. -/
theorem forEach_of_none {Q : List α → σ → Prop}
    (hround : ∀ x xs s, Q (x :: xs) s → (f x s).2 = none → Q xs (f x s).1) {xs : List α}
    (h : Q xs s) (hdone : (forEach f xs s).2 = none) : Q [] (forEach f xs s).1 := by
  induction xs generalizing s with
  | nil => exact h
  | cons x xs ih =>
    obtain ⟨hx, heq⟩ := andThen_eq_none hdone
    rw [forEach, heq]
    exact ih (hround x xs s h hx) (by rwa [forEach, heq] at hdone)

/-- What holds after the action held before. -/
def Reflects (T : σ → Prop) (a : Action σ ε) : Prop := ∀ s, T (a s).1 → T s

/-- The action keeps `I`, if `T` holds after it. -/
def Keeps (T I : σ → Prop) (a : Action σ ε) : Prop := ∀ s, I s → T (a s).1 → I (a s).1

/-- The action throws nothing from a state with `I`, if `T` holds after it. -/
def Completes (T I : σ → Prop) (a : Action σ ε) : Prop := ∀ s, I s → T (a s).1 → (a s).2 = none

variable {T I : σ → Prop}

/-- What holds at the end of a sequence held after its first part. -/
theorem Reflects.first (hb : Reflects T b) (hT : T (Fallible.andThen a b s).1) : T (a s).1 := by
  cases hres : (a s).2 with
  | none =>
    rw [andThen_of_none hres] at hT
    exact hb _ hT
  | some e => rwa [andThen_of_some hres] at hT

/-- What held before two actions in a row. -/
theorem Reflects.andThen (ha : Reflects T a) (hb : Reflects T b) : Reflects T (andThen a b) :=
  fun s hT => ha s (hb.first hT)

/-- What held before a loop. -/
theorem Reflects.forEach (hf : ∀ x, Reflects T (f x)) (xs : List α) :
    Reflects T (forEach f xs) := by
  induction xs with
  | nil => exact fun _ hT => hT
  | cons x xs ih => exact (hf x).andThen ih

/-- Two actions that keep the invariant. -/
theorem Keeps.andThen (hrefl : Reflects T b) (ha : Keeps T I a) (hb : Keeps T I b) :
    Keeps T I (andThen a b) := by
  intro s hI hT
  cases hres : (a s).2 with
  | none =>
    rw [andThen_of_none hres] at hT ⊢
    exact hb _ (ha s hI (hrefl _ hT)) hT
  | some e =>
    rw [andThen_of_some hres] at hT ⊢
    exact ha s hI hT

/-- A loop whose rounds keep it. -/
theorem Keeps.forEach (hrefl : ∀ x, Reflects T (f x)) (hf : ∀ x, Keeps T I (f x)) (xs : List α) :
    Keeps T I (forEach f xs) := by
  induction xs with
  | nil => exact fun _ hI _ => hI
  | cons x xs ih => exact .andThen (.forEach hrefl xs) (hf x) ih

/-- Two actions that do not fail. -/
theorem Completes.andThen (hrefl : Reflects T b) (hkeep : Keeps T I a) (ha : Completes T I a)
    (hb : Completes T I b) : Completes T I (andThen a b) := by
  intro s hI hT
  cases hres : (a s).2 with
  | none =>
    rw [andThen_of_none hres] at hT ⊢
    exact hb _ (hkeep s hI (hrefl _ hT)) hT
  | some e =>
    rw [andThen_of_some hres] at hT
    exact absurd (ha s hI hT) (by simp [hres])

/-- A loop completes, if each of its rounds does as long as `T` holds afterwards. `Q` relates the
elements that remain to the state. -/
theorem forEach_completes {Q : List α → σ → Prop} (hrefl : ∀ x, Reflects T (f x))
    (hround : ∀ x xs s, Q (x :: xs) s → T (f x s).1 → (f x s).2 = none ∧ Q xs (f x s).1)
    {xs : List α} (h : Q xs s) (hT : T (forEach f xs s).1) :
    (forEach f xs s).2 = none ∧ Q [] (forEach f xs s).1 := by
  induction xs generalizing s with
  | nil => exact ⟨rfl, h⟩
  | cons x xs ih =>
    have hTx : T (f x s).1 := (Reflects.forEach hrefl xs).first hT
    obtain ⟨hres, hQ⟩ := hround x xs s h hTx
    rw [forEach, andThen_of_none hres] at hT ⊢
    exact ih hQ hT

/-!
## Invariants

An invariant holds whether or not the action throws.
-/

/-- The action keeps `I`, also if it throws. -/
def Preserves (I : σ → Prop) (a : Action σ ε) : Prop := ∀ s, I s → I (a s).1

/-- Two actions that preserve the invariant. -/
theorem Preserves.andThen (ha : Preserves I a) (hb : Preserves I b) :
    Preserves I (andThen a b) := by
  intro s hI
  cases hres : (a s).2 with
  | none =>
    rw [andThen_of_none hres]
    exact hb _ (ha s hI)
  | some e =>
    rw [andThen_of_some hres]
    exact ha s hI

/-- Exceptions may be caught. -/
theorem Preserves.handle (ha : Preserves I a) (h : ε → Option ε) : Preserves I (handle h a) :=
  fun s hI => ha s hI

/-- After an action that keeps `I`, only the states with `I` matter. -/
theorem Preserves.andThen_congr {b' : Action σ ε} (ha : Preserves I a)
    (hb : ∀ s, I s → b s = b' s) (hI : I s) : Fallible.andThen a b s = Fallible.andThen a b' s := by
  cases hres : (a s).2 with
  | none => rw [andThen_of_none hres, andThen_of_none hres, hb _ (ha s hI)]
  | some e => rw [andThen_of_some hres, andThen_of_some hres]

/-- A loop whose rounds preserve the invariant. -/
theorem Preserves.forEach {xs : List α} (hf : ∀ x ∈ xs, Preserves I (f x)) :
    Preserves I (forEach f xs) := by
  induction xs with
  | nil => exact fun _ hI => hI
  | cons x xs ih =>
    obtain ⟨hx, hxs⟩ := List.forall_mem_cons.mp hf
    exact hx.andThen (ih hxs)

/-- Each round of a loop starts from a state with `P`, until one throws. -/
def Along (P : α → σ → Prop) (f : α → Action σ ε) : List α → σ → Prop
  | [], _ => True
  | x :: xs, s => P x s ∧ ((f x s).2 = none → Along P f xs (f x s).1)

/-- A loop keeps `I` if each round does that starts from a state with `P`. -/
theorem Along.invariant {P : α → σ → Prop} (hround : ∀ x s, P x s → I s → I (f x s).1)
    {xs : List α} (halong : Along P f xs s) (hI : I s) : I (Fallible.forEach f xs s).1 := by
  induction xs generalizing s with
  | nil => exact hI
  | cons x xs ih =>
    obtain ⟨hx, hxs⟩ := halong
    cases hres : (f x s).2 with
    | none =>
      rw [Fallible.forEach, andThen_of_none hres]
      exact ih (hxs hres) (hround x s hx hI)
    | some e =>
      rw [Fallible.forEach, andThen_of_some hres]
      exact hround x s hx hI

/-- What is true of every round in every state. -/
theorem Along.of_forall {P : α → σ → Prop} (h : ∀ x s, P x s) {xs : List α} : Along P f xs s := by
  induction xs generalizing s with
  | nil => trivial
  | cons x xs ih => exact ⟨h x s, fun _ => ih⟩

/-- A loop whose rounds throw nothing and keep `I`. -/
theorem forEach_total (xs : List α)
    (hf : ∀ x ∈ xs, ∀ s, I s → (f x s).2 = none ∧ I (f x s).1) (h : I s) :
    (forEach f xs s).2 = none ∧ I (forEach f xs s).1 := by
  induction xs generalizing s with
  | nil => exact ⟨rfl, h⟩
  | cons x xs ih =>
    obtain ⟨hnone, hround⟩ := hf x List.mem_cons_self s h
    rw [forEach, andThen_of_none hnone]
    exact ih (fun y hy => hf y (List.mem_cons_of_mem x hy)) hround

/-- Each round starts from `J` and keeps `I`, and `J` as well unless it throws. -/
theorem preserves_forEach_of_round {J : σ → Prop} (himp : ∀ s, J s → I s)
    (hround : ∀ x s, J s → I (f x s).1 ∧ ((f x s).2 = none → J (f x s).1)) (xs : List α)
    (h : J s) : I (forEach f xs s).1 := by
  induction xs generalizing s with
  | nil => exact himp s h
  | cons x xs ih =>
    obtain ⟨hI, hJ⟩ := hround x s h
    cases hres : (f x s).2 with
    | none =>
      rw [forEach, andThen_of_none hres]
      exact ih (hJ hres)
    | some e =>
      rw [forEach, andThen_of_some hres]
      exact hI

/-!
## Exceptions

Which exceptions an action ends with.
-/

section Throws

variable {P Q : ε → Prop}

/-- The exception of the action from this state, if any, satisfies `P`. -/
def Throws (P : ε → Prop) (a : Action σ ε) (s : σ) : Prop := ∀ e, (a s).2 = some e → P e

/-- What does not throw throws nothing else. -/
theorem Throws.of_none (h : (a s).2 = none) : Throws P a s := fun e he => by simp [h] at he

/-- Two actions whose exceptions are known. -/
theorem Throws.andThen (ha : Throws P a s) (hb : (a s).2 = none → Throws P b (a s).1) :
    Throws P (andThen a b) s := by
  cases hres : (a s).2 with
  | none =>
    unfold Throws
    rw [andThen_of_none hres]
    exact hb hres
  | some e =>
    unfold Throws
    rw [andThen_of_some hres, ← hres]
    exact ha

/-- A loop throws what its rounds throw from states with `I`. -/
theorem Throws.forEach {xs : List α}
    (hf : ∀ x ∈ xs, ∀ s, I s → Throws P (f x) s ∧ I (f x s).1) (h : I s) :
    Throws P (forEach f xs) s := by
  induction xs generalizing s with
  | nil => exact .of_none rfl
  | cons x xs ih =>
    obtain ⟨hx, hI⟩ := hf x List.mem_cons_self s h
    exact hx.andThen fun _ => ih (fun y hy => hf y (List.mem_cons_of_mem x hy)) hI

/-- The exceptions that are not caught. -/
theorem Throws.handle {h : ε → Option ε} (ha : Throws P a s)
    (hh : ∀ e e', P e → h e = some e' → Q e') : Throws Q (handle h a) s := by
  intro e' he'
  obtain ⟨e, he, heq⟩ := Option.bind_eq_some_iff.mp he'
  exact hh e e' (ha e he) heq

end Throws

/-!
## Faithful reports

An action that keeps a log reports faithfully if it throws exactly when the log has got an entry
that is not in order.
-/

section Reports

variable {β : Type*} {log : σ → List β} {ok : β → Prop}

/-- The action throws nothing exactly if all new entries of the log are in order. -/
def Reports (log : σ → List β) (ok : β → Prop) (a : Action σ ε) (s : σ) : Prop :=
  ∃ new, log (a s).1 = log s ++ new ∧ ((a s).2 = none ↔ ∀ x ∈ new, ok x)

/-- An action that logs nothing and does not fail. -/
theorem Reports.of_unlogged (hlog : log (a s).1 = log s) (hnone : (a s).2 = none) :
    Reports log ok a s :=
  ⟨[], by rw [hlog, List.append_nil], by simp [hnone]⟩

/-- Two actions that report. -/
theorem Reports.andThen (ha : Reports log ok a s)
    (hb : (a s).2 = none → Reports log ok b (a s).1) : Reports log ok (andThen a b) s := by
  obtain ⟨first, hfirst, hok⟩ := ha
  cases hres : (a s).2 with
  | none =>
    obtain ⟨second, hsecond, hok'⟩ := hb hres
    refine ⟨first ++ second, ?_, ?_⟩
    · rw [andThen_of_none hres, hsecond, hfirst, List.append_assoc]
    · rw [andThen_of_none hres, hok', List.forall_mem_append, and_iff_right (hok.mp hres)]
  | some e =>
    refine ⟨first, by rw [andThen_of_some hres, hfirst], ?_⟩
    rw [andThen_of_some hres, ← hok, hres]

/-- A loop reports faithfully, if its rounds do in the states with an invariant. -/
theorem Reports.forEach {xs : List α} (hkeep : ∀ x ∈ xs, Preserves I (f x))
    (hf : ∀ x ∈ xs, ∀ s, I s → Reports log ok (f x) s) (hI : I s) :
    Reports log ok (forEach f xs) s := by
  induction xs generalizing s with
  | nil => exact .of_unlogged rfl rfl
  | cons x xs ih =>
    obtain ⟨hx, hxs⟩ := List.forall_mem_cons.mp hf
    obtain ⟨hkeepx, hkeepxs⟩ := List.forall_mem_cons.mp hkeep
    exact (hx s hI).andThen fun _ => ih hkeepxs hxs (hkeepx s hI)

end Reports

end Fallible
