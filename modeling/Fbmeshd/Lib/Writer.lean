import Fbmeshd.Lib.Memory

/-!
# Writers into buffers

A writer computes a value or fails, and logs the bytes it has written on the way. The log is kept
when it fails, so a bound on it speaks of the writes before the failure too.
-/

namespace Bytes

/-- Some bytes of one of several buffers. -/
structure Span (ρ : Type) where
  region : ρ
  offset : ℕ
  size : ℕ
  deriving DecidableEq

/-- The offset behind the bytes. -/
def Span.stop {ρ : Type} (w : Span ρ) : ℕ := w.offset + w.size

/-- A computation that writes into buffers. -/
structure SpanWriter (ρ ε α : Type) where
  eval : Except ε α
  writes : List (Span ρ)

namespace SpanWriter

variable {ρ ε α β : Type}

instance : Monad (SpanWriter ρ ε) where
  pure a := ⟨.ok a, []⟩
  bind p f :=
    match p.eval with
    | .ok a => ⟨(f a).eval, p.writes ++ (f a).writes⟩
    | .error e => ⟨.error e, p.writes⟩

/-- A computation that writes nothing. -/
def lift (x : Except ε α) : SpanWriter ρ ε α := ⟨x, []⟩

/-- Write some bytes into the buffer of a region. -/
def put (region : ρ) (b : Buffer) (o : ℕ) (bs : List UInt8) : SpanWriter ρ ε Buffer :=
  ⟨.ok (b.write o bs), [⟨region, o, bs.length⟩]⟩

variable {p : SpanWriter ρ ε α} {f : α → SpanWriter ρ ε β}

/-- Nothing is written. -/
@[simp] theorem eval_pure (a : α) : (pure a : SpanWriter ρ ε α).eval = .ok a := rfl

/-- A computation that writes nothing. -/
@[simp] theorem eval_lift (x : Except ε α) : (lift x : SpanWriter ρ ε α).eval = x := rfl

/-- A write into a buffer. -/
@[simp] theorem eval_put (region : ρ) (b : Buffer) (o : ℕ) (bs : List UInt8) :
    (put region b o bs : SpanWriter ρ ε Buffer).eval = .ok (b.write o bs) := rfl

/-- The writes of two parts, where the first one succeeds. -/
theorem bind_of_ok {a : α} (h : p.eval = .ok a) :
    p >>= f = ⟨(f a).eval, p.writes ++ (f a).writes⟩ := by
  show (match p.eval with
    | .ok a => (⟨(f a).eval, p.writes ++ (f a).writes⟩ : SpanWriter ρ ε β)
    | .error e => ⟨.error e, p.writes⟩) = _
  rw [h]

private theorem bind_of_error {e : ε} (h : p.eval = .error e) : p >>= f = ⟨.error e, p.writes⟩ := by
  show (match p.eval with
    | .ok a => (⟨(f a).eval, p.writes ++ (f a).writes⟩ : SpanWriter ρ ε β)
    | .error e => ⟨.error e, p.writes⟩) = _
  rw [h]

/-- The result of two parts. -/
@[simp] theorem eval_bind : (p >>= f).eval = p.eval >>= fun a => (f a).eval := by
  cases h : p.eval with
  | ok a =>
    rw [bind_of_ok h]
    rfl
  | error e =>
    rw [bind_of_error h]
    rfl

/-- What the first part writes is written. -/
theorem mem_writes_bind {w : Span ρ} (h : w ∈ p.writes) : w ∈ (p >>= f).writes := by
  cases hp : p.eval with
  | ok a =>
    rw [bind_of_ok hp]
    exact List.mem_append_left _ h
  | error e =>
    rw [bind_of_error hp]
    exact h

/-- What the second part writes is written if the first succeeds. -/
theorem mem_writes_bind_of_ok {w : Span ρ} {a : α} (hp : p.eval = .ok a)
    (h : w ∈ (f a).writes) : w ∈ (p >>= f).writes := by
  rw [bind_of_ok hp]
  exact List.mem_append_right _ h

/-- All that is written lies in the buffers, whose sizes are given. -/
def Within (size : ρ → ℕ) (p : SpanWriter ρ ε α) : Prop := ∀ w ∈ p.writes, w.stop ≤ size w.region

instance (size : ρ → ℕ) (p : SpanWriter ρ ε α) : Decidable (p.Within size) :=
  inferInstanceAs (Decidable (∀ w ∈ p.writes, w.stop ≤ size w.region))

section Within

variable {size : ρ → ℕ}

/-- What writes nothing stays inside. -/
@[simp] theorem within_pure (a : α) : (pure a : SpanWriter ρ ε α).Within size :=
  fun _ h => absurd h List.not_mem_nil

private theorem within_lift (x : Except ε α) : (lift x : SpanWriter ρ ε α).Within size :=
  fun _ h => absurd h List.not_mem_nil

/-- A write stays inside the region up to its size. -/
theorem within_put_iff {region : ρ} {b : Buffer} {o : ℕ} {bs : List UInt8} :
    (put region b o bs : SpanWriter ρ ε Buffer).Within size ↔ o + bs.length ≤ size region :=
  List.forall_mem_singleton

/-- Two parts, where the first one succeeds. -/
theorem within_bind_iff {a : α} (h : p.eval = .ok a) :
    (p >>= f).Within size ↔ p.Within size ∧ (f a).Within size := by
  rw [bind_of_ok h]
  exact List.forall_mem_append

/-- Two parts that stay inside. -/
theorem Within.bind (hp : p.Within size) (hf : ∀ a, p.eval = .ok a → (f a).Within size) :
    (p >>= f).Within size := by
  cases h : p.eval with
  | ok a => exact (within_bind_iff h).mpr ⟨hp, hf a h⟩
  | error e =>
    rw [bind_of_error h]
    exact hp

end Within

/-- All that is written lies below the bound. -/
def Below (bound : ℕ) (p : SpanWriter ρ ε α) : Prop := ∀ w ∈ p.writes, w.stop ≤ bound

variable {bound : ℕ}

private theorem below_iff_within : p.Below bound ↔ p.Within fun _ => bound := Iff.rfl

/-- What writes nothing stays below every bound. -/
theorem below_pure (a : α) : (pure a : SpanWriter ρ ε α).Below bound :=
  below_iff_within.mpr (within_pure a)

/-- So does a computation that writes nothing. -/
theorem below_lift (x : Except ε α) : (lift x : SpanWriter ρ ε α).Below bound :=
  below_iff_within.mpr (within_lift x)

/-- A write that ends below the bound. -/
theorem below_put {region : ρ} {b : Buffer} {o : ℕ} {bs : List UInt8}
    (h : o + bs.length ≤ bound) : (put region b o bs : SpanWriter ρ ε Buffer).Below bound :=
  below_iff_within.mpr (within_put_iff.mpr h)

/-- Two parts that stay below. -/
theorem Below.bind (hp : p.Below bound) (hf : ∀ a, p.eval = .ok a → (f a).Below bound) :
    (p >>= f).Below bound :=
  below_iff_within.mpr (Within.bind hp hf)

end SpanWriter

end Bytes
