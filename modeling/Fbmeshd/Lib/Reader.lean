import Fbmeshd.Lib.Memory

/-!
# Readers of memory

A reader computes a value from a memory and logs the bytes it has looked at, each with the ends
of the regions it was confined to at the time. It may abort, and a loop whose bound is a fuel
aborts when the fuel is used up. A reader is safe below a bound if all it looks at is below the
bound and inside its regions, and if it returns.
-/

namespace Bytes

/-- A read of some bytes, made inside regions with these ends. -/
structure Access where
  offset : ℕ
  size : ℕ
  ends : List ℕ := []
  deriving DecidableEq

/-- The read stays below the bound and inside its regions. -/
def Access.Within (bound : ℕ) (a : Access) : Prop :=
  a.offset + a.size ≤ bound ∧ ∀ e ∈ a.ends, a.offset + a.size ≤ e

instance (bound : ℕ) (a : Access) : Decidable (a.Within bound) :=
  inferInstanceAs (Decidable (_ ∧ _))

/-- Why a reader aborts. -/
inductive Abort where
  | checkFailed
  | outOfFuel
  deriving DecidableEq

/-- A computation that reads memory. -/
structure Reader (α : Type) where
  run : Memory → Except Abort α × List Access

namespace Reader

variable {α β : Type}

/-- The value of a reader. -/
def eval (p : Reader α) (m : Memory) : Except Abort α := (p.run m).1

/-- What a reader looks at. -/
def reads (p : Reader α) (m : Memory) : List Access := (p.run m).2

instance : Monad Reader where
  pure a := ⟨fun _ => (.ok a, [])⟩
  bind p f := ⟨fun m =>
    match p.run m with
    | (.ok a, log) =>
      let r := (f a).run m
      (r.1, log ++ r.2)
    | (.error e, log) => (.error e, log)⟩

/-- Abort. -/
def abort (e : Abort) : Reader α := ⟨fun _ => (.error e, [])⟩

/-- Look at `size` bytes at an offset. -/
def read (offset size : ℕ) (f : Memory → α) : Reader α :=
  ⟨fun m => (.ok (f m), [{ offset, size }])⟩

/-- Confine a reader to a region with an end. -/
def within (e : ℕ) (p : Reader α) : Reader α :=
  ⟨fun m =>
    let r := p.run m
    (r.1, r.2.map fun a => { a with ends := e :: a.ends })⟩

/-- One byte. -/
def u8At (o : ℕ) : Reader UInt8 := read o 1 (· o)

/-- A little-endian 16-bit number. -/
def u16At (o : ℕ) : Reader ℕ := read o 2 (u16 · o)

/-- A little-endian 32-bit number. -/
def u32At (o : ℕ) : Reader ℕ := read o 4 (u32 · o)

/-- A big-endian 32-bit number. -/
def be32At (o : ℕ) : Reader ℕ := read o 4 (be32 · o)

/-- The bytes up to the next zero, as `strlen` looks for it. -/
def cstringAt : ℕ → ℕ → Reader (List UInt8)
  | 0, _ => abort .outOfFuel
  | fuel + 1, o => do
    let c ← u8At o
    if c = 0 then pure []
    else do
      let rest ← cstringAt fuel (o + 1)
      pure (c :: rest)

section Eval

variable {m : Memory} {p : Reader α} {f : α → Reader β}

/-- Nothing is read. -/
@[simp] theorem eval_pure (a : α) : (pure a : Reader α).eval m = .ok a := rfl

/-- The reader stops. -/
@[simp] theorem eval_abort (e : Abort) : (abort e : Reader α).eval m = .error e := rfl

/-- A read returns what is there. -/
@[simp] theorem eval_read (o n : ℕ) (g : Memory → α) : (read o n g).eval m = .ok (g m) := rfl

/-- The bound of a part does not change its result. -/
@[simp] theorem eval_within (e : ℕ) : (within e p).eval m = p.eval m := rfl

/-- A byte. -/
@[simp] theorem eval_u8At (o : ℕ) : (u8At o).eval m = .ok (m o) := rfl

/-- A 16-bit number. -/
@[simp] theorem eval_u16At (o : ℕ) : (u16At o).eval m = .ok (u16 m o) := rfl

/-- A 32-bit number. -/
@[simp] theorem eval_u32At (o : ℕ) : (u32At o).eval m = .ok (u32 m o) := rfl

/-- A 32-bit number in network order. -/
@[simp] theorem eval_be32At (o : ℕ) : (be32At o).eval m = .ok (be32 m o) := rfl

private theorem run_bind_of_ok {a : α} (h : p.eval m = .ok a) :
    (p >>= f).run m = ((f a).eval m, p.reads m ++ (f a).reads m) := by
  have hrun : p.run m = (.ok a, p.reads m) := Prod.ext h rfl
  show (match p.run m with
    | (.ok a, log) => (((f a).run m).1, log ++ ((f a).run m).2)
    | (.error e, log) => (.error e, log)) = _
  rw [hrun]
  rfl

/-- The second part goes on with the result of the first one. -/
theorem eval_bind_of_ok {a : α} (h : p.eval m = .ok a) : (p >>= f).eval m = (f a).eval m := by
  rw [eval, run_bind_of_ok h]

/-- It is not run after the first one stopped. -/
theorem eval_bind_of_error {e : Abort} (h : p.eval m = .error e) :
    (p >>= f).eval m = .error e := by
  have hrun : p.run m = (.error e, p.reads m) := Prod.ext h rfl
  show (match p.run m with
    | (.ok a, log) => (((f a).run m).1, log ++ ((f a).run m).2)
    | (.error e, log) => (.error e, log)).1 = _
  rw [hrun]

/-- The result of two parts. -/
@[simp] theorem eval_bind : (p >>= f).eval m = (p.eval m).bind fun a => (f a).eval m := by
  cases h : p.eval m with
  | ok a => exact eval_bind_of_ok h
  | error e => exact eval_bind_of_error h

end Eval

section Safety

variable {m : Memory} {p : Reader α} {f : α → Reader β} {bound : ℕ}

/-- The reader returns, and all it looks at is below the bound and inside its regions. -/
structure Safe (m : Memory) (bound : ℕ) (p : Reader α) : Prop where
  bounded : ∀ a ∈ p.reads m, a.Within bound
  returns : ∃ a, p.eval m = .ok a

private theorem reads_bind_of_ok {a : α} (h : p.eval m = .ok a) :
    (p >>= f).reads m = p.reads m ++ (f a).reads m := by
  rw [reads, run_bind_of_ok h]

/-- What reads nothing is safe. -/
theorem safe_pure (a : α) : Safe m bound (pure a) := ⟨nofun, a, rfl⟩

private theorem safe_read {o n : ℕ} (h : o + n ≤ bound) (g : Memory → α) :
    Safe m bound (read o n g) := by
  refine ⟨fun x hx => ?_, g m, rfl⟩
  obtain rfl := List.mem_singleton.mp hx
  exact ⟨h, nofun⟩

/-- Two safe parts. -/
theorem Safe.bind (hp : Safe m bound p) (hf : ∀ a, p.eval m = .ok a → Safe m bound (f a)) :
    Safe m bound (p >>= f) := by
  obtain ⟨a, ha⟩ := hp.returns
  have hfa := hf a ha
  refine ⟨fun x hx => ?_, ?_⟩
  · rw [reads_bind_of_ok ha, List.mem_append] at hx
    exact hx.elim (hp.bounded x) (hfa.bounded x)
  · rw [eval_bind_of_ok ha]
    exact hfa.returns

/-- After a read only its value is left to know. -/
theorem safe_read_bind {o n : ℕ} (h : o + n ≤ bound) (g : Memory → α)
    (hf : Safe m bound (f (g m))) : Safe m bound (read o n g >>= f) :=
  (safe_read h g).bind fun _ ha => Except.ok.inj ha ▸ hf

/-- A read is safe inside the bound. -/
theorem safe_read_iff {o n : ℕ} {g : Memory → α} : Safe m bound (read o n g) ↔ o + n ≤ bound :=
  ⟨fun h => (h.bounded _ List.mem_cons_self).1, fun h => safe_read h g⟩

/-- A reader that goes on is safe if both parts are. -/
theorem safe_bind_iff {a : α} (ha : p.eval m = .ok a) :
    Safe m bound (p >>= f) ↔ Safe m bound p ∧ Safe m bound (f a) := by
  constructor
  · intro h
    have hreads := h.bounded
    rw [reads_bind_of_ok ha] at hreads
    refine ⟨⟨fun x hx => hreads x (List.mem_append_left _ hx), a, ha⟩,
      ⟨fun x hx => hreads x (List.mem_append_right _ hx), ?_⟩⟩
    rw [← eval_bind_of_ok ha]
    exact h.returns
  · rintro ⟨hp, hf⟩
    exact hp.bind fun b hb => Except.ok.inj (ha.symm.trans hb) ▸ hf

/-- A read, and what follows it. -/
theorem safe_read_bind_iff {o n : ℕ} {g : Memory → α} :
    Safe m bound (read o n g >>= f) ↔ o + n ≤ bound ∧ Safe m bound (f (g m)) := by
  rw [safe_bind_iff (eval_read o n g), safe_read_iff]

/-- A reader that goes on, where whether the rest is safe does not depend on the value. -/
theorem safe_bind_iff_and {Q : Prop} (hf : ∀ a, Safe m bound (f a) ↔ Q) :
    Safe m bound (p >>= f) ↔ Safe m bound p ∧ Q := by
  cases hp : p.eval m with
  | ok a => rw [safe_bind_iff hp, hf a]
  | error e =>
    refine iff_of_false (fun h => ?_) fun h => ?_
    · obtain ⟨b, hb⟩ := h.returns
      rw [eval_bind_of_error hp] at hb
      nomatch hb
    · obtain ⟨a, ha⟩ := h.1.returns
      nomatch hp.symm.trans ha

/-- A result may be changed at the end. -/
theorem safe_bind_pure_iff {g : α → β} :
    Safe m bound (p >>= fun a => pure (g a)) ↔ Safe m bound p := by
  rw [safe_bind_iff_and fun a => iff_true_intro (safe_pure (g a)), and_true]

/-- A reader that stops is not safe. -/
theorem not_safe_abort (e : Abort) : ¬ Safe m bound (abort e : Reader α) := by
  rintro ⟨-, a, ha⟩
  nomatch ha

/-- A string can be read if it ends below the bound. -/
theorem safe_cstringAt_iff {fuel o : ℕ} (hfuel : bound ≤ o + fuel) :
    Safe m bound (cstringAt fuel o) ↔ ∃ stop, o ≤ stop ∧ stop < bound ∧ m stop = 0 := by
  induction fuel generalizing o with
  | zero =>
    refine iff_of_false (not_safe_abort _) ?_
    rintro ⟨stop, hle, hlt, -⟩
    omega
  | succ fuel ih =>
    rw [cstringAt, u8At, safe_read_bind_iff]
    split
    next hzero =>
      refine ⟨fun h => ⟨o, le_rfl, h.1, hzero⟩, ?_⟩
      rintro ⟨stop, hle, hlt, -⟩
      exact ⟨by omega, safe_pure []⟩
    next hne =>
      rw [safe_bind_pure_iff, ih (by omega)]
      constructor
      · rintro ⟨-, stop, hle, hlt, hzero⟩
        exact ⟨stop, by omega, hlt, hzero⟩
      · rintro ⟨stop, hle, hlt, hzero⟩
        have hlt' : o ≠ stop := by
          rintro rfl
          exact hne hzero
        exact ⟨by omega, stop, by omega, hlt, hzero⟩

/-- A region confines a reader further. -/
theorem safe_within_iff {e : ℕ} : Safe m bound (within e p) ↔ Safe m (min bound e) p := by
  have hreads : (within e p).reads m = (p.reads m).map fun a => { a with ends := e :: a.ends } :=
    rfl
  constructor
  · intro h
    refine ⟨fun a ha => ?_, h.returns⟩
    obtain ⟨hstop, hends⟩ := h.bounded _ (hreads ▸ List.mem_map_of_mem ha)
    obtain ⟨he, hends⟩ := List.forall_mem_cons.mp hends
    exact ⟨Nat.le_min.mpr ⟨hstop, he⟩, hends⟩
  · intro h
    refine ⟨fun a ha => ?_, h.returns⟩
    rw [hreads, List.mem_map] at ha
    obtain ⟨b, hb, rfl⟩ := ha
    obtain ⟨hstop, hends⟩ := h.bounded b hb
    exact ⟨Nat.le_trans hstop (Nat.min_le_left _ _),
      List.forall_mem_cons.mpr ⟨Nat.le_trans hstop (Nat.min_le_right _ _), hends⟩⟩

end Safety

end Reader

end Bytes
