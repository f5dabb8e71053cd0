import Mathlib.Algebra.Ring.Nat
import Mathlib.Data.List.GetD
import Mathlib.Data.List.TakeDrop
import Mathlib.Data.Nat.Notation

/-!
# Byte-addressed memory

A memory gives a byte for every offset. Numbers are read and written in little-endian or
big-endian order, and `Holds` says that a list of bytes stands at an offset.
-/

namespace Bytes

/-- The byte at each offset. -/
abbrev Memory := ℕ → UInt8

/-- A buffer that holds some bytes and is zero from there on. -/
def ofBytes (bs : List UInt8) : Memory := fun i => bs.getD i 0

variable (m : Memory) (o : ℕ)

/-- The little-endian 16-bit number at an offset. -/
def u16 : ℕ := (m o).toNat + 2 ^ 8 * (m (o + 1)).toNat

/-- Two bytes hold less than `2 ^ 16`. -/
theorem u16_lt : u16 m o < 2 ^ 16 := by
  have hlow := (m o).toNat_lt
  have hhigh := (m (o + 1)).toNat_lt
  simp only [u16]
  omega

/-- The little-endian 32-bit number at an offset. -/
def u32 : ℕ := u16 m o + 2 ^ 16 * u16 m (o + 2)

/-- The big-endian 32-bit number at an offset. -/
def be32 : ℕ :=
  ((m o).toNat * 2 ^ 8 + (m (o + 1)).toNat) * 2 ^ 16 +
    ((m (o + 2)).toNat * 2 ^ 8 + (m (o + 3)).toNat)

/-- The bytes of a 16-bit number, lowest first. -/
def le16 (n : ℕ) : List UInt8 := [.ofNat n, .ofNat (n / 2 ^ 8)]

/-- The bytes of a 32-bit number, lowest first. -/
def le32 (n : ℕ) : List UInt8 := le16 n ++ le16 (n / 2 ^ 16)

/-- The bytes of a 32-bit number, highest first. -/
def beBytes32 (n : ℕ) : List UInt8 :=
  [.ofNat (n / 2 ^ 24), .ofNat (n / 2 ^ 16), .ofNat (n / 2 ^ 8), .ofNat n]

/-- A 16-bit number takes two bytes. -/
@[simp] theorem length_le16 (n : ℕ) : (le16 n).length = 2 := rfl

/-- A 32-bit number takes four. -/
@[simp] theorem length_le32 (n : ℕ) : (le32 n).length = 4 := rfl

/-- Also in network order. -/
@[simp] theorem length_beBytes32 (n : ℕ) : (beBytes32 n).length = 4 := rfl

/-- The list of bytes stands at the offset. -/
def Holds : ℕ → List UInt8 → Prop
  | _, [] => True
  | o, b :: bs => m o = b ∧ Holds (o + 1) bs

variable {m o}

/-- Every memory holds nothing anywhere. -/
@[simp] theorem holds_nil : Holds m o [] := trivial

/-- The bytes one by one. -/
@[simp] theorem holds_cons {b : UInt8} {bs : List UInt8} :
    Holds m o (b :: bs) ↔ m o = b ∧ Holds m (o + 1) bs := Iff.rfl

/-- The bytes in two parts. -/
theorem holds_append {as bs : List UInt8} :
    Holds m o (as ++ bs) ↔ Holds m o as ∧ Holds m (o + as.length) bs := by
  induction as generalizing o with
  | nil => simp
  | cons a as ih =>
    rw [List.cons_append, holds_cons, holds_cons, ih, and_assoc, List.length_cons,
      Nat.add_right_comm, Nat.add_assoc]

private theorem holds_iff {bs : List UInt8} :
    Holds m o bs ↔ ∀ i < bs.length, m (o + i) = bs.getD i 0 := by
  induction bs generalizing o with
  | nil => simp
  | cons b bs ih =>
    rw [holds_cons, ih]
    constructor
    · rintro ⟨hb, hbs⟩ i hi
      cases i with
      | zero => exact hb
      | succ i =>
        rw [← Nat.add_assoc, Nat.add_right_comm]
        exact hbs i (Nat.lt_of_succ_lt_succ hi)
    · intro h
      refine ⟨h 0 (Nat.succ_pos _), fun i hi => ?_⟩
      rw [Nat.add_right_comm, Nat.add_assoc]
      exact h (i + 1) (Nat.succ_lt_succ hi)

/-- A memory that agrees on the bytes holds them too. -/
theorem Holds.congr {m' : Memory} {bs : List UInt8} (h : Holds m o bs)
    (heq : ∀ i, o ≤ i → i < o + bs.length → m' i = m i) : Holds m' o bs :=
  holds_iff.mpr fun i hi =>
    (heq (o + i) (Nat.le_add_right o i) (Nat.add_lt_add_left hi o)).trans (holds_iff.mp h i hi)

/-- A 16-bit number is read back. -/
theorem Holds.u16 {n : ℕ} (h : Holds m o (le16 n)) (hn : n < 2 ^ 16) : u16 m o = n := by
  obtain ⟨h₀, h₁, -⟩ := h
  rw [Bytes.u16, h₀, h₁, UInt8.toNat_ofNat', UInt8.toNat_ofNat']
  omega

/-- A 32-bit number is read back. -/
theorem Holds.u32 {n : ℕ} (h : Holds m o (le32 n)) (hn : n < 2 ^ 32) : u32 m o = n := by
  obtain ⟨hlow, hhigh⟩ := holds_append.mp h
  obtain ⟨h₀, h₁, -⟩ := hlow
  obtain ⟨h₂, h₃, -⟩ := hhigh
  simp only [length_le16] at h₂ h₃
  simp only [Bytes.u32, Bytes.u16, h₀, h₁, h₂, h₃, UInt8.toNat_ofNat']
  omega

/-- Also in network order. -/
theorem Holds.be32 {n : ℕ} (h : Holds m o (beBytes32 n)) (hn : n < 2 ^ 32) : be32 m o = n := by
  obtain ⟨h₀, h₁, h₂, h₃, -⟩ := h
  simp only [Bytes.be32, h₀, h₁, h₂, h₃, UInt8.toNat_ofNat']
  omega

/-- The bytes from an offset on. -/
def slice (m : Memory) (o : ℕ) : ℕ → List UInt8
  | 0 => []
  | n + 1 => m o :: slice m (o + 1) n

/-- A slice has the length it was asked for. -/
@[simp] theorem length_slice (m : Memory) (o n : ℕ) : (slice m o n).length = n := by
  induction n generalizing o with
  | zero => rfl
  | succ n ih => rw [slice, List.length_cons, ih]

/-- A slice of what the memory holds. -/
theorem Holds.slice {bs : List UInt8} (h : Holds m o bs) : slice m o bs.length = bs := by
  induction bs generalizing o with
  | nil => rfl
  | cons b bs ih => rw [List.length_cons, Bytes.slice, h.1, ih h.2]

/-- Write a list of bytes at an offset. -/
def write (m : Memory) (o : ℕ) (bs : List UInt8) : Memory := fun i =>
  if o ≤ i ∧ i < o + bs.length then bs.getD (i - o) 0 else m i

/-- What is written is there. -/
theorem holds_write (m : Memory) (o : ℕ) (bs : List UInt8) : Holds (write m o bs) o bs := by
  refine holds_iff.mpr fun i hi => ?_
  rw [write, if_pos ⟨Nat.le_add_right o i, Nat.add_lt_add_left hi o⟩, Nat.add_sub_cancel_left]

/-- The bytes outside stay as they are. -/
theorem write_of_outside {i : ℕ} {bs : List UInt8} (h : i < o ∨ o + bs.length ≤ i) :
    write m o bs i = m i := if_neg (by omega)

/-- What stands in the buffer between two parts of it. -/
theorem holds_ofBytes (as bs cs : List UInt8) :
    Holds (ofBytes (as ++ (bs ++ cs))) as.length bs := by
  refine holds_iff.mpr fun i hi => ?_
  rw [ofBytes, List.getD_append_right _ _ _ _ (by omega), Nat.add_sub_cancel_left,
    List.getD_append _ _ _ _ hi]

/-- A memory made of bytes holds them at its start. -/
theorem holds_ofBytes_self (bs : List UInt8) : Holds (ofBytes bs) 0 bs := by
  simpa using holds_ofBytes [] bs []

/-- Zeros at the end make no difference. -/
theorem ofBytes_append_zeros (bs : List UInt8) (n : ℕ) :
    ofBytes (bs ++ List.replicate n 0) = ofBytes bs := by
  funext i
  rcases Nat.lt_or_ge i bs.length with hi | hi
  · rw [ofBytes, ofBytes, List.getD_append _ _ _ _ hi]
  · rw [ofBytes, ofBytes, List.getD_append_right _ _ _ _ hi, List.getD_eq_default _ _ hi]
    rcases Nat.lt_or_ge (i - bs.length) n with hn | hn
    · rw [List.getD_eq_getElem _ _ (by simpa using hn), List.getElem_replicate]
    · rw [List.getD_eq_default _ _ (by simpa using hn)]

/-- Overwrite a part of the buffer. -/
theorem write_ofBytes (as cs : List UInt8) {bs new : List UInt8} (hlen : new.length = bs.length) :
    write (ofBytes (as ++ (bs ++ cs))) as.length new = ofBytes (as ++ (new ++ cs)) := by
  funext i
  rw [write]
  split
  next hin =>
    rw [ofBytes, List.getD_append_right _ _ _ _ hin.1, List.getD_append _ _ _ _ (by omega)]
  next hout =>
    rw [ofBytes, ofBytes]
    rcases Nat.lt_or_ge i as.length with hi | hi
    · rw [List.getD_append _ _ _ _ hi, List.getD_append _ _ _ _ hi]
    · rw [List.getD_append_right _ _ _ _ hi, List.getD_append_right _ _ _ _ hi,
        List.getD_append_right _ _ _ _ (by omega), List.getD_append_right _ _ _ _ (by omega), hlen]

/-- Write at the end of what the buffer holds. -/
theorem write_ofBytes_end (bs new : List UInt8) (ho : o = bs.length) :
    write (ofBytes bs) o new = ofBytes (bs ++ new) := by
  subst ho
  have hlen : new.length = (List.replicate new.length (0 : UInt8)).length := by simp
  have h := write_ofBytes bs [] hlen
  rwa [List.append_nil, List.append_nil, ofBytes_append_zeros] at h

/-- A buffer given by the bytes up to the last one that was written; the rest is zero. -/
abbrev Buffer := List UInt8

namespace Buffer

/-- Write a list of bytes at an offset. -/
def write (b : Buffer) (o : ℕ) (bs : List UInt8) : Buffer :=
  b.takeD o 0 ++ (bs ++ b.drop (o + bs.length))

/-- The little-endian 16-bit number at an offset. -/
def u16 (b : Buffer) (o : ℕ) : ℕ := Bytes.u16 (ofBytes b) o

/-- The little-endian 32-bit number at an offset. -/
def u32 (b : Buffer) (o : ℕ) : ℕ := Bytes.u32 (ofBytes b) o

private theorem getD_takeD (b : Buffer) {i o : ℕ} (h : i < o) :
    (b.takeD o 0).getD i 0 = b.getD i 0 := by
  induction o generalizing b i with
  | zero => omega
  | succ o ih =>
    cases i with
    | zero => cases b <;> rfl
    | succ i =>
      rw [List.takeD_succ, List.getD_cons_succ, ih _ (by omega)]
      cases b <;> rfl

/-- A write into the bytes is a write into the memory made of them. -/
theorem ofBytes_write (b : Buffer) (o : ℕ) (bs : List UInt8) :
    ofBytes (b.write o bs) = Bytes.write (ofBytes b) o bs := by
  funext i
  rw [Buffer.write, Bytes.write, ofBytes, ofBytes]
  have hlen : (b.takeD o 0).length = o := List.takeD_length _ _ _
  rcases Nat.lt_or_ge i o with hi | hi
  · rw [if_neg (by omega), List.getD_append _ _ _ _ (by omega), getD_takeD b hi]
  · rw [List.getD_append_right _ _ _ _ (by omega), hlen]
    split
    next hin => rw [List.getD_append _ _ _ _ (by omega)]
    next hout =>
      rw [List.getD_append_right _ _ _ _ (by omega), List.getD_eq_getElem?_getD,
        List.getElem?_drop, List.getD_eq_getElem?_getD]
      congr 2
      omega

end Buffer

end Bytes
