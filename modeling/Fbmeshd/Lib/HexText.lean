import Mathlib.Data.List.TakeWhile
import Mathlib.Data.Nat.Notation
import Mathlib.Tactic.IntervalCases

/-!
# Numbers as hexadecimal text

The functions that write a number in base sixteen, with or without leading zeros, and the functions
on text that take leading zeros away and put them back.
-/

namespace HexText

/-- `"{:x}".format(n)`. -/
def hex (n : ℕ) : List Char := Nat.toDigits 16 n

/-- `s.zfill(width)` of a text without a sign. -/
def zfill (width : ℕ) (s : List Char) : List Char := s.leftpad width '0'

/-- `s.lstrip("0")`. -/
def lstripZeros (s : List Char) : List Char := s.dropWhile (· == '0')

/-- The value of a hexadecimal digit. -/
def digitValue (c : Char) : Option ℕ :=
  if '0' ≤ c ∧ c ≤ '9' then some (c.toNat - 48)
  else if 'a' ≤ c ∧ c ≤ 'f' then some (c.toNat - 87)
  else if 'A' ≤ c ∧ c ≤ 'F' then some (c.toNat - 55)
  else none

/-- `int(s, 16)` of a text without a sign, `none` for a `ValueError`. -/
def int16 : List Char → Option ℕ
  | [] => none
  | s => s.foldlM (fun n c => (digitValue c).map (16 * n + ·)) 0

/-- `list(map("".join, zip(*[iter(s)] * 2)))`. -/
def pairs : List Char → List (List Char)
  | a :: b :: rest => [a, b] :: pairs rest
  | _ => []

/-- The two digits of a byte. -/
def byteText (b : ℕ) : List Char := [(b / 16).digitChar, (b % 16).digitChar]

private theorem digitValue_digitChar {d : ℕ} (hd : d < 16) : digitValue d.digitChar = some d := by
  interval_cases d <;> rfl

private theorem colon_ne_digitChar {d : ℕ} (hd : d < 16) : ':' ≠ d.digitChar := by
  interval_cases d <;> decide

/-- The text of a byte is read back. -/
theorem int16_byteText {b : ℕ} (hb : b < 256) : int16 (byteText b) = some b := by
  have hhigh := digitValue_digitChar (d := b / 16) (by omega)
  have hlow := digitValue_digitChar (d := b % 16) (by omega)
  simp only [int16, byteText, List.foldlM_cons, List.foldlM_nil, hhigh, hlow, Option.map_some,
    Option.bind_eq_bind, Option.bind_some, Option.pure_def]
  congr
  omega

/-- A text in its width has its last digit after the others. -/
theorem zfill_hex_succ {width : ℕ} (hwidth : 0 < width) (n : ℕ) :
    zfill (width + 1) (hex n) = zfill width (hex (n / 16)) ++ [(n % 16).digitChar] := by
  by_cases hn : n < 16
  · have hzero : n / 16 = 0 := by omega
    rw [hex, hex, hzero, Nat.toDigits_of_lt_base hn, Nat.toDigits_of_lt_base (by omega),
      Nat.mod_eq_of_lt hn]
    obtain ⟨k, rfl⟩ := Nat.exists_eq_succ_of_ne_zero hwidth.ne'
    simp [zfill, List.leftpad, List.replicate_succ', Nat.digitChar]
  · rw [hex, Nat.toDigits_of_base_le (by omega) (by omega)]
    simp [zfill, hex, List.leftpad]

private theorem zfill_hex_byte {width : ℕ} (hwidth : 0 < width) (n : ℕ) :
    zfill (width + 2) (hex n) = zfill width (hex (n / 256)) ++ byteText (n % 256) := by
  have hdiv : n / 16 / 16 = n / 256 := Nat.div_div_eq_div_mul n 16 16
  have hhigh : n / 16 % 16 = n % 256 / 16 := by omega
  have hlow : n % 16 = n % 256 % 16 := by omega
  rw [zfill_hex_succ (by omega), zfill_hex_succ hwidth, hdiv, hhigh, hlow, List.append_assoc]
  rfl

/-- The text of a byte is its hexadecimal text, filled up to two digits. -/
theorem zfill_two_hex {b : ℕ} (hb : b < 256) : zfill 2 (hex b) = byteText b := by
  rw [zfill_hex_succ (by omega), hex, Nat.toDigits_of_lt_base (by omega)]
  rfl

/-- The `i`-th byte of a number, from the least significant one on. -/
def octet (n i : ℕ) : ℕ := n / 256 ^ i % 256

/-- An octet is a byte. -/
theorem octet_lt (n i : ℕ) : octet n i < 256 := Nat.mod_lt _ (by decide)

private theorem octet_succ (n i : ℕ) : octet n (i + 1) = octet (n / 256) i := by
  rw [octet, octet, Nat.pow_succ', Nat.div_div_eq_div_mul]

/-- A number in its full width is written byte by byte. -/
theorem zfill_hex_eq {k n : ℕ} (hn : n < 256 ^ (k + 1)) :
    zfill (2 * (k + 1)) (hex n) =
      ((List.range (k + 1)).reverse.map (octet n)).flatMap byteText := by
  induction k generalizing n with
  | zero =>
    rw [Nat.zero_add, Nat.pow_one] at hn
    rw [zfill_two_hex hn]
    simp [octet, Nat.mod_eq_of_lt hn]
  | succ k ih =>
    have hdiv : n / 256 < 256 ^ (k + 1) := by
      rw [Nat.pow_succ] at hn
      exact Nat.div_lt_of_lt_mul (Nat.mul_comm _ _ ▸ hn)
    rw [Nat.mul_succ, zfill_hex_byte (by omega), ih hdiv, List.range_succ_eq_map (n := k + 1),
      List.reverse_cons, List.map_append, List.flatMap_append, ← List.map_reverse, List.map_map]
    congr 1
    · refine congrArg (List.flatMap byteText) (List.map_congr_left fun i _ => ?_)
      exact (octet_succ n i).symm
    · simp [octet]

/-- The texts of bytes in a row are cut into pairs again. -/
theorem pairs_flatMap_byteText (bs : List ℕ) : pairs (bs.flatMap byteText) = bs.map byteText := by
  induction bs with
  | nil => rfl
  | cons b bs ih =>
    rw [List.flatMap_cons, List.map_cons, ← ih]
    rfl

/-- Without leading zeros a byte has two digits from sixteen on. -/
theorem hex_eq_byteText_iff {b : ℕ} (hb : b < 256) : hex b = byteText b ↔ 16 ≤ b := by
  by_cases hsmall : b < 16
  · rw [hex, Nat.toDigits_of_lt_base hsmall]
    refine iff_of_false (fun h => ?_) (by omega)
    exact absurd (congrArg List.length h) (by simp [byteText])
  · rw [hex, Nat.toDigits_of_base_le (by omega) (by omega), Nat.toDigits_of_lt_base (by omega)]
    refine iff_of_true rfl (by omega)

/-- Leading zeros are put back. -/
theorem zfill_lstripZeros {width : ℕ} {s : List Char} (hs : s.length = width) :
    zfill width (lstripZeros s) = s := by
  have hsplit : s.takeWhile (· == '0') ++ lstripZeros s = s := List.takeWhile_append_dropWhile
  have hzeros : s.takeWhile (· == '0') =
      List.replicate (s.takeWhile (· == '0')).length '0' :=
    List.eq_replicate_iff.mpr ⟨rfl, fun c hc => by simpa using List.mem_takeWhile_imp hc⟩
  have hlen : (s.takeWhile (· == '0')).length = width - (lstripZeros s).length := by
    rw [← hs, ← congrArg List.length hsplit, List.length_append]
    omega
  rw [zfill, List.leftpad, ← hlen, ← hzeros, hsplit]

/-- There is no colon in the text of a byte. -/
theorem colon_notMem_byteText {b : ℕ} (hb : b < 256) : ':' ∉ byteText b := by
  simp only [byteText, List.mem_cons, List.not_mem_nil, or_false, not_or]
  exact ⟨colon_ne_digitChar (by omega), colon_ne_digitChar (by omega)⟩

end HexText
