import Fbmeshd.Lib.HexText
import Mathlib.Algebra.Ring.Nat

/-!
# Stations by MAC and by IPv6 address

`fbmeshd` exports a MAC address as a 64-bit integer in network order. `linkstatsd` writes it as a
MAC address and as the link-local IPv6 address made from it, and reads the MAC address back from the
latter.
-/

namespace Fbmeshd

open HexText

namespace StateManager

/-- `mac_hex` of `u64NBOtoMac` and `u64NBOtoIPv6`: the bytes of the address as text. -/
def macHex (mac : ℕ) : List (List Char) :=
  ((pairs (zfill 16 (hex (mac &&& 0xFFFFFFFFFFFF0000)))).take 6).reverse

/-- `u64NBOtoMac`. -/
def u64NBOtoMac (mac : ℕ) : List Char := (macHex mac).flatten

/-- The loop over `range(0, len(parts), 2)`. -/
def ipv6Groups : List (List Char) → List (List Char)
  | a :: b :: parts => lstripZeros (a ++ b) :: ipv6Groups parts
  | [a] => [lstripZeros a]
  | [] => []

/-- `u64NBOtoIPv6`, `none` for an exception. -/
def u64NBOtoIPv6 (mac : ℕ) : Option (List Char) :=
  match (macHex mac).take 3 ++ [['f', 'f'], ['f', 'e']] ++ ((macHex mac).drop 3).take 3 with
  | [] => none
  | first :: parts => do
    let octet ← int16 first
    let groups := ipv6Groups (zfill 2 (hex (octet ^^^ 2)) :: parts)
    some (['f', 'e', '8', '0', ':', ':'] ++ [':'].intercalate groups)

end StateManager

namespace Collector

/-- `_ipv6_to_mac`, `none` for an exception. -/
def ipv6ToMac (ip : List Char) : Option (List Char) :=
  let ipParts := (ip.splitOn ':').drop 2
  let ipPartsPad := ipParts.map (zfill 4)
  let octets := ipPartsPad.flatMap fun part => [part.take 2, (part.drop 2).take 2]
  -- `del mac_parts[3:5]`
  match octets.take 3 ++ octets.drop 5 with
  | [] => none
  | first :: macParts => do
    let firstOctet ← int16 first
    some ((hex (firstOctet ^^^ 2) :: macParts).flatten)

end Collector

open StateManager Collector

private theorem and_macMask (x : ℕ) : x &&& 0xFFFFFFFFFFFF0000 = x / 2 ^ 16 % 2 ^ 48 * 2 ^ 16 := by
  refine Nat.eq_of_testBit_eq fun i => ?_
  have hmask : 0xFFFFFFFFFFFF0000 = (2 ^ 48 - 1) * 2 ^ 16 := by decide
  rw [Nat.testBit_and, hmask, Nat.testBit_mul_two_pow, Nat.testBit_mul_two_pow,
    Nat.testBit_mod_two_pow, Nat.testBit_div_two_pow, Nat.testBit_two_pow_sub_one]
  by_cases hi : 16 ≤ i
  · rw [Nat.sub_add_cancel hi, decide_eq_true hi, Bool.true_and, Bool.true_and, Bool.and_comm]
  · rw [decide_eq_false hi, Bool.false_and, Bool.false_and, Bool.and_false]

/-- The bytes are written in the order of the MAC address, which starts at the third byte. -/
theorem macHex_eq (x : ℕ) : macHex x = [2, 3, 4, 5, 6, 7].map fun i => byteText (octet x i) := by
  have hlt : x &&& 0xFFFFFFFFFFFF0000 < 256 ^ (7 + 1) := by
    rw [and_macMask]
    omega
  have hoctet (i : ℕ) (hi : i ∈ [2, 3, 4, 5, 6, 7]) :
      octet (x &&& 0xFFFFFFFFFFFF0000) i = octet x i := by
    rw [and_macMask, octet, octet]
    simp only [List.mem_cons, List.not_mem_nil, or_false] at hi
    rcases hi with rfl | rfl | rfl | rfl | rfl | rfl <;> omega
  rw [macHex, zfill_hex_eq hlt, pairs_flatMap_byteText]
  exact List.map_congr_left fun i hi => congrArg byteText (hoctet i hi)

/-- The groups of the IPv6 address behind the prefix, with their leading zeros. -/
def fullGroups (x : ℕ) : List (List Char) :=
  [byteText (octet x 2 ^^^ 2) ++ byteText (octet x 3), byteText (octet x 4) ++ byteText 0xff,
    byteText 0xfe ++ byteText (octet x 5), byteText (octet x 6) ++ byteText (octet x 7)]

private theorem flipped_lt (x : ℕ) : octet x 2 ^^^ 2 < 256 :=
  Nat.xor_lt_two_pow (n := 8) (octet_lt x 2) (by decide)

private theorem u64NBOtoIPv6_eq (x : ℕ) :
    u64NBOtoIPv6 x = some ([':'].intercalate
      (['f', 'e', '8', '0'] :: [] :: (fullGroups x).map lstripZeros)) := by
  rw [u64NBOtoIPv6, macHex_eq]
  simp only [List.map_cons, List.map_nil, List.take_succ_cons, List.take_zero, List.drop_succ_cons,
    List.drop_zero, List.cons_append, List.nil_append, int16_byteText (octet_lt x 2),
    zfill_two_hex (flipped_lt x), Option.bind_eq_bind, Option.bind_some]
  rfl

private theorem exists_of_mem_fullGroups {x : ℕ} {group : List Char} (h : group ∈ fullGroups x) :
    ∃ a < 256, ∃ b < 256, group = byteText a ++ byteText b := by
  have hlt := octet_lt x
  simp only [fullGroups, List.mem_cons, List.not_mem_nil, or_false] at h
  rcases h with rfl | rfl | rfl | rfl
  · exact ⟨_, flipped_lt x, _, hlt 3, rfl⟩
  · exact ⟨_, hlt 4, _, by decide, rfl⟩
  · exact ⟨_, by decide, _, hlt 5, rfl⟩
  · exact ⟨_, hlt 6, _, hlt 7, rfl⟩

/-- The colons of the address separate its groups. -/
theorem splitOn_address (x : ℕ) :
    ([':'].intercalate (['f', 'e', '8', '0'] :: [] :: (fullGroups x).map lstripZeros)).splitOn ':' =
      ['f', 'e', '8', '0'] :: [] :: (fullGroups x).map lstripZeros := by
  refine List.splitOn_intercalate ':' (fun part hpart => ?_) (List.cons_ne_nil _ _)
  rcases List.mem_cons.mp hpart with rfl | hpart
  · decide
  rcases List.mem_cons.mp hpart with rfl | hpart
  · decide
  obtain ⟨group, hgroup, rfl⟩ := List.mem_map.mp hpart
  obtain ⟨a, ha, b, hb, rfl⟩ := exists_of_mem_fullGroups hgroup
  intro hcolon
  rcases List.mem_append.mp ((List.dropWhile_sublist _).subset hcolon) with hmem | hmem
  · exact colon_notMem_byteText ha hmem
  · exact colon_notMem_byteText hb hmem

/-- The leading zeros of the groups come back. -/
theorem map_zfill_groups (x : ℕ) :
    ((fullGroups x).map lstripZeros).map (zfill 4) = fullGroups x := by
  rw [List.map_map]
  refine (List.map_congr_left fun group hgroup => ?_).trans (List.map_id _)
  obtain ⟨a, -, b, -, rfl⟩ := exists_of_mem_fullGroups hgroup
  exact zfill_lstripZeros rfl

/-- Reading the address gives its bytes back, but the first one without a leading zero. -/
theorem ipv6ToMac_u64NBOtoIPv6 (x : ℕ) :
    (u64NBOtoIPv6 x).bind ipv6ToMac = some (hex (octet x 2) ++
      [3, 4, 5, 6, 7].flatMap fun i => byteText (octet x i)) := by
  have hback : octet x 2 ^^^ 2 ^^^ 2 = octet x 2 := by
    rw [Nat.xor_assoc, Nat.xor_self, Nat.xor_zero]
  rw [u64NBOtoIPv6_eq, Option.bind_some, ipv6ToMac, splitOn_address]
  dsimp only [List.drop]
  rw [map_zfill_groups]
  change (int16 (byteText (octet x 2 ^^^ 2))).bind _ = _
  rw [int16_byteText (flipped_lt x), Option.bind_some, hback]
  rfl

/-- The two texts agree exactly if the first byte of the MAC address has two digits without leading
zeros. -/
theorem ipv6ToMac_eq_u64NBOtoMac_iff (x : ℕ) :
    (u64NBOtoIPv6 x).bind ipv6ToMac = some (u64NBOtoMac x) ↔ 16 ≤ octet x 2 := by
  have hmac : u64NBOtoMac x = byteText (octet x 2) ++
      [3, 4, 5, 6, 7].flatMap fun i => byteText (octet x i) := by
    rw [u64NBOtoMac, macHex_eq]
    rfl
  rw [ipv6ToMac_u64NBOtoIPv6, hmac, Option.some_inj, List.append_left_inj]
  exact hex_eq_byteText_iff (octet_lt x 2)

/-- The station `02:00:00:00:01:00` is looked up under eleven digits. -/
theorem local_station_loses_digit :
    u64NBOtoMac 0x0001000000020000 = "020000000100".toList ∧
      (u64NBOtoIPv6 0x0001000000020000).bind ipv6ToMac = some "20000000100".toList ∧
      (u64NBOtoIPv6 0x0001000000020000).bind ipv6ToMac ≠ some (u64NBOtoMac 0x0001000000020000) := by
  have hmac : u64NBOtoMac 0x0001000000020000 = "020000000100".toList := by
    rw [u64NBOtoMac, macHex_eq]
    decide
  have hread : (u64NBOtoIPv6 0x0001000000020000).bind ipv6ToMac = some "20000000100".toList := by
    rw [ipv6ToMac_u64NBOtoIPv6]
    decide
  refine ⟨hmac, hread, ?_⟩
  rw [hread, hmac]
  decide

end Fbmeshd
