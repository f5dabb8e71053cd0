import Fbmeshd.Rnl.Types
import Mathlib.Data.List.Lex

/-!
# The comparisons of addresses

`operator==` and `operator<` of `folly::IPAddress` are not part of the repository. What its
documentation says about them is stated once, as the fields of a structure: addresses of one family
are compared as they are, an IPv4 address equals the IPv6 address that it is mapped to, with any
scope, and addresses without a scope are ordered if they are not equal.
-/

namespace Fbmeshd

namespace IPAddress

/-- `createIPv6`: the IPv6 address that an IPv4 address is mapped to. -/
def createIPv6 (bytes : List.Vector UInt8 4) : List UInt8 :=
  List.replicate 10 0 ++ [0xff, 0xff] ++ bytes.toList

/-- Different addresses are mapped to different ones. -/
theorem createIPv6_inj {as bs : List.Vector UInt8 4} (h : createIPv6 as = createIPv6 bs) :
    as = bs :=
  List.Vector.toList_injective (List.append_cancel_left h)

/-- An address that has a value and no scope, as all addresses of the kernel. -/
structure Plain (a : IPAddress) : Prop where
  ne_empty : a ≠ .empty
  unscoped_eq : a.unscoped = a

/-- `operator==` and `operator<`, with what is known about them. -/
structure Operators where
  equal : IPAddress → IPAddress → Bool
  less : IPAddress → IPAddress → Bool
  equal_iff_of_family : ∀ {a b}, a.family = b.family → (equal a b = true ↔ a = b)
  equal_symm : ∀ {a b}, equal a b = true → equal b a = true
  eq_empty_of_equal : ∀ {a}, equal .empty a = true → a = .empty
  equal_mapped : ∀ {as bs scopeId},
    equal (.v4 as) (.v6 bs scopeId) = true ↔ createIPv6 as = bs.toList
  not_less_of_equal : ∀ {a b}, a.Plain → b.Plain → equal a b = true → less a b = false
  less_asymm : ∀ {a b}, a.Plain → b.Plain → less a b = true → less b a = false
  less_trans : ∀ {a b c}, a.Plain → b.Plain → c.Plain → less a b = true → less b c = true →
    less a c = true
  less_total : ∀ {a b}, a.Plain → b.Plain → equal a b = false → less a b = true ∨ less b a = true

namespace Operators

variable (ops : Operators)

/-- An address equals itself. -/
@[simp] theorem equal_refl (a : IPAddress) : ops.equal a a = true :=
  (ops.equal_iff_of_family rfl).mpr rfl

end Operators

/-! ### Operators of this kind -/

/-- What orders the addresses: an IPv4 address counts as the IPv6 address that it is mapped to. -/
def rank : IPAddress → List ℕ
  | .empty => [1]
  | .v4 bytes => 0 :: ((createIPv6 bytes).map UInt8.toNat ++ [0])
  | .v6 bytes scopeId => 0 :: (bytes.toList.map UInt8.toNat ++ [scopeId.toNat])

/-- The equality that the documentation describes. -/
def mappedEqual : IPAddress → IPAddress → Bool
  | .v4 lhs, .v6 rhs _ => createIPv6 lhs = rhs.toList
  | .v6 lhs _, .v4 rhs => createIPv6 rhs = lhs.toList
  | lhs, rhs => lhs = rhs

private theorem map_toNat_inj {as bs : List UInt8} :
    as.map UInt8.toNat = bs.map UInt8.toNat ↔ as = bs :=
  (List.map_injective_iff.mpr fun _ _ => UInt8.toNat_inj.mp).eq_iff

private theorem rank_v4_eq_v6 {as : List.Vector UInt8 4} {bs : List.Vector UInt8 16} :
    (v4 as).rank = (v6 bs 0).rank ↔ createIPv6 as = bs.toList := by
  simp [rank, map_toNat_inj]

/-- Addresses without a scope are equal if they have the same rank. -/
theorem mappedEqual_iff {a b : IPAddress} (ha : a.unscoped = a) (hb : b.unscoped = b) :
    mappedEqual a b = true ↔ a.rank = b.rank := by
  cases a with
  | empty => cases b <;> simp [mappedEqual, rank]
  | v4 as =>
    cases b with
    | empty => simp [mappedEqual, rank]
    | v4 bs =>
      simp [mappedEqual, rank, createIPv6, map_toNat_inj, List.Vector.toList_injective.eq_iff]
    | v6 bs scopeId =>
      obtain ⟨-, rfl⟩ := IPAddress.v6.inj hb
      rw [rank_v4_eq_v6, mappedEqual, decide_eq_true_iff]
  | v6 as scopeId =>
    obtain ⟨-, rfl⟩ := IPAddress.v6.inj ha
    cases b with
    | empty => simp [mappedEqual, rank]
    | v4 bs => rw [eq_comm (a := rank _), rank_v4_eq_v6, mappedEqual, decide_eq_true_iff]
    | v6 bs scopeId =>
      obtain ⟨-, rfl⟩ := IPAddress.v6.inj hb
      simp [mappedEqual, rank, map_toNat_inj, List.Vector.toList_injective.eq_iff]

/-- Operators as they are documented. -/
def Operators.byRank : Operators where
  equal := mappedEqual
  less a b := a.rank < b.rank
  equal_iff_of_family {a b} h := by
    have hne : AF_INET ≠ AF_INET6 := by decide
    cases a <;> cases b <;> simp_all [mappedEqual, family]
  equal_symm {a b} h := by cases a <;> cases b <;> simp_all [mappedEqual]
  eq_empty_of_equal {a} h := by cases a <;> simp_all [mappedEqual]
  equal_mapped := by simp [mappedEqual]
  not_less_of_equal ha hb h := by
    rw [mappedEqual_iff ha.unscoped_eq hb.unscoped_eq] at h
    simp [h]
  less_asymm _ _ h := decide_eq_false (lt_asymm (of_decide_eq_true h))
  less_trans _ _ _ hab hbc :=
    decide_eq_true (lt_trans (of_decide_eq_true hab) (of_decide_eq_true hbc))
  less_total {a b} ha hb h := by
    have hne : a.rank ≠ b.rank := fun heq => by
      rw [(mappedEqual_iff ha.unscoped_eq hb.unscoped_eq).mpr heq] at h
      cases h
    simpa using lt_or_gt_of_ne hne

end IPAddress

end Fbmeshd
