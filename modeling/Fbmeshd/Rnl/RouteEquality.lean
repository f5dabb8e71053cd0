import Fbmeshd.Lib.UnorderedSet
import Fbmeshd.Rnl.AddressOrder
import Fbmeshd.Rnl.BuilderReset

/-!
# Comparing routes

`operator==` of routes compares their attributes and the sizes of their next-hop sets, and then
looks up the next hops of one route in the hash table of the other. Addresses are compared by
`operator==` of `folly::IPAddress`, under which an IPv4 address equals the IPv6 address that it is
mapped to, with any scope.
-/

namespace Fbmeshd

namespace IPAddress

/-- An IPv6 address that an IPv4 address is mapped to, but with a scope. -/
def ScopedMapped (a : IPAddress) : Prop :=
  ∃ v4 bytes scopeId, a = .v6 bytes scopeId ∧ createIPv6 v4 = bytes.toList ∧ scopeId ≠ 0

namespace Operators

variable (ops : Operators) {a b c : IPAddress}

/-- Addresses of different families that are equal are an IPv4 address and the address that it is
mapped to. -/
theorem mapped_of_equal (hab : ops.equal a b = true) (hfamily : a.family ≠ b.family) :
    (∃ as bs scopeId, a = .v4 as ∧ b = .v6 bs scopeId ∧ createIPv6 as = bs.toList) ∨
      ∃ as bs scopeId, a = .v6 as scopeId ∧ b = .v4 bs ∧ createIPv6 bs = as.toList := by
  cases a with
  | empty =>
    rw [ops.eq_empty_of_equal hab] at hfamily
    exact absurd rfl hfamily
  | v4 as =>
    cases b with
    | empty => cases ops.eq_empty_of_equal (ops.equal_symm hab)
    | v4 bs => exact absurd rfl hfamily
    | v6 bs scopeId => exact .inl ⟨as, bs, scopeId, rfl, rfl, ops.equal_mapped.mp hab⟩
  | v6 as scopeId =>
    cases b with
    | empty => cases ops.eq_empty_of_equal (ops.equal_symm hab)
    | v4 bs =>
      exact .inr ⟨as, bs, scopeId, rfl, rfl, ops.equal_mapped.mp (ops.equal_symm hab)⟩
    | v6 bs scopeId' => exact absurd rfl hfamily

/-- The comparison is transitive, unless an IPv4 address stands between two addresses with
different scopes. -/
theorem equal_trans (ha : ¬ a.ScopedMapped) (hc : ¬ c.ScopedMapped)
    (hab : ops.equal a b = true) (hbc : ops.equal b c = true) : ops.equal a c = true := by
  by_cases hleft : a.family = b.family
  · rwa [(ops.equal_iff_of_family hleft).mp hab]
  by_cases hright : b.family = c.family
  · rwa [← (ops.equal_iff_of_family hright).mp hbc]
  rcases ops.mapped_of_equal hab hleft with
      ⟨as, bs, s, rfl, rfl, hmapped⟩ | ⟨as, bs, s, rfl, rfl, hmapped⟩ <;>
    rcases ops.mapped_of_equal hbc hright with
      ⟨bs', cs, s', hb, rfl, hmapped'⟩ | ⟨bs', cs, s', hb, rfl, hmapped'⟩
  · cases hb
  · obtain ⟨rfl, rfl⟩ := IPAddress.v6.inj hb
    rw [createIPv6_inj (hmapped.trans hmapped'.symm)]
    exact ops.equal_refl _
  · cases IPAddress.v4.inj hb
    -- both are the address that `b` is mapped to, without a scope
    have hs : s = 0 := by
      by_contra hne
      exact ha ⟨bs, as, s, rfl, hmapped, hne⟩
    have hs' : s' = 0 := by
      by_contra hne
      exact hc ⟨bs, cs, s', rfl, hmapped', hne⟩
    rw [hs, hs', List.Vector.toList_injective (hmapped.symm.trans hmapped')]
    exact ops.equal_refl _
  · cases hb

end Operators

end IPAddress

/-! ### Next hops -/

/-- What a table of next hops rests on: `std::hash<std::string>`, and `folly::IPAddress` with its
operators. -/
structure Hashing extends IPAddress.Operators where
  hash : String → UInt64
  str : IPAddress → String

/-- `operator==` of gateways, which are optional. -/
def gatewayEqual (ops : IPAddress.Operators) : Option IPAddress → Option IPAddress → Bool
  | none, none => true
  | some lhs, some rhs => ops.equal lhs rhs
  | _, _ => false

namespace NextHop

/-- `operator==(const NextHop&, const NextHop&)`. -/
def equal (ops : IPAddress.Operators) (lhs rhs : NextHop) : Bool :=
  lhs.ifIndex = rhs.ifIndex && gatewayEqual ops lhs.gateway rhs.gateway &&
    lhs.weight = rhs.weight && lhs.labelAction = rhs.labelAction &&
    lhs.swapLabel = rhs.swapLabel && lhs.pushLabels = rhs.pushLabels &&
    lhs.getFamily = rhs.getFamily

/-- `NextHopHash`. -/
def nextHopHash (H : Hashing) (nh : NextHop) : UInt64 :=
  let res : UInt64 := 0
  let res := nh.ifIndex.elim res fun ifIndex => res + H.hash (toString ifIndex.toInt32.toInt)
  let res := nh.gateway.elim res fun gateway => res + H.hash (H.str gateway)
  res + H.hash (toString nh.weight.toNat)

variable (ops : IPAddress.Operators)

/-- The comparison of the families leaves no two addresses equal that are not the same. -/
theorem equal_iff {lhs rhs : NextHop} : equal ops lhs rhs = true ↔ lhs = rhs := by
  constructor
  · intro h
    simp only [equal, Bool.and_eq_true, decide_eq_true_eq] at h
    obtain ⟨⟨⟨⟨⟨⟨hif, hgateway⟩, hweight⟩, haction⟩, hswap⟩, hpush⟩, hfamily⟩ := h
    have hsame : lhs.gateway = rhs.gateway := by
      cases hl : lhs.gateway with
      | none => cases hr : rhs.gateway <;> simp_all [gatewayEqual]
      | some l =>
        cases hr : rhs.gateway with
        | none => simp_all [gatewayEqual]
        | some r =>
          simp only [hl, hr, gatewayEqual, getFamily, Option.elim_some] at hgateway hfamily
          rw [(ops.equal_iff_of_family hfamily).mp hgateway]
    cases lhs
    cases rhs
    simp_all
  · rintro rfl
    have hgateway : gatewayEqual ops lhs.gateway lhs.gateway = true := by
      cases lhs.gateway <;> simp [gatewayEqual]
    simp [equal, hgateway]

/-- So it is an equivalence, -/
theorem equal_equivalence : Equivalence fun a b : NextHop => equal ops a b = true := by
  simp only [equal_iff]
  exact eq_equivalence

/-- and equal next hops have the same hash. -/
theorem nextHopHash_respects (H : Hashing) (a b : NextHop)
    (h : equal H.toOperators a b = true) : (a.nextHopHash H).toNat = (b.nextHopHash H).toNat := by
  rw [(equal_iff _).mp h]

end NextHop

/-- `NextHopSet`. -/
abbrev NextHopSet := UnorderedSet NextHop

namespace NextHopSet

/-- The sets that insertions lead to. -/
abbrev Built (H : Hashing) (s : NextHopSet) : Prop :=
  UnorderedSet.Built (fun nh => (nh.nextHopHash H).toNat) (NextHop.equal H.toOperators) s

/-- `count`. -/
abbrev count (H : Hashing) (s : NextHopSet) (nh : NextHop) : ℕ :=
  UnorderedSet.count (fun nh => (nh.nextHopHash H).toNat) (NextHop.equal H.toOperators) s nh

/-- Inclusion is that of the elements. -/
theorem includes_iff (ops : IPAddress.Operators) {s t : NextHopSet} :
    UnorderedSet.Includes (NextHop.equal ops) s t ↔ ∀ nh ∈ s.elems, nh ∈ t.elems := by
  simp [UnorderedSet.Includes, NextHop.equal_iff]

end NextHopSet

/-! ### Routes -/

/-- A route as it is stored, with its next hops in a hash table. -/
structure HashedRoute (H : Hashing) where
  route : Route
  nextHops : NextHopSet
  built : NextHopSet.Built H nextHops
  mem_iff : ∀ nh, nh ∈ nextHops.elems ↔ nh ∈ route.nextHops

/-- `operator==` of destinations, which are pairs. -/
def CIDRNetwork.equal (ops : IPAddress.Operators) (lhs rhs : CIDRNetwork) : Bool :=
  ops.equal lhs.1 rhs.1 && lhs.2 = rhs.2

variable {H : Hashing}

namespace HashedRoute

/-- `operator==(const Route&, const Route&)`. -/
def equal (lhs rhs : HashedRoute H) : Bool :=
  let ret := CIDRNetwork.equal H.toOperators lhs.route.dst rhs.route.dst &&
    lhs.route.mplsLabel = rhs.route.mplsLabel && lhs.nextHops.size = rhs.nextHops.size &&
    lhs.route.type = rhs.route.type && lhs.route.routeTable = rhs.route.routeTable &&
    lhs.route.protocolId = rhs.route.protocolId && lhs.route.scope = rhs.route.scope &&
    lhs.route.isValid = rhs.route.isValid && lhs.route.flags = rhs.route.flags &&
    lhs.route.priority = rhs.route.priority && lhs.route.tos = rhs.route.tos &&
    lhs.route.mtu = rhs.route.mtu && lhs.route.advMss = rhs.route.advMss &&
    lhs.route.routeIfName = rhs.route.routeIfName && lhs.route.family = rhs.route.family
  if !ret then false
  else lhs.nextHops.elems.all fun nh => NextHopSet.count H rhs.nextHops nh ≠ 0

end HashedRoute

/-- The compared attributes agree, destinations in the sense of their comparison. -/
def Route.AttributesAgree (ops : IPAddress.Operators) (lhs rhs : Route) : Prop :=
  CIDRNetwork.equal ops lhs.dst rhs.dst = true ∧
    { lhs with dst := rhs.dst, nextHops := rhs.nextHops } = rhs

namespace Route.AttributesAgree

variable {ops : IPAddress.Operators} {a b c : Route}

/-- The attributes of a route agree with themselves, -/
theorem refl (a : Route) : AttributesAgree ops a a := ⟨by simp [CIDRNetwork.equal], rfl⟩

/-- in both directions, -/
theorem symm (h : AttributesAgree ops a b) : AttributesAgree ops b a := by
  obtain ⟨hdst, hrest⟩ := h
  simp only [CIDRNetwork.equal, Bool.and_eq_true, decide_eq_true_eq] at hdst
  refine ⟨?_, by rw [← hrest]⟩
  simp [CIDRNetwork.equal, ops.equal_symm hdst.1, hdst.2]

/-- and with those that agree with others, where no destination is a mapped address with a
scope. -/
theorem trans (ha : ¬ a.dst.1.ScopedMapped) (hc : ¬ c.dst.1.ScopedMapped)
    (hab : AttributesAgree ops a b) (hbc : AttributesAgree ops b c) : AttributesAgree ops a c := by
  obtain ⟨hdst, hrest⟩ := hab
  obtain ⟨hdst', hrest'⟩ := hbc
  simp only [CIDRNetwork.equal, Bool.and_eq_true, decide_eq_true_eq] at hdst hdst'
  refine ⟨?_, ?_⟩
  · simp [CIDRNetwork.equal, ops.equal_trans ha hc hdst.1 hdst'.1, hdst.2, hdst'.2]
  · rw [← hrest', ← hrest]

end Route.AttributesAgree

namespace HashedRoute

/-- What the comparison computes. -/
theorem equal_eq_true_iff {lhs rhs : HashedRoute H} :
    lhs.equal rhs = true ↔ Route.AttributesAgree H.toOperators lhs.route rhs.route ∧
      lhs.nextHops.size = rhs.nextHops.size ∧
        UnorderedSet.Includes (NextHop.equal H.toOperators) lhs.nextHops rhs.nextHops := by
  have hall : (lhs.nextHops.elems.all fun nh => NextHopSet.count H rhs.nextHops nh ≠ 0) = true ↔
      UnorderedSet.Includes (NextHop.equal H.toOperators) lhs.nextHops rhs.nextHops := by
    simp only [List.all_eq_true, decide_eq_true_eq]
    exact forall₂_congr fun nh _ =>
      UnorderedSet.count_ne_zero_iff (NextHop.nextHopHash_respects H)
  rw [← hall, equal]
  cases lhs.route
  cases rhs.route
  simp only [Route.AttributesAgree, Route.mk.injEq, Bool.not_eq_true', Bool.if_false_left,
    Bool.and_eq_true]
  grind

/-- Sizes and one inclusion are enough, so the sets have the same elements. -/
theorem equal_iff {lhs rhs : HashedRoute H} :
    lhs.equal rhs = true ↔ Route.AttributesAgree H.toOperators lhs.route rhs.route ∧
      ∀ nh, nh ∈ lhs.nextHops.elems ↔ nh ∈ rhs.nextHops.elems := by
  rw [equal_eq_true_iff, lhs.built.includes_and_size_iff (NextHop.equal_equivalence _)
    (NextHop.nextHopHash_respects H) rhs.built, NextHopSet.includes_iff, NextHopSet.includes_iff]
  refine and_congr_right fun _ => ⟨fun h nh => ⟨h.1 nh, h.2 nh⟩, fun h => ?_⟩
  exact ⟨fun nh => (h nh).mp, fun nh => (h nh).mpr⟩

/-- Routes whose families are those of their destinations, as all but label routes have them, are
equal if they are the same. -/
theorem equal_eq_eq {lhs rhs : HashedRoute H} (hl : lhs.route.family = lhs.route.dst.1.family)
    (hr : rhs.route.family = rhs.route.dst.1.family) :
    lhs.equal rhs = lhs.route.eq rhs.route := by
  rw [Bool.eq_iff_iff, equal_iff, Route.eq_iff]
  simp only [lhs.mem_iff, rhs.mem_iff]
  constructor
  · rintro ⟨⟨hdst, hrest⟩, hhops⟩
    simp only [CIDRNetwork.equal, Bool.and_eq_true, decide_eq_true_eq] at hdst
    have hfamily : lhs.route.family = rhs.route.family := by rw [← hrest]
    have hip : lhs.route.dst.1 = rhs.route.dst.1 :=
      (H.equal_iff_of_family (by rw [← hl, ← hr, hfamily])).mp hdst.1
    rw [← hrest, ← Prod.ext hip hdst.2, ← Finset.ext hhops]
  · intro heq
    rw [heq]
    exact ⟨.refl _, fun _ => Iff.rfl⟩

/-- Routes are equal if their attributes agree and their next hops are the same. This is reflexive
and symmetric, and transitive where no destination is a mapped address with a scope. Equal next hops
have the same hash, so a set holds no two of them, and finds one that is stored. -/
theorem route_equality (H : Hashing) :
    (∀ a b : HashedRoute H, a.equal b = true ↔
      Route.AttributesAgree H.toOperators a.route b.route ∧
        ∀ nh, nh ∈ a.nextHops.elems ↔ nh ∈ b.nextHops.elems) ∧
    (∀ a : HashedRoute H, a.equal a = true) ∧
    (∀ a b : HashedRoute H, a.equal b = true → b.equal a = true) ∧
    (∀ a b c : HashedRoute H, ¬ a.route.dst.1.ScopedMapped → ¬ c.route.dst.1.ScopedMapped →
      a.equal b = true → b.equal c = true → a.equal c = true) ∧
    (∀ m n, NextHop.equal H.toOperators m n = true → m.nextHopHash H = n.nextHopHash H) ∧
    (∀ s, NextHopSet.Built H s →
      s.elems.Pairwise fun m n => NextHop.equal H.toOperators m n = false) ∧
    ∀ s nh, NextHopSet.count H s nh ≠ 0 ↔
      ∃ m ∈ s.elems, NextHop.equal H.toOperators m nh = true := by
  refine ⟨fun _ _ => equal_iff, fun a => equal_iff.mpr ⟨.refl _, fun _ => Iff.rfl⟩, ?_, ?_, ?_, ?_,
    ?_⟩
  · intro a b h
    obtain ⟨hattrs, hhops⟩ := equal_iff.mp h
    exact equal_iff.mpr ⟨hattrs.symm, fun nh => (hhops nh).symm⟩
  · intro a b c ha hc hab hbc
    obtain ⟨hattrs, hhops⟩ := equal_iff.mp hab
    obtain ⟨hattrs', hhops'⟩ := equal_iff.mp hbc
    exact equal_iff.mpr ⟨hattrs.trans ha hc hattrs', fun nh => (hhops nh).trans (hhops' nh)⟩
  · intro m n h
    exact UInt64.toNat_inj.mp (NextHop.nextHopHash_respects H m n h)
  · exact fun s hs => hs.pairwise (NextHop.equal_equivalence _) (NextHop.nextHopHash_respects H)
  · exact fun s nh => UnorderedSet.count_ne_zero_iff (NextHop.nextHopHash_respects H)

/-- The route to a label that is built after a destination was set, with two next hops. -/
def labelRoute (H : Hashing) (ip : IPAddress) (m n : NextHop) : HashedRoute H where
  route := ([.setDestination (ip, 32), .setMplsLabel 100, .addNextHop m, .addNextHop n].foldl
    RouteBuilder.call {}).build
  nextHops := ⟨if m = n then [m] else [n, m], 2⟩
  built := by
    have hfound : UnorderedSet.found (fun nh => (NextHop.nextHopHash H nh).toNat)
        (NextHop.equal H.toOperators) ⟨[m], 1⟩ n = decide (m = n) := by
      rw [Bool.eq_iff_iff, UnorderedSet.found_iff (NextHop.nextHopHash_respects H)]
      simp [NextHop.equal_iff]
    refine .insert n 2 (.insert (s := ⟨[], 1⟩) m 1 (.empty 1) (.refl [m])) ?_
    simp [hfound]
  mem_iff nh := by
    by_cases hmn : m = n <;>
      simp [hmn, RouteBuilder.build, RouteBuilder.call, RouteBuilder.setDestination,
        RouteBuilder.addNextHop, or_comm]

/-- The address 10.3.0.1. -/
def plainAddress : IPAddress := .v4 ⟨[10, 3, 0, 1], rfl⟩

/-- The address ::ffff:10.3.0.1 with a scope. -/
def mappedAddress (scopeId : UInt16) : IPAddress :=
  .v6 ⟨[0, 0, 0, 0, 0, 0, 0, 0, 0, 0, 0xff, 0xff, 10, 3, 0, 1], rfl⟩ scopeId

/-- A next hop over an interface. -/
def hopOver (ifIndex : UInt32) : NextHop where
  ifIndex := some ifIndex

/-- A hash function under which everything collides. -/
def flatHashing : Hashing where
  toOperators := .byRank
  hash _ := 0
  str _ := ""

/-- An IPv4 destination, the one it is mapped to, and the first again. The next hops were added in
another order each time. -/
theorem mapped_routes_equal :
    let a := labelRoute flatHashing plainAddress (hopOver 1) (hopOver 2)
    let b := labelRoute flatHashing (mappedAddress 0) (hopOver 2) (hopOver 1)
    let c := labelRoute flatHashing plainAddress (hopOver 2) (hopOver 1)
    a.equal b = true ∧ b.equal a = true ∧ b.equal c = true ∧ a.equal c = true := by
  intro a b c
  obtain ⟨hiff, -, hsymm, htrans, -⟩ := route_equality flatHashing
  have hab : a.equal b = true := (hiff a b).mpr ⟨⟨rfl, by decide⟩, fun nh =>
    (List.Perm.swap (hopOver 1) (hopOver 2) []).mem_iff⟩
  have hbc : b.equal c = true := (hiff b c).mpr ⟨⟨rfl, rfl⟩, fun _ => Iff.rfl⟩
  exact ⟨hab, hsymm _ _ hab, hbc, htrans a b c nofun nofun hab hbc⟩

/-- Between two scopes of the mapped address, the IPv4 address is equal to both. -/
theorem scoped_routes_not_transitive :
    let route := fun ip => labelRoute flatHashing ip (hopOver 1) (hopOver 2)
    (route (mappedAddress 1)).equal (route plainAddress) = true ∧
      (route plainAddress).equal (route (mappedAddress 2)) = true ∧
      (route (mappedAddress 1)).equal (route (mappedAddress 2)) = false := by
  refine ⟨?_, ?_, ?_⟩ <;> rfl

end HashedRoute

end Fbmeshd
