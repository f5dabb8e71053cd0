import Fbmeshd.Lib.Table
import Mathlib.Data.Finset.Card
import Mathlib.Data.Nat.Notation
import Mathlib.Data.Vector.Basic

/-!
# Routes and addresses

The types of `NetlinkTypes.h` that the netlink code exchanges with its callers. A set of next
hops is a finite set, so the comparison of routes in the source is equality.
-/

namespace Fbmeshd

/-- The address families. -/
def AF_UNSPEC : UInt8 := 0
def AF_INET : UInt8 := 2
def AF_INET6 : UInt8 := 10
def AF_MPLS : UInt8 := 28

/-- The routing tables, scopes, types and flags of routes. -/
def RT_TABLE_MAIN : UInt8 := 254
def RT_SCOPE_UNIVERSE : UInt8 := 0
def RT_SCOPE_LINK : UInt8 := 253
def RT_SCOPE_NOWHERE : UInt8 := 255
def RTN_UNICAST : UInt8 := 1
def RTN_MULTICAST : UInt8 := 5
def RTN_BLACKHOLE : UInt8 := 6
def RTM_F_CLONED : UInt32 := 0x200

/-- The types of netlink messages. -/
def NLMSG_NOOP : ℕ := 1
def NLMSG_ERROR : ℕ := 2
def NLMSG_DONE : ℕ := 3
def RTM_NEWLINK : ℕ := 16
def RTM_DELLINK : ℕ := 17
def RTM_GETLINK : ℕ := 18
def RTM_NEWADDR : ℕ := 20
def RTM_DELADDR : ℕ := 21
def RTM_GETADDR : ℕ := 22
def RTM_NEWROUTE : ℕ := 24
def RTM_DELROUTE : ℕ := 25
def RTM_GETROUTE : ℕ := 26
def RTM_NEWNEIGH : ℕ := 28
def RTM_DELNEIGH : ℕ := 29
def RTM_GETNEIGH : ℕ := 30

/-- The flags of netlink messages. -/
def NLM_F_REQUEST : ℕ := 0x1
def NLM_F_ACK : ℕ := 0x4
def NLM_F_REPLACE : ℕ := 0x100
def NLM_F_DUMP : ℕ := 0x300
def NLM_F_CREATE : ℕ := 0x400

/-- The types of attributes of routes, next hops and label stacks. -/
def RTA_DST : ℕ := 1
def RTA_OIF : ℕ := 4
def RTA_GATEWAY : ℕ := 5
def RTA_PRIORITY : ℕ := 6
def RTA_MULTIPATH : ℕ := 9
def RTA_VIA : ℕ := 18
def RTA_NEWDST : ℕ := 19
def RTA_ENCAP_TYPE : ℕ := 21
def RTA_ENCAP : ℕ := 22
def MPLS_IPTUNNEL_DST : ℕ := 1
def LWTUNNEL_ENCAP_MPLS : ℕ := 1

/-- The types of attributes of links, addresses and neighbors. -/
def IFLA_IFNAME : ℕ := 3
def IFA_ADDRESS : ℕ := 1
def NDA_DST : ℕ := 1
def NDA_LLADDR : ℕ := 2

/-- The states of neighbors. -/
def NUD_REACHABLE : ℕ := 0x02
def NUD_STALE : ℕ := 0x04
def NUD_DELAY : ℕ := 0x08
def NUD_PROBE : ℕ := 0x10
def NUD_NOARP : ℕ := 0x40
def NUD_PERMANENT : ℕ := 0x80

/-- `kNeighborReachableStates`. -/
def kNeighborReachableStates : List ℕ :=
  [NUD_REACHABLE, NUD_STALE, NUD_DELAY, NUD_PERMANENT, NUD_PROBE, NUD_NOARP]

/-- `kMaxLabels`, `kLabelShift`, `kLabelBosShift` and `kLabelSizeBits`. -/
def kMaxLabels : ℕ := 16
def kLabelShift : ℕ := 12
def kLabelBosShift : ℕ := 8
def kLabelSizeBits : ℕ := 20

/-- `kMaxNlPayloadSize`. -/
def kMaxNlPayloadSize : ℕ := 4096

/-- The error codes some requests ignore. -/
def ESRCH : ℕ := 3
def EEXIST : ℕ := 17
def EINVAL : ℕ := 22
def EADDRNOTAVAIL : ℕ := 99

/-- `rnl::ResultCode`. -/
inductive ResultCode where
  | SUCCESS
  | FAIL
  | TIMEOUT
  | SYSERR
  | NO_MESSAGE_BUFFER
  | SENDMSG_FAILED
  | INVALID_ADDRESS_FAMILY
  | NO_LABEL
  | NO_NEXTHOP_IP
  | NO_LOOPBACK_INDEX
  | UNKNOWN_LABEL_ACTION
  | NO_IP
  deriving DecidableEq

/-- `DEFAULT_PROTOCOL_ID`. -/
def DEFAULT_PROTOCOL_ID : UInt8 := 99

/-- A `folly::IPAddress`, which is empty when it was given no value. The bytes are in network
order. -/
inductive IPAddress where
  | empty
  | v4 (bytes : List.Vector UInt8 4)
  | v6 (bytes : List.Vector UInt8 16) (scopeId : UInt16)
  deriving DecidableEq

namespace IPAddress

/-- `isV6`. -/
def isV6 : IPAddress → Bool
  | .v6 _ _ => true
  | _ => false

/-- `isMulticast`, `none` where it throws `InvalidAddressFamilyException`. -/
def isMulticast : IPAddress → Option Bool
  | .empty => none
  | .v4 b => some (b.head &&& 0xf0 == 0xe0)
  | .v6 b _ => some (b.head == 0xff)

/-- `isLinkLocal`, `none` where it throws `InvalidAddressFamilyException`. -/
def isLinkLocal : IPAddress → Option Bool
  | .empty => none
  | .v4 b => some (b.head == 169 && b.get 1 == 254)
  | .v6 b _ => some (b.head == 0xfe && b.get 1 &&& 0xc0 == 0x80)

/-- An address for which `isMulticast` does not throw has an answer of `isLinkLocal` as well. -/
theorem isLinkLocal_eq_some_false {a : IPAddress} (hmulti : a.isMulticast = some false)
    (hlocal : a.isLinkLocal ≠ some true) : a.isLinkLocal = some false := by
  cases a with
  | empty => nomatch hmulti
  | v4 b => exact congrArg some (Bool.eq_false_iff.mpr fun h => hlocal (congrArg some h))
  | v6 b scopeId => exact congrArg some (Bool.eq_false_iff.mpr fun h => hlocal (congrArg some h))

/-- `family()`. -/
def family : IPAddress → UInt8
  | .empty => AF_UNSPEC
  | .v4 _ => AF_INET
  | .v6 _ _ => AF_INET6

/-- The address as it is sent, without a scope id. -/
def unscoped : IPAddress → IPAddress
  | .v6 b _ => .v6 b 0
  | ip => ip

/-- The scope does not change the family. -/
@[simp] theorem family_unscoped (ip : IPAddress) : ip.unscoped.family = ip.family := by
  cases ip <;> rfl

/-- `bytes()` of an address that is not empty. -/
def bytes : IPAddress → List UInt8
  | .empty => []
  | .v4 b => b.toList
  | .v6 b _ => b.toList

/-- An address has at most 16 bytes. -/
theorem length_bytes_le (ip : IPAddress) : ip.bytes.length ≤ 16 := by
  cases ip <;> simp [bytes]

end IPAddress

/-- A `folly::CIDRNetwork`. -/
abbrev CIDRNetwork := IPAddress × UInt8

/-- `thrift::MplsActionCode`. -/
inductive MplsActionCode where
  | PUSH
  | SWAP
  | PHP
  | POP_AND_LOOKUP
  deriving DecidableEq

/-- `rnl::NextHop`. The interface index and the labels to push are an `int` and `int32_t`s, given
by their 32 bits. -/
structure NextHop where
  ifIndex : Option UInt32 := none
  gateway : Option IPAddress := none
  weight : UInt8 := 0
  labelAction : Option MplsActionCode := none
  swapLabel : Option UInt32 := none
  pushLabels : Option (List UInt32) := none
  deriving DecidableEq

/-- `NextHop::getFamily`. -/
def NextHop.getFamily (nh : NextHop) : UInt8 := nh.gateway.elim AF_UNSPEC IPAddress.family

/-- `rnl::Route`. -/
structure Route where
  type : UInt8 := RTN_UNICAST
  routeTable : UInt8 := RT_TABLE_MAIN
  protocolId : UInt8 := DEFAULT_PROTOCOL_ID
  scope : UInt8 := RT_SCOPE_UNIVERSE
  family : UInt8 := AF_UNSPEC
  isValid : Bool := false
  flags : Option UInt32 := none
  priority : Option UInt32 := none
  tos : Option UInt8 := none
  mtu : Option UInt32 := none
  advMss : Option UInt32 := none
  nextHops : Finset NextHop := ∅
  dst : CIDRNetwork := (.empty, 0)
  routeIfName : Option String := none
  mplsLabel : Option UInt32 := none
  deriving DecidableEq

/-- `operator==(const Route&, const Route&)`. -/
def Route.eq (lhs rhs : Route) : Bool :=
  lhs.dst = rhs.dst && lhs.mplsLabel = rhs.mplsLabel &&
    lhs.nextHops.card = rhs.nextHops.card && lhs.type = rhs.type &&
    lhs.routeTable = rhs.routeTable && lhs.protocolId = rhs.protocolId &&
    lhs.scope = rhs.scope && lhs.isValid = rhs.isValid && lhs.flags = rhs.flags &&
    lhs.priority = rhs.priority && lhs.tos = rhs.tos && lhs.mtu = rhs.mtu &&
    lhs.advMss = rhs.advMss && lhs.routeIfName = rhs.routeIfName && lhs.family = rhs.family &&
    decide (∀ nh ∈ lhs.nextHops, nh ∈ rhs.nextHops)

/-- The comparison misses no field: equal sizes and one inclusion make the next hops equal. -/
theorem Route.eq_iff {lhs rhs : Route} : lhs.eq rhs = true ↔ lhs = rhs := by
  constructor
  · intro h
    simp only [Route.eq, Bool.and_eq_true, decide_eq_true_eq] at h
    have hhops : lhs.nextHops = rhs.nextHops :=
      Finset.eq_of_subset_of_card_le h.2 (by omega)
    cases lhs
    cases rhs
    simp_all
  · rintro rfl
    simp [Route.eq]

/-- See one more next hop: the first one is kept, a second one is one too many. -/
def NextHop.see (nh : NextHop) (seen : Option (Option NextHop)) : Option (Option NextHop) :=
  some (if seen = none then some nh else none)

instance : LeftCommutative NextHop.see := ⟨fun _ _ _ => by simp [NextHop.see]⟩

/-- `*route.getNextHops().begin()` of a route with one next hop. -/
def Route.soleNextHop (r : Route) : Option NextHop := (r.nextHops.val.foldr NextHop.see none).join

/-- `soleNextHop` is the next hop of a route that has exactly one. -/
theorem Route.soleNextHop_eq_some {r : Route} {nh : NextHop} :
    r.soleNextHop = some nh ↔ r.nextHops = {nh} := by
  rw [soleNextHop]
  induction r.nextHops using Finset.cons_induction with
  | empty => simp
  | cons a hops ha _ =>
    rw [Finset.cons_val, Multiset.foldr_cons, NextHop.see]
    rcases hops.eq_empty_or_nonempty with rfl | ⟨b, hb⟩
    · simp
    · -- with a second next hop there is no sole one
      have hseen : hops.val.foldr NextHop.see none ≠ none := by
        obtain ⟨rest, hrest⟩ := Multiset.exists_cons_of_mem (Finset.mem_val.mpr hb)
        rw [hrest, Multiset.foldr_cons, NextHop.see]
        exact Option.some_ne_none _
      have hne : Finset.cons a hops ha ≠ {nh} := by
        intro heq
        have hanh := Finset.mem_singleton.mp (heq ▸ Finset.mem_cons_self a hops)
        have hbnh := Finset.mem_singleton.mp (heq ▸ Finset.mem_cons_of_mem hb)
        exact ha (hanh.trans hbnh.symm ▸ hb)
      simp [hseen, -Finset.cons_eq_insert, hne]

/-- `rnl::Link`, with the bytes of its name. -/
structure Link where
  linkName : List UInt8 := []
  ifIndex : UInt32 := 0
  flags : UInt32 := 0
  deriving DecidableEq

/-- `rnl::IfAddress`. -/
structure IfAddress where
  addrPrefix : Option CIDRNetwork := none
  ifIndex : UInt32 := 0
  isValid : Bool := false
  scope : Option UInt8 := none
  deriving DecidableEq

/-- `rnl::Neighbor`. -/
structure Neighbor where
  ifIndex : UInt32 := 0
  isReachable : Bool := false
  destination : IPAddress := .empty
  linkAddress : Option (List.Vector UInt8 6) := none
  state : Option ℕ := none
  deriving DecidableEq

/-- The map `protocolIdtoPriority` of `fbmeshd.thrift`. -/
def protocolIdtoPriority : UInt8 → Option UInt32
  | 99 => some 10
  | 253 => some 20
  | 64 => some 11
  | _ => none

/-- `kUnknownProtAdminDistance`. -/
def kUnknownProtAdminDistance : UInt32 := 255

/-- The priority a route is given when its user did not specify one. -/
def Route.withDefaultPriority (r : Route) : Route :=
  match r.priority with
  | some _ => r
  | none =>
    { r with
      priority := some ((protocolIdtoPriority r.protocolId).getD kUnknownProtAdminDistance) }

/-- A default priority does not change the destination. -/
@[simp] theorem Route.withDefaultPriority_dst (r : Route) : r.withDefaultPriority.dst = r.dst := by
  rw [withDefaultPriority]
  split <;> rfl

/-- Nor the protocol. -/
@[simp] theorem Route.withDefaultPriority_protocolId (r : Route) :
    r.withDefaultPriority.protocolId = r.protocolId := by
  rw [withDefaultPriority]
  split <;> rfl

/-- Nor the scope. -/
@[simp] theorem Route.withDefaultPriority_scope (r : Route) :
    r.withDefaultPriority.scope = r.scope := by
  rw [withDefaultPriority]
  split <;> rfl

/-- `NlUnicastRoutes`. -/
abbrev NlUnicastRoutes := AList fun _ : CIDRNetwork => Route

/-- `NlMplsRoutes`. The labels are `int32_t`s, given by their bits. -/
abbrev NlMplsRoutes := AList fun _ : UInt32 => Route

/-- `NlLinkRoutes` and `NlMulticastRoutes`, with the name of the interface in the key. -/
abbrev NlLinkRoutes := AList fun _ : CIDRNetwork × String => Route

end Fbmeshd
