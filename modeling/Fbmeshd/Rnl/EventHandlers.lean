import Fbmeshd.Lib.Latest
import Fbmeshd.Rnl.EventParser
import Fbmeshd.Rnl.NetlinkSocket

/-!
# Handling events of the kernel

`NetlinkSocket` keeps the interfaces by their names, and the reachable neighbors by the name of
the interface and the address. A listener is told of the neighbors that come and go. The handlers
run one after another, in the event loop, here without a handler of the user.
-/

namespace Fbmeshd

def IFF_LOOPBACK : UInt32 := 0x8

def IFF_RUNNING : UInt32 := 0x40

/-- `Link::isUp`. -/
def Link.isUp (link : Link) : Bool := link.flags &&& IFF_RUNNING ≠ 0

/-- `Link::isLoopback`. -/
def Link.isLoopback (link : Link) : Bool := link.flags &&& IFF_LOOPBACK ≠ 0

/-- `LinkAttribute`. -/
structure LinkAttribute where
  isUp : Bool := false
  ifIndex : UInt32 := 0
  networks : Finset CIDRNetwork := ∅
  deriving DecidableEq

/-- `NeighborUpdate`. -/
structure NeighborUpdate where
  added : List String := []
  removed : List String := []
  deriving DecidableEq

/-- The caches of the interfaces and the neighbors, and what the listener was told. -/
structure EventCaches where
  links : AList fun _ : List UInt8 => LinkAttribute := ∅
  loopbackIfIndex : Option UInt32 := none
  neighbors : AList fun _ : List UInt8 × IPAddress => Neighbor := ∅
  updates : List NeighborUpdate := []

namespace EventCaches

section Handlers

-- The order in which an `unordered_map` of links is visited, and `IPAddress::str`.
variable (order : IterationOrder (Σ _ : List UInt8, LinkAttribute)) (str : IPAddress → String)

/-- `getIfName`. -/
def getIfName (ifIndex : UInt32) (s : EventCaches) : List UInt8 :=
  (order.visit s.links.entries).foldl
    (fun ifName link => if link.2.ifIndex = ifIndex then link.1 else ifName) []

/-- `getIfIndex`. -/
def getIfIndex (ifName : List UInt8) (s : EventCaches) : ℤ :=
  match s.links.lookup ifName with
  | some linkAttr => linkAttr.ifIndex.toBitVec.toInt
  | none => -1

/-- `removeNeighborCacheEntries`. -/
def removeNeighborCacheEntries (ifName : List UInt8) (s : EventCaches) : EventCaches :=
  { s with neighbors := s.neighbors.filterEntries fun k _ => k.1 ≠ ifName }

/-- `links_[ifName]`, which inserts a new entry for an unknown name. -/
def linkAttr (ifName : List UInt8) (s : EventCaches) : LinkAttribute :=
  (s.links.lookup ifName).getD {}

/-- `doHandleLinkEvent`. -/
def doHandleLinkEvent (link : Link) (s : EventCaches) : EventCaches :=
  let linkAttr := { s.linkAttr link.linkName with isUp := link.isUp, ifIndex := link.ifIndex }
  let s := { s with links := s.links.insert link.linkName linkAttr }
  let s := if link.isLoopback then { s with loopbackIfIndex := some link.ifIndex } else s
  if link.isUp then s else s.removeNeighborCacheEntries link.linkName

/-- `doHandleAddrEvent`, for an address that `processMessage` found in the message. -/
def doHandleAddrEvent (ifAddr : IfAddress) (network : CIDRNetwork) (s : EventCaches) :
    EventCaches :=
  let ifName := s.getIfName order ifAddr.ifIndex
  if ifAddr.isValid then
    let linkAttr := s.linkAttr ifName
    let linkAttr := { linkAttr with networks := insert network linkAttr.networks }
    { s with links := s.links.insert ifName linkAttr }
  else
    match s.links.lookup ifName with
    | some linkAttr =>
      let linkAttr := { linkAttr with networks := linkAttr.networks.erase network }
      { s with links := s.links.insert ifName linkAttr }
    | none => s

/-- `doHandleNeighborEvent`, with a listener. -/
def doHandleNeighborEvent (neighbor : Neighbor) (s : EventCaches) : EventCaches :=
  let key := (s.getIfName order neighbor.ifIndex, neighbor.destination)
  let s := { s with neighbors := s.neighbors.erase key }
  if neighbor.isReachable then
    { s with
      neighbors := s.neighbors.insert key neighbor
      updates := s.updates ++ [{ added := [str neighbor.destination] }] }
  else { s with updates := s.updates ++ [{ removed := [str neighbor.destination] }] }

/-- What comes of a message that answers no request. -/
def handle (s : EventCaches) : NlMessage → EventCaches
  | .link _ link => s.doHandleLinkEvent link
  | .addr _ ifAddr =>
    match ifAddr.addrPrefix with
    | some network => s.doHandleAddrEvent order ifAddr network
    | none => s
  | .neighbor _ neighbor => s.doHandleNeighborEvent order str neighbor
  | _ => s

end Handlers

variable {order : IterationOrder (Σ _ : List UInt8, LinkAttribute)} {str : IPAddress → String}
  {s : EventCaches} {link : Link} {ifName : List UInt8} {ifIndex : UInt32}

/-- The caches after a link event, one by one. -/
theorem doHandleLinkEvent_eq :
    s.doHandleLinkEvent link =
      { links := s.links.insert link.linkName
          { s.linkAttr link.linkName with isUp := link.isUp, ifIndex := link.ifIndex }
        loopbackIfIndex := if link.isLoopback then some link.ifIndex else s.loopbackIfIndex
        neighbors := if link.isUp then s.neighbors
          else s.neighbors.filterEntries fun k _ => k.1 ≠ link.linkName
        updates := s.updates } := by
  unfold doHandleLinkEvent removeNeighborCacheEntries
  dsimp only
  split_ifs <;> rfl

/-- The interfaces after a link event. -/
theorem lookup_doHandleLinkEvent :
    ((s.doHandleLinkEvent link).links.lookup ifName).map (·.ifIndex) =
      if link.linkName = ifName then some link.ifIndex
      else (s.links.lookup ifName).map (·.ifIndex) := by
  rw [doHandleLinkEvent_eq]
  by_cases h : link.linkName = ifName
  · subst h
    rw [AList.lookup_insert, if_pos rfl]
    rfl
  · rw [AList.lookup_insert_ne (Ne.symm h), if_neg h]

/-- The name found for an index is that of an interface with the index, if there is any. -/
theorem getIfName_cases (order : IterationOrder (Σ _ : List UInt8, LinkAttribute))
    (ifIndex : UInt32) (s : EventCaches) :
    (∃ attr, s.links.lookup (s.getIfName order ifIndex) = some attr ∧ attr.ifIndex = ifIndex) ∨
      (s.getIfName order ifIndex = [] ∧
        ∀ ifName attr, s.links.lookup ifName = some attr → attr.ifIndex ≠ ifIndex) := by
  have hname : s.getIfName order ifIndex = ((Latest.latest (fun link => link.2.ifIndex) ifIndex
      (order.visit s.links.entries)).map (·.1)).getD [] := Latest.foldl_keep _ _
  have hvisited : ∀ link, link ∈ order.visit s.links.entries ↔ link ∈ s.links.entries :=
    fun link => (order.perm s.links.entries).mem_iff
  cases hfound : Latest.latest (fun link => link.2.ifIndex) ifIndex
      (order.visit s.links.entries) with
  | some link =>
    left
    rw [hname, hfound]
    have hmem : link ∈ s.links.entries := (hvisited link).mp (Latest.mem_of_latest hfound)
    have hindex := Latest.key_of_latest hfound
    exact ⟨link.2, AList.mem_lookup_iff.mpr hmem, hindex⟩
  | none =>
    right
    refine ⟨by rw [hname, hfound]; rfl, fun ifName attr hattr => ?_⟩
    have hmem : ⟨ifName, attr⟩ ∈ s.links.entries := AList.mem_lookup_iff.mp hattr
    have hother := Latest.latest_eq_none hfound ((hvisited _).mpr hmem)
    exact hother

end EventCaches

end Fbmeshd
