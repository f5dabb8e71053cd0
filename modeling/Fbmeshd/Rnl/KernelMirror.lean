import Fbmeshd.Lib.Replica
import Fbmeshd.Rnl.EventHandlers

/-!
# The caches and the kernel

The kernel announces every change of an interface, an address or a neighbor, and the callbacks post
the announcements to the event loop. There `getAllLinks` and `getAllReachableNeighbors` ask for
dumps and wait for the answers, while the kernel goes on, and handle them before what was posted in
the meantime. The caches nevertheless follow the kernel, except for what changed while the
constructor had no callbacks yet.

Interfaces may appear at any time. They are not deleted or renamed here, since the caches keep the
old name, and the neighbors of an interface that is not running are not reachable.
-/

namespace Fbmeshd

namespace KernelMirror

/-- What the caches are about: interfaces, their addresses and their neighbors. -/
inductive Key where
  | link (ifIndex : UInt32)
  | network (ifIndex : UInt32) (network : CIDRNetwork)
  | neighbor (ifIndex : UInt32) (destination : IPAddress)
  deriving DecidableEq

/-- What is known of an interface, an address or a neighbor that is there. -/
inductive Item where
  | link (isUp : Bool)
  | network
  | neighbor (neighbor : Neighbor)
  deriving DecidableEq

/-- The interface. -/
def Key.base : Key → Key
  | .link i | .network i _ | .neighbor i _ => .link i

/-- What a message says about a key. An interface that goes down takes its neighbors with it. -/
def writes : NlMessage → Key → Option (Option Item)
  | .link _ link, .link i => if link.ifIndex = i then some (some (.link link.isUp)) else none
  | .link _ link, .neighbor i _ =>
    if link.ifIndex = i ∧ link.isUp = false then some none else none
  | .addr _ addr, .network i p =>
    if addr.ifIndex = i ∧ addr.addrPrefix = some p then
      some (if addr.isValid then some .network else none)
    else none
  | .neighbor _ n, .neighbor i ip =>
    if n.ifIndex = i ∧ n.destination = ip then
      some (if n.isReachable then some (.neighbor n) else none)
    else none
  | _, _ => none

/-- The names of the interfaces. -/
structure Names where
  name : UInt32 → List UInt8
  injective : Function.Injective name
  ne_nil : ∀ i, name i ≠ []

section Caches

variable (names : Names) (order : IterationOrder (Σ _ : List UInt8, LinkAttribute))
  (str : IPAddress → String)

/-- What the caches have under a key. -/
def view (s : EventCaches) : Key → Option Item
  | .link i => (s.links.lookup (names.name i)).map fun attr => .link attr.isUp
  | .network i p => if p ∈ (s.linkAttr (names.name i)).networks then some .network else none
  | .neighbor i ip => (s.neighbors.lookup (names.name i, ip)).map .neighbor

/-- The message carries an index, and the name of the interface. -/
def Proper : NlMessage → Prop
  | .link _ link => link.ifIndex ≠ 0 ∧ link.linkName = names.name link.ifIndex
  | .addr _ addr => addr.ifIndex ≠ 0
  | .neighbor _ n => n.ifIndex ≠ 0
  | _ => True

/-- Interfaces have their names, and neighbors are on interfaces that are known. Addresses and
neighbors of an unknown interface are kept under the empty name. -/
structure Good (s : EventCaches) : Prop where
  named : ∀ ifName attr, s.links.lookup ifName = some attr → attr.ifIndex ≠ 0 →
    ifName = names.name attr.ifIndex
  indexed : ∀ i attr, s.links.lookup (names.name i) = some attr → attr.ifIndex = i ∧ i ≠ 0
  on_known : ∀ i ip, s.links.lookup (names.name i) = none →
    s.neighbors.lookup (names.name i, ip) = none

end Caches

variable {names : Names} {order : IterationOrder (Σ _ : List UInt8, LinkAttribute)}
  {str : IPAddress → String} {s : EventCaches} {m : NlMessage} {k : Key} {i : UInt32}

private theorem base_eq_link (k : Key) : ∃ i, k.base = .link i := by
  cases k <;> exact ⟨_, rfl⟩

/-- A message is about one interface. -/
theorem base_eq_of_writes {k' : Key} (hk : writes m k ≠ none) (hk' : writes m k' ≠ none) :
    k.base = k'.base := by
  cases m <;> cases k <;> cases k' <;> simp_all [writes, Key.base]

private theorem writes_base_ne (m : NlMessage) (k : Key) : writes m k.base ≠ some none := by
  obtain ⟨i, hi⟩ := base_eq_link k
  rw [hi]
  cases m <;> simp [writes]

section Names

private theorem getIfName_of_known (hs : Good names s) {attr : LinkAttribute}
    (h : s.links.lookup (names.name i) = some attr) : s.getIfName order i = names.name i := by
  obtain ⟨hindex, hi⟩ := hs.indexed i attr h
  obtain ⟨attr', hattr', rfl⟩ | ⟨-, hother⟩ := EventCaches.getIfName_cases order i s
  · exact hs.named _ _ hattr' hi
  · exact absurd hindex (hother _ _ h)

private theorem getIfName_of_unknown (hs : Good names s) (hi : i ≠ 0)
    (h : s.links.lookup (names.name i) = none) : s.getIfName order i = [] := by
  obtain ⟨attr, hattr, rfl⟩ | ⟨hname, -⟩ := EventCaches.getIfName_cases order i s
  · rw [hs.named _ _ hattr hi, h] at hattr
    cases hattr
  · exact hname

/-- The name that is found for an index is in the directory or empty. -/
theorem getIfName_ne {j : UInt32}
    (h : s.links.lookup (names.name j) = none) : s.getIfName order i ≠ names.name j := by
  intro heq
  obtain ⟨attr, hattr, -⟩ | ⟨hname, -⟩ := EventCaches.getIfName_cases order i s
  · rw [heq, h] at hattr
    cases hattr
  · exact names.ne_nil j (heq ▸ hname)

end Names

private theorem view_network_congr {t : EventCaches} {p : CIDRNetwork}
    (h : (s.linkAttr (names.name i)).networks = (t.linkAttr (names.name i)).networks) :
    view names s (.network i p) = view names t (.network i p) := by
  simp only [view, h]

section Link

variable {seq : UInt32} {link : Link}

private theorem handle_link : s.handle order str (.link seq link) = s.doHandleLinkEvent link := rfl

private theorem view_handle_link (hm : Proper names (.link seq link)) :
    view names (s.handle order str (.link seq link)) k =
      (writes (.link seq link) k).getD (view names s k) := by
  obtain ⟨-, hname⟩ := hm
  rw [handle_link, EventCaches.doHandleLinkEvent_eq, hname]
  cases k with
  | link i =>
    by_cases hi : link.ifIndex = i
    · subst hi
      simp [view, writes]
    · simp [view, writes, hi, AList.lookup_insert_ne (names.injective.ne (Ne.symm hi))]
  | network i p =>
    refine view_network_congr ?_
    by_cases hi : link.ifIndex = i
    · subst hi
      simp [EventCaches.linkAttr]
    · simp [EventCaches.linkAttr, AList.lookup_insert_ne (names.injective.ne (Ne.symm hi))]
  | neighbor i ip =>
    cases hup : link.isUp with
    | true => simp [view, writes, hup]
    | false =>
      have hlookup : (s.neighbors.filterEntries fun k _ => k.1 ≠ names.name link.ifIndex).lookup
          (names.name i, ip) =
            if link.ifIndex = i then none else s.neighbors.lookup (names.name i, ip) := by
        refine Option.ext fun n => ?_
        rw [← Option.mem_def, AList.mem_lookup_filterEntries]
        by_cases hi : link.ifIndex = i
        · simp [hi]
        · simp [hi, names.injective.ne (Ne.symm hi)]
      simp only [view, writes, hup, Bool.false_eq_true, if_false, hlookup, and_true]
      split <;> rfl

private theorem good_handle_link (hs : Good names s) (hm : Proper names (.link seq link)) :
    Good names (s.handle order str (.link seq link)) := by
  obtain ⟨hindex, hname⟩ := hm
  rw [handle_link, EventCaches.doHandleLinkEvent_eq, hname]
  refine ⟨fun ifName attr hattr hne => ?_, fun i attr hattr => ?_, fun i ip hunknown => ?_⟩
  · by_cases heq : ifName = names.name link.ifIndex
    · subst heq
      rw [AList.lookup_insert] at hattr
      cases hattr
      rfl
    · rw [AList.lookup_insert_ne heq] at hattr
      exact hs.named ifName attr hattr hne
  · by_cases hi : i = link.ifIndex
    · subst hi
      rw [AList.lookup_insert] at hattr
      cases hattr
      exact ⟨rfl, hindex⟩
    · rw [AList.lookup_insert_ne (names.injective.ne hi)] at hattr
      exact hs.indexed i attr hattr
  · have hi : i ≠ link.ifIndex := by
      rintro rfl
      rw [AList.lookup_insert] at hunknown
      cases hunknown
    rw [AList.lookup_insert_ne (names.injective.ne hi)] at hunknown
    have hnone := hs.on_known i ip hunknown
    dsimp only
    split
    · exact hnone
    · refine Option.eq_none_iff_forall_ne_some.mpr fun n hn => ?_
      rw [← Option.mem_def, AList.mem_lookup_filterEntries] at hn
      simp_all

end Link

section Address

variable {seq : UInt32} {addr : IfAddress} {p : CIDRNetwork} {attr : LinkAttribute}
  {ifName : List UInt8}

private theorem handle_addr (hp : addr.addrPrefix = some p) :
    s.handle order str (.addr seq addr) = s.doHandleAddrEvent order addr p := by
  simp only [EventCaches.handle, hp]

private theorem neighbors_doHandleAddrEvent :
    (s.doHandleAddrEvent order addr p).neighbors = s.neighbors := by
  unfold EventCaches.doHandleAddrEvent
  dsimp only
  split
  · rfl
  · split <;> rfl

private theorem lookup_doHandleAddrEvent_ne (h : ifName ≠ s.getIfName order addr.ifIndex) :
    (s.doHandleAddrEvent order addr p).links.lookup ifName = s.links.lookup ifName := by
  unfold EventCaches.doHandleAddrEvent
  dsimp only
  split
  · exact AList.lookup_insert_ne h
  · split
    · exact AList.lookup_insert_ne h
    · rfl

private theorem lookup_doHandleAddrEvent
    (h : s.links.lookup (s.getIfName order addr.ifIndex) = some attr) :
    (s.doHandleAddrEvent order addr p).links.lookup (s.getIfName order addr.ifIndex) =
      some { attr with
        networks := if addr.isValid then insert p attr.networks else attr.networks.erase p } := by
  cases hvalid : addr.isValid with
  | true => simp [EventCaches.doHandleAddrEvent, hvalid, EventCaches.linkAttr, h]
  | false => simp [EventCaches.doHandleAddrEvent, hvalid, h]

/-- A new entry for a name that is not in the directory has no index. -/
theorem ifIndex_of_lookup_doHandleAddrEvent
    (h : (s.doHandleAddrEvent order addr p).links.lookup ifName = some attr) :
    (∃ old, s.links.lookup ifName = some old ∧ old.ifIndex = attr.ifIndex) ∨
      (ifName = s.getIfName order addr.ifIndex ∧ s.links.lookup ifName = none ∧
        attr.ifIndex = 0) := by
  by_cases hname : ifName = s.getIfName order addr.ifIndex
  · subst hname
    cases hold : s.links.lookup (s.getIfName order addr.ifIndex) with
    | some old =>
      rw [lookup_doHandleAddrEvent hold] at h
      cases h
      exact .inl ⟨old, rfl, rfl⟩
    | none =>
      refine .inr ⟨rfl, rfl, ?_⟩
      cases hvalid : addr.isValid with
      | true =>
        simp only [EventCaches.doHandleAddrEvent, hvalid, if_true, AList.lookup_insert,
          EventCaches.linkAttr, hold, Option.getD_none] at h
        cases h
        rfl
      | false => simp [EventCaches.doHandleAddrEvent, hvalid, hold] at h
  · rw [lookup_doHandleAddrEvent_ne hname] at h
    exact .inl ⟨attr, h, rfl⟩

private theorem good_handle_addr (hs : Good names s) (hp : addr.addrPrefix = some p) :
    Good names (s.handle order str (.addr seq addr)) := by
  rw [handle_addr hp]
  refine ⟨fun ifName attr hattr hne => ?_, fun i attr hattr => ?_, fun i ip hunknown => ?_⟩
  · obtain ⟨old, hold, hindex⟩ | ⟨-, -, hzero⟩ := ifIndex_of_lookup_doHandleAddrEvent hattr
    · rw [← hindex] at hne ⊢
      exact hs.named ifName old hold hne
    · exact absurd hzero hne
  · obtain ⟨old, hold, hindex⟩ | ⟨hname, hnone, -⟩ := ifIndex_of_lookup_doHandleAddrEvent hattr
    · rw [← hindex]
      exact hs.indexed i old hold
    · exact absurd hname.symm (getIfName_ne hnone)
  · rw [neighbors_doHandleAddrEvent]
    refine hs.on_known i ip ?_
    by_contra hne
    obtain ⟨attr, hattr⟩ := Option.ne_none_iff_exists'.mp hne
    by_cases hname : names.name i = s.getIfName order addr.ifIndex
    · rw [hname] at hattr hunknown
      rw [lookup_doHandleAddrEvent hattr] at hunknown
      cases hunknown
    · rw [lookup_doHandleAddrEvent_ne hname] at hunknown
      exact hne hunknown

private theorem view_handle_addr (hs : Good names s) (hp : addr.addrPrefix = some p)
    (h : s.links.lookup (names.name addr.ifIndex) = some attr) :
    view names (s.handle order str (.addr seq addr)) k =
      (writes (.addr seq addr) k).getD (view names s k) := by
  have hname : s.getIfName order addr.ifIndex = names.name addr.ifIndex := getIfName_of_known hs h
  have hlookup := lookup_doHandleAddrEvent (p := p) (hname.symm ▸ h)
  rw [hname] at hlookup
  have hother {i : UInt32} (hi : addr.ifIndex ≠ i) :
      (s.doHandleAddrEvent order addr p).links.lookup (names.name i) =
        s.links.lookup (names.name i) :=
    lookup_doHandleAddrEvent_ne (by rw [hname]; exact names.injective.ne hi.symm)
  rw [handle_addr hp]
  cases k with
  | link i =>
    by_cases hi : addr.ifIndex = i
    · subst hi
      simp [view, writes, hlookup, h]
    · simp [view, writes, hother hi]
  | network i q =>
    by_cases hi : addr.ifIndex = i
    · subst hi
      have hnew : ((s.doHandleAddrEvent order addr p).linkAttr (names.name addr.ifIndex)).networks =
          if addr.isValid then insert p attr.networks else attr.networks.erase p := by
        rw [EventCaches.linkAttr, hlookup, Option.getD_some]
      have hold : (s.linkAttr (names.name addr.ifIndex)).networks = attr.networks := by
        rw [EventCaches.linkAttr, h, Option.getD_some]
      by_cases hq : q = p
      · subst hq
        cases hvalid : addr.isValid <;> simp [view, writes, hnew, hp, hvalid]
      · cases hvalid : addr.isValid <;> simp [view, writes, hnew, hold, hp, hvalid, hq, Ne.symm hq]
    · have hsame : view names (s.doHandleAddrEvent order addr p) (.network i q) =
          view names s (.network i q) :=
        view_network_congr (by simp only [EventCaches.linkAttr, hother hi])
      simp [hsame, writes, hi]
  | neighbor i ip => simp [view, writes, neighbors_doHandleAddrEvent]

/-- An address of an unknown interface is lost. -/
theorem view_handle_addr_of_unknown (hs : Good names s) (hp : addr.addrPrefix = some p)
    (hi : addr.ifIndex ≠ 0) (h : s.links.lookup (names.name addr.ifIndex) = none) :
    view names (s.handle order str (.addr seq addr)) = view names s := by
  have hother (i : UInt32) : (s.doHandleAddrEvent order addr p).links.lookup (names.name i) =
      s.links.lookup (names.name i) :=
    lookup_doHandleAddrEvent_ne (by
      rw [getIfName_of_unknown hs hi h]
      exact names.ne_nil i)
  rw [handle_addr hp]
  funext k
  cases k with
  | link i => simp only [view, hother]
  | network i q => exact view_network_congr (by simp only [EventCaches.linkAttr, hother])
  | neighbor i ip => simp only [view, neighbors_doHandleAddrEvent]

end Address

section Neighbor

variable {seq : UInt32} {n : Neighbor}

private theorem links_handle_neighbor : (s.handle order str (.neighbor seq n)).links = s.links := by
  simp only [EventCaches.handle, EventCaches.doHandleNeighborEvent]
  split <;> rfl

private theorem lookup_handle_neighbor (key : List UInt8 × IPAddress) :
    (s.handle order str (.neighbor seq n)).neighbors.lookup key =
      if key = (s.getIfName order n.ifIndex, n.destination) then
        if n.isReachable then some n else none
      else s.neighbors.lookup key := by
  simp only [EventCaches.handle, EventCaches.doHandleNeighborEvent]
  by_cases hkey : key = (s.getIfName order n.ifIndex, n.destination)
  · subst hkey
    split <;> simp
  · rw [if_neg hkey]
    split
    next => rw [AList.lookup_insert_ne hkey, AList.lookup_erase_ne hkey]
    next => rw [AList.lookup_erase_ne hkey]

private theorem good_handle_neighbor (hs : Good names s) :
    Good names (s.handle order str (.neighbor seq n)) := by
  refine ⟨?_, ?_, fun i ip hunknown => ?_⟩
  · rw [links_handle_neighbor]
    exact hs.named
  · rw [links_handle_neighbor]
    exact hs.indexed
  · rw [links_handle_neighbor] at hunknown
    rw [lookup_handle_neighbor, if_neg fun hkey => getIfName_ne hunknown (Prod.mk.inj hkey).1.symm]
    exact hs.on_known i ip hunknown

private theorem view_link_handle_neighbor :
    view names (s.handle order str (.neighbor seq n)) (.link i) = view names s (.link i) := by
  simp only [view, links_handle_neighbor]

private theorem view_network_handle_neighbor {p : CIDRNetwork} :
    view names (s.handle order str (.neighbor seq n)) (.network i p) =
      view names s (.network i p) :=
  view_network_congr (by simp only [EventCaches.linkAttr, links_handle_neighbor])

private theorem view_handle_neighbor (hs : Good names s) {attr : LinkAttribute}
    (h : s.links.lookup (names.name n.ifIndex) = some attr) :
    view names (s.handle order str (.neighbor seq n)) k =
      (writes (.neighbor seq n) k).getD (view names s k) := by
  cases k with
  | link i => exact view_link_handle_neighbor
  | network i p => exact view_network_handle_neighbor
  | neighbor i ip =>
    have hkey : (names.name i, ip) = (s.getIfName order n.ifIndex, n.destination) ↔
        n.ifIndex = i ∧ n.destination = ip := by
      rw [getIfName_of_known hs h, Prod.mk.injEq, names.injective.eq_iff, eq_comm (a := i),
        eq_comm (a := ip)]
    simp only [view, lookup_handle_neighbor, hkey, writes]
    split_ifs <;> rfl

/-- A neighbor on an unknown interface is lost. -/
theorem view_handle_neighbor_of_unknown (hs : Good names s) (hi : n.ifIndex ≠ 0)
    (h : s.links.lookup (names.name n.ifIndex) = none) :
    view names (s.handle order str (.neighbor seq n)) = view names s := by
  funext k
  cases k with
  | link i => exact view_link_handle_neighbor
  | network i p => exact view_network_handle_neighbor
  | neighbor i ip =>
    simp only [view, lookup_handle_neighbor, getIfName_of_unknown hs hi h, Prod.mk.injEq,
      names.ne_nil, false_and, if_false]

end Neighbor

private theorem view_link_eq_none :
    view names s (.link i) = none ↔ s.links.lookup (names.name i) = none := by
  simp [view]

private theorem view_link_ne_none :
    view names s (.link i) ≠ none ↔ ∃ attr, s.links.lookup (names.name i) = some attr := by
  rw [Ne, view_link_eq_none, ← Ne, Option.ne_none_iff_exists']

/-- A message keeps the caches good. -/
theorem good_handle (hs : Good names s) (hm : Proper names m) :
    Good names (s.handle order str m) := by
  cases m with
  | link seq link => exact good_handle_link hs hm
  | addr seq addr =>
    cases hp : addr.addrPrefix with
    | none => simpa only [EventCaches.handle, hp] using hs
    | some p => exact good_handle_addr hs hp
  | neighbor seq n => exact good_handle_neighbor hs
  | route | foreignAck | ack | noop | done | unknown => exact hs

/-- What is under the key of an unknown interface. -/
theorem view_eq_none (hs : Good names s) (h : view names s k.base = none) :
    view names s k = none := by
  cases k with
  | link i => exact h
  | network i p =>
    have hlookup := view_link_eq_none.mp h
    simp [view, EventCaches.linkAttr, hlookup]
  | neighbor i ip => simp [view, hs.on_known i ip (view_link_eq_none.mp h)]

/-- A message sets what it is about, if its interface is known, and nothing else. -/
theorem view_handle (hs : Good names s) (hm : Proper names m)
    (h : ∀ k, writes m k ≠ none → writes m k.base ≠ none ∨ view names s k.base ≠ none) (k : Key) :
    view names (s.handle order str m) k = (writes m k).getD (view names s k) := by
  cases m with
  | link seq link => exact view_handle_link hm
  | addr seq addr =>
    cases hp : addr.addrPrefix with
    | none => cases k <;> simp [EventCaches.handle, writes, hp]
    | some p =>
      have hknown : view names s (.link addr.ifIndex) ≠ none :=
        (h (.network addr.ifIndex p) (by simp [writes, hp])).resolve_left
          (by simp [writes, Key.base])
      obtain ⟨attr, hattr⟩ := view_link_ne_none.mp hknown
      exact view_handle_addr hs hp hattr
  | neighbor seq n =>
    have hknown : view names s (.link n.ifIndex) ≠ none :=
      (h (.neighbor n.ifIndex n.destination) (by simp [writes])).resolve_left
        (by simp [writes, Key.base])
    obtain ⟨attr, hattr⟩ := view_link_ne_none.mp hknown
    exact view_handle_neighbor hs hattr
  | route | foreignAck | ack | noop | done | unknown => cases k <;> rfl

/-- It changes nothing if the interface is not known. -/
theorem view_handle_of_unknown (hs : Good names s) (hm : Proper names m) (hk : writes m k ≠ none)
    (hbase : writes m k.base = none) (h : view names s k.base = none) :
    view names (s.handle order str m) = view names s := by
  cases m with
  | link seq link => cases k <;> simp_all [writes, Key.base]
  | addr seq addr =>
    cases hp : addr.addrPrefix with
    | none => simp only [EventCaches.handle, hp]
    | some p =>
      have hindex : k.base = .link addr.ifIndex := by cases k <;> simp_all [writes, Key.base]
      exact view_handle_addr_of_unknown hs hp hm (view_link_eq_none.mp (hindex ▸ h))
  | neighbor seq n =>
    have hindex : k.base = .link n.ifIndex := by cases k <;> simp_all [writes, Key.base]
    exact view_handle_neighbor_of_unknown hs hm (view_link_eq_none.mp (hindex ▸ h))
  | route | foreignAck | ack | noop | done | unknown => rfl

variable (names order str) in
/-- The caches are a replica of the kernel. -/
def replica : Replica EventCaches NlMessage Key Item where
  writes := writes
  base := Key.base
  handle := EventCaches.handle order str
  view := view names
  Good := Good names
  Proper := Proper names
  base_base k := by cases k <;> rfl
  base_eq := base_eq_of_writes
  writes_base := writes_base_ne _ _
  good_handle := good_handle
  view_eq_none := view_eq_none
  view_handle := view_handle
  view_handle_of_unknown := view_handle_of_unknown

end KernelMirror

end Fbmeshd
