import Fbmeshd.Rnl.EventHandlers
import Mathlib.Data.Set.Insert

/-!
# What the neighbor listener knows

A listener that replays the updates has a set of addresses. It agrees with the cache of the
neighbors after every event of a run exactly if each event is harmless: a neighbor that is no
longer reachable is not cached on another interface, and an interface that goes down takes no
address with it that is not cached on another one.
-/

namespace Fbmeshd

namespace EventCaches

/-- The set of addresses after an update. -/
def replay (known : Set String) (update : NeighborUpdate) : Set String :=
  (known ∪ {a | a ∈ update.added}) \ {a | a ∈ update.removed}

/-- The addresses the listener knows. -/
def listenerKnows (s : EventCaches) : Set String := s.updates.foldl replay ∅

/-- The addresses that are cached on some interface. -/
def cachedAddresses (str : IPAddress → String) (s : EventCaches) : Set String :=
  {a | ∃ k n, s.neighbors.lookup k = some n ∧ str k.2 = a}

/-- An event of a neighbor or of the state of a link, on an interface. -/
inductive NeighborhoodEvent where
  | neighbor (n : Neighbor)
  | link (ifIndex flags : UInt32)

section Interfaces

-- The interfaces that exist, and their names.
variable (names : UInt32 → List UInt8) (known : UInt32 → Prop)

/-- The message about the event. -/
def NeighborhoodEvent.message : NeighborhoodEvent → NlMessage
  | .neighbor n => .neighbor 0 n
  | .link ifIndex flags => .link 0 ⟨names ifIndex, ifIndex, flags⟩

/-- The interface of the event. -/
def NeighborhoodEvent.ifIndex : NeighborhoodEvent → UInt32
  | .neighbor n => n.ifIndex
  | .link ifIndex _ => ifIndex

/-- The directory has the interfaces with their names, and no others. -/
structure KnowsInterfaces (s : EventCaches) : Prop where
  entry : ∀ i, known i → (s.links.lookup (names i)).map (·.ifIndex) = some i
  only : ∀ ifName i, (s.links.lookup ifName).map (·.ifIndex) = some i → ifName = names i

/-- The event keeps the listener up to date. -/
def Harmless (str : IPAddress → String) (s : EventCaches) : NeighborhoodEvent → Prop
  | .neighbor n => n.isReachable = false → ∀ k m, s.neighbors.lookup k = some m →
      str k.2 = str n.destination → k = (names n.ifIndex, n.destination)
  | .link ifIndex flags => flags &&& IFF_RUNNING = 0 → ∀ k m, s.neighbors.lookup k = some m →
      k.1 = names ifIndex → ∃ k' m', s.neighbors.lookup k' = some m' ∧ str k'.2 = str k.2 ∧
        k'.1 ≠ names ifIndex

variable (order : IterationOrder (Σ _ : List UInt8, LinkAttribute)) (str : IPAddress → String)

/-- The caches after an event. -/
def afterEvent (s : EventCaches) (e : NeighborhoodEvent) : EventCaches :=
  s.handle order str (e.message names)

/-- The caches after a run. -/
def afterEvents (es : List NeighborhoodEvent) (s : EventCaches) : EventCaches :=
  es.foldl (afterEvent names order str) s

end Interfaces

variable {names : UInt32 → List UInt8} {known : UInt32 → Prop}
  {order : IterationOrder (Σ _ : List UInt8, LinkAttribute)} {str : IPAddress → String}
  {s : EventCaches} {e : NeighborhoodEvent} {es : List NeighborhoodEvent} {n : Neighbor}

namespace KnowsInterfaces

private theorem getIfName_eq (h : KnowsInterfaces names known s) {i : UInt32} (hi : known i) :
    s.getIfName order i = names i := by
  obtain ⟨attr, hattr, hindex⟩ | ⟨-, hother⟩ := getIfName_cases order i s
  · exact h.only _ _ (by rw [hattr, Option.map_some, hindex])
  · obtain ⟨attr, hattr, hindex⟩ := Option.map_eq_some_iff.mp (h.entry i hi)
    exact absurd hindex (hother _ _ hattr)

/-- No event on an interface that is known changes the directory. -/
theorem step (h : KnowsInterfaces names known s) (he : known e.ifIndex) :
    KnowsInterfaces names known (s.afterEvent names order str e) := by
  cases e with
  | neighbor n =>
    have hlinks : (s.afterEvent names order str (.neighbor n)).links = s.links := by
      simp only [afterEvent, NeighborhoodEvent.message, handle, doHandleNeighborEvent]
      split <;> rfl
    exact ⟨by rw [hlinks]; exact h.entry, by rw [hlinks]; exact h.only⟩
  | link i flags =>
    have hlookup (ifName : List UInt8) :
        ((s.afterEvent names order str (.link i flags)).links.lookup ifName).map (·.ifIndex) =
          if names i = ifName then some i else (s.links.lookup ifName).map (·.ifIndex) :=
      lookup_doHandleLinkEvent
    refine ⟨fun j hj => ?_, fun ifName j hj => ?_⟩
    · rw [hlookup]
      split
      next heq =>
        rw [← h.entry i he, heq]
        exact h.entry j hj
      next => exact h.entry j hj
    · rw [hlookup] at hj
      split at hj
      next heq => rw [← heq, Option.some.inj hj]
      next => exact h.only ifName j hj

/-- The names stay known. -/
theorem run (h : KnowsInterfaces names known s) (hes : ∀ e ∈ es, known e.ifIndex) :
    KnowsInterfaces names known (s.afterEvents names order str es) := by
  induction es generalizing s with
  | nil => exact h
  | cons e es ih =>
    obtain ⟨he, hrest⟩ := List.forall_mem_cons.mp hes
    exact ih (h.step he) hrest

end KnowsInterfaces

/-- The neighbors after an event of a neighbor. -/
theorem lookup_afterEvent_neighbor (hknows : KnowsInterfaces names known s)
    (hn : known n.ifIndex) (k : List UInt8 × IPAddress) :
    (s.afterEvent names order str (.neighbor n)).neighbors.lookup k =
      if k = (names n.ifIndex, n.destination) then
        if n.isReachable then some n else none
      else s.neighbors.lookup k := by
  have hname : s.getIfName order n.ifIndex = names n.ifIndex := hknows.getIfName_eq hn
  simp only [afterEvent, NeighborhoodEvent.message, handle, doHandleNeighborEvent, hname]
  by_cases hk : k = (names n.ifIndex, n.destination)
  · subst hk
    split <;> simp
  · rw [if_neg hk]
    split
    next => rw [AList.lookup_insert_ne hk, AList.lookup_erase_ne hk]
    next => rw [AList.lookup_erase_ne hk]

/-- The neighbors after an event of a link. -/
theorem lookup_afterEvent_link (i flags : UInt32) (k : List UInt8 × IPAddress) :
    (s.afterEvent names order str (.link i flags)).neighbors.lookup k =
      if flags &&& IFF_RUNNING = 0 ∧ k.1 = names i then none else s.neighbors.lookup k := by
  have hneighbors : (s.afterEvent names order str (.link i flags)).neighbors =
      if flags &&& IFF_RUNNING = 0 then s.neighbors.filterEntries fun k _ => k.1 ≠ names i
      else s.neighbors := by
    simp only [afterEvent, NeighborhoodEvent.message, handle, doHandleLinkEvent_eq, Link.isUp,
      decide_eq_true_eq, ne_eq, ite_not]
  rw [hneighbors]
  by_cases hdown : flags &&& IFF_RUNNING = 0
  · rw [if_pos hdown]
    refine Option.ext fun m => ?_
    rw [← Option.mem_def, AList.mem_lookup_filterEntries]
    by_cases hk : k.1 = names i
    · simp [hdown, hk]
    · simp [hk]
  · simp [hdown]

private theorem listenerKnows_afterEvent_neighbor :
    (s.afterEvent names order str (.neighbor n)).listenerKnows =
      if n.isReachable then insert (str n.destination) s.listenerKnows
      else s.listenerKnows \ {str n.destination} := by
  simp only [listenerKnows, afterEvent, NeighborhoodEvent.message, handle, doHandleNeighborEvent]
  ext a
  split <;> simp [replay, List.foldl_append, or_comm]

private theorem listenerKnows_afterEvent_link (i flags : UInt32) :
    (s.afterEvent names order str (.link i flags)).listenerKnows = s.listenerKnows := by
  simp only [listenerKnows, afterEvent, NeighborhoodEvent.message, handle, doHandleLinkEvent_eq]

/-- The cached addresses after an event. -/
theorem mem_cachedAddresses_afterEvent_neighbor (hknows : KnowsInterfaces names known s)
    (hn : known n.ifIndex) {a : String} :
    a ∈ (s.afterEvent names order str (.neighbor n)).cachedAddresses str ↔
      (n.isReachable = true ∧ str n.destination = a) ∨
        ∃ k m, s.neighbors.lookup k = some m ∧ str k.2 = a ∧
          k ≠ (names n.ifIndex, n.destination) := by
  have hlookup : ∀ k, (s.afterEvent names order str (.neighbor n)).neighbors.lookup k = _ :=
    lookup_afterEvent_neighbor hknows hn
  simp only [cachedAddresses, Set.mem_ofPred_eq, hlookup]
  constructor
  · rintro ⟨k, m, hk, ha⟩
    split at hk
    next hkey =>
      subst hkey
      split at hk
      next hreach => exact .inl ⟨hreach, ha⟩
      next => cases hk
    next hkey => exact .inr ⟨k, m, hk, ha, hkey⟩
  · rintro (⟨hreach, ha⟩ | ⟨k, m, hk, ha, hkey⟩)
    · exact ⟨_, n, by rw [if_pos rfl, if_pos hreach], ha⟩
    · exact ⟨k, m, by rw [if_neg hkey, hk], ha⟩

/-- An event leaves the listener and the cache in agreement exactly if it is harmless. -/
theorem agree_afterEvent_iff (hknows : KnowsInterfaces names known s) (he : known e.ifIndex)
    (hagree : s.listenerKnows = s.cachedAddresses str) :
    (s.afterEvent names order str e).listenerKnows =
        (s.afterEvent names order str e).cachedAddresses str ↔ Harmless names str s e := by
  rw [Set.ext_iff]
  cases e with
  | neighbor n =>
    simp only [listenerKnows_afterEvent_neighbor, hagree,
      mem_cachedAddresses_afterEvent_neighbor hknows he, Harmless]
    cases hreach : n.isReachable with
    | true =>
      -- A new neighbor is told, and the address of one that was known stays.
      refine iff_of_true (fun a => ?_) (by simp)
      rw [if_pos rfl, Set.mem_insert_iff, and_iff_right rfl, eq_comm (a := a)]
      refine or_congr_right' fun hne => exists₂_congr fun k m => ?_
      refine and_congr_right fun _ => (and_iff_left_of_imp fun ha => ?_).symm
      rintro rfl
      exact hne ha
    | false =>
      simp only [Bool.false_eq_true, if_false, false_and, false_or, forall_const, Set.mem_sdiff,
        Set.mem_singleton_iff]
      constructor
      · intro hsame k m hk hstr
        by_contra hkey
        exact ((hsame _).mpr ⟨k, m, hk, hstr, hkey⟩).2 rfl
      · intro hharmless a
        constructor
        · rintro ⟨⟨k, m, hk, ha⟩, hne⟩
          refine ⟨k, m, hk, ha, ?_⟩
          rintro rfl
          exact hne ha.symm
        · rintro ⟨k, m, hk, ha, hkey⟩
          exact ⟨⟨k, m, hk, ha⟩, fun hstr => hkey (hharmless k m hk (ha.trans hstr))⟩
  | link i flags =>
    simp only [listenerKnows_afterEvent_link, hagree, cachedAddresses, Set.mem_ofPred_eq,
      lookup_afterEvent_link, Harmless, Option.ite_none_left_eq_some, not_and]
    constructor
    · intro hsame hdown k m hk hname
      obtain ⟨k', m', ⟨hother, hk'⟩, hstr⟩ := (hsame (str k.2)).mp ⟨k, m, hk, rfl⟩
      exact ⟨k', m', hk', hstr, hother hdown⟩
    · intro hharmless a
      constructor
      · rintro ⟨k, m, hk, rfl⟩
        by_cases hgone : flags &&& IFF_RUNNING = 0 ∧ k.1 = names i
        · obtain ⟨k', m', hk', hstr, hother⟩ := hharmless hgone.1 k m hk hgone.2
          exact ⟨k', m', ⟨fun _ => hother, hk'⟩, hstr⟩
        · exact ⟨k, m, ⟨fun hdown hname => hgone ⟨hdown, hname⟩, hk⟩, rfl⟩
      · rintro ⟨k, m, ⟨-, hk⟩, ha⟩
        exact ⟨k, m, hk, ha⟩

/-- Two interfaces, with the names w and v. -/
def twoNames (i : UInt32) : List UInt8 := if i = 2 then [119] else [118]

/-- The caches with both of them up and no neighbor. -/
def twoLinks : EventCaches :=
  { links := AList.insert [119] { isUp := true, ifIndex := 2 }
      (AList.insert [118] { isUp := true, ifIndex := 3 } ∅) }

private theorem knowsInterfaces_twoLinks :
    KnowsInterfaces twoNames (fun i => i = 2 ∨ i = 3) twoLinks := by
  refine ⟨?_, fun ifName i hi => ?_⟩
  · rintro i (rfl | rfl) <;> decide
  · by_cases hw : ifName = [119]
    · subst hw
      obtain rfl : 2 = i := Option.some.inj hi
      rfl
    · by_cases hv : ifName = [118]
      · subst hv
        obtain rfl : 3 = i := Option.some.inj hi
        rfl
      · rw [twoLinks, AList.lookup_insert_ne hw, AList.lookup_insert_ne hv] at hi
        cases hi

/-- A neighbor on an interface. -/
def sampleNeighbor (ifIndex : UInt32) (isReachable : Bool) : Neighbor :=
  { ifIndex, isReachable, destination := .v4 ⟨[10, 0, 0, 9], rfl⟩ }

/-- The text of its address. -/
def sampleStr (_ : IPAddress) : String := "10.0.0.9"

/-- The caches after a run with these interfaces. -/
def afterSample (es : List NeighborhoodEvent) : EventCaches :=
  twoLinks.afterEvents twoNames (.given _) sampleStr es

/-- An interface goes down with its neighbor. -/
def interfaceDown : EventCaches := afterSample [.neighbor (sampleNeighbor 2 true), .link 2 0]

/-- A neighbor on two interfaces goes away on one of them. -/
def oneOfTwo : EventCaches :=
  afterSample [.neighbor (sampleNeighbor 2 true), .neighbor (sampleNeighbor 3 true),
    .neighbor (sampleNeighbor 2 false)]

end EventCaches

end Fbmeshd
