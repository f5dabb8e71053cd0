import Fbmeshd.Rnl.KernelMirror

/-!
# Dumps between announcements

The moves of the kernel and of the event loop. A call that asks for dumps blocks the event loop, so
that nothing that is posted runs until the call returns, while the kernel may change between any two
of its dumps, and between an answer and its use. The constructor makes the first call before it sets
the callbacks, one after another. What the kernel announces before a callback is set is lost.
-/

namespace Fbmeshd

namespace KernelMirror

/-- What a dump lists. -/
inductive Kind where
  | links
  | addresses
  | neighbors
  deriving DecidableEq

def Key.kind : Key → Kind
  | .link _ => .links
  | .network _ _ => .addresses
  | .neighbor _ _ => .neighbors

/-- The answer to a request for a dump. -/
inductive Answer where
  | links (links : List Link)
  | addresses (addresses : List IfAddress)
  | neighbors (neighbors : List Neighbor)

namespace Answer

def kind : Answer → Kind
  | .links _ => .links
  | .addresses _ => .addresses
  | .neighbors _ => .neighbors

/-- The loops of `getAllLinks` and `getAllReachableNeighbors`. Addresses without a prefix are not
in a dump. -/
def handle (order : IterationOrder (Σ _ : List UInt8, LinkAttribute)) (str : IPAddress → String)
    (s : EventCaches) : Answer → EventCaches
  | .links ls => ls.foldl (fun s link => s.doHandleLinkEvent link) s
  | .addresses as =>
    as.foldl
      (fun s addr => addr.addrPrefix.elim s fun network => s.doHandleAddrEvent order addr network) s
  | .neighbors ns => ns.foldl (fun s n => s.doHandleNeighborEvent order str n) s

/-- The answer as announcements. -/
def messages : Answer → List NlMessage
  | .links ls => ls.map (.link 0)
  | .addresses as => as.map (.addr 0)
  | .neighbors ns => ns.map (.neighbor 0)

end Answer

/-- The two calls. -/
inductive Call where
  | getAllLinks
  | getAllReachableNeighbors
  deriving DecidableEq

/-- The dumps of a call, after that of the links. -/
def Call.rest : Call → List Kind
  | .getAllLinks => [.addresses]
  | .getAllReachableNeighbors => [.addresses, .neighbors]

/-- What the event loop does. -/
inductive Phase where
  | idle
  | waits (kind : Kind) (rest : List Kind)
  | answered (answer : Answer) (rest : List Kind)

/-- The next dump of a call, if there is one. -/
def Phase.next : List Kind → Phase
  | [] => .idle
  | kind :: rest => .waits kind rest

/-- The dumps that have not been answered yet. -/
def Phase.pending : Phase → List Kind
  | .idle => []
  | .waits kind rest => kind :: rest
  | .answered _ rest => rest

/-- The kernel, the announcements that are posted, the caches, the callbacks, and the kinds of dumps
that have been handled since all callbacks were set. A new socket is in the call that its
constructor makes. `dumped` lists the kinds of dumps that have ever been answered, and `missed` the
keys that changed after such a dump without an announcement, and have not been announced since. -/
structure System where
  world : Key → Option Item
  posted : List NlMessage := []
  phase : Phase := .waits .links Call.getAllReachableNeighbors.rest
  caches : EventCaches := {}
  linkEventCB : Bool := false
  addrEventCB : Bool := false
  neighborEventCB : Bool := false
  covered : List Kind := []
  dumped : List Kind := []
  missed : Key → Prop := fun _ => False

/-- There is a callback for an announcement. -/
def System.listens (s : System) : NlMessage → Bool
  | .link _ _ => s.linkEventCB
  | .addr _ _ => s.addrEventCB
  | .neighbor _ _ => s.neighborEventCB
  | _ => false

/-- The kernel after a change. -/
def change (m : NlMessage) (w : Key → Option Item) : Key → Option Item :=
  fun k => (writes m k).getD (w k)

/-- What the kernel always has: interfaces for its addresses and neighbors, and neighbors only where
the interface is running. -/
structure Kernel (w : Key → Option Item) : Prop where
  grounded : ∀ k, w k.base = none → w k = none
  running : ∀ i ip, w (.neighbor i ip) ≠ none → w (.link i) = some (.link true)

section Moves

variable (names : Names) (order : IterationOrder (Σ _ : List UInt8, LinkAttribute))
  (str : IPAddress → String)

/-- The changes of the kernel. -/
def Allowed (w : Key → Option Item) : NlMessage → Prop
  | .link seq link => Proper names (.link seq link)
  | .addr seq addr => Proper names (.addr seq addr) ∧ w (.link addr.ifIndex) ≠ none
  | .neighbor seq n => Proper names (.neighbor seq n) ∧ w (.link n.ifIndex) ≠ none ∧
      (n.isReachable → w (.link n.ifIndex) = some (.link true))
  | _ => False

/-- The dump lists what the kernel has. -/
def Describes (w : Key → Option Item) : Answer → Prop
  | .links links =>
    (∀ link ∈ links, Proper names (.link 0 link) ∧
      w (.link link.ifIndex) = some (.link link.isUp)) ∧
    ∀ i, w (.link i) ≠ none → ∃ link ∈ links, link.ifIndex = i
  | .addresses addresses =>
    (∀ addr ∈ addresses, Proper names (.addr 0 addr) ∧ addr.isValid ∧
      ∃ p, addr.addrPrefix = some p ∧ w (.network addr.ifIndex p) = some .network) ∧
    ∀ i p, w (.network i p) ≠ none → ∃ addr ∈ addresses, addr.ifIndex = i ∧
      addr.addrPrefix = some p
  | .neighbors neighbors =>
    (∀ n ∈ neighbors, Proper names (.neighbor 0 n) ∧
      w (.neighbor n.ifIndex n.destination) = if n.isReachable then some (.neighbor n) else none) ∧
    ∀ i ip, w (.neighbor i ip) ≠ none → ∃ n ∈ neighbors, n.ifIndex = i ∧ n.destination = ip

/-- The kernel changes, and the change is announced. The announcement is lost if there is no
callback for it. -/
def System.change (s : System) (m : NlMessage) : System :=
  if s.listens m then
    { s with
      world := KernelMirror.change m s.world
      posted := s.posted ++ [m]
      missed := fun k => s.missed k ∧ writes m k = none }
  else
    { s with
      world := KernelMirror.change m s.world
      missed := fun k => s.missed k ∨ (writes m k ≠ none ∧ k.kind ∈ s.dumped) }

/-- The kinds that are covered once an answer has been handled. -/
def System.coveredBy (s : System) (answer : Answer) : List Kind :=
  if s.neighborEventCB then answer.kind :: s.covered else s.covered

/-- The states of a new socket and a kernel. -/
inductive Reachable : System → Prop
  | start {w : Key → Option Item} (hw : Kernel w) : Reachable { world := w }
  | change {s : System} (h : Reachable s) {m : NlMessage} (hm : Allowed names s.world m) :
      Reachable (s.change m)
  | setLinkEventCB {s : System} (h : Reachable s) (hphase : s.phase = .idle) :
      Reachable { s with linkEventCB := true }
  | setAddrEventCB {s : System} (h : Reachable s) (hlink : s.linkEventCB = true) :
      Reachable { s with addrEventCB := true }
  | setNeighborEventCB {s : System} (h : Reachable s) (hphase : s.phase = .idle)
      (haddr : s.addrEventCB = true) : Reachable { s with neighborEventCB := true }
  | runPosted {s : System} (h : Reachable s) (hphase : s.phase = .idle) {m : NlMessage}
      {posted : List NlMessage} (hposted : s.posted = m :: posted) :
      Reachable { s with
        posted
        caches := s.caches.handle order str m }
  | call {s : System} (h : Reachable s) (hphase : s.phase = .idle)
      (hneighbor : s.neighborEventCB = true) (call : Call) :
      Reachable { s with phase := .waits .links call.rest }
  | answer {s : System} (h : Reachable s) {rest : List Kind} {answer : Answer}
      (hphase : s.phase = .waits answer.kind rest) (hanswer : Describes names s.world answer) :
      Reachable { s with
        phase := .answered answer rest
        dumped := answer.kind :: s.dumped }
  | finish {s : System} (h : Reachable s) {answer : Answer} {rest : List Kind}
      (hphase : s.phase = .answered answer rest) :
      Reachable { s with
        phase := .next rest
        caches := answer.handle order str s.caches
        covered := s.coveredBy answer }

end Moves

variable {names : Names} {order : IterationOrder (Σ _ : List UInt8, LinkAttribute)}
  {str : IPAddress → String} {s : System} {w : Key → Option Item} {m : NlMessage}
  {answer : Answer}

private theorem handle_eq_foldl_messages (answer : Answer) (c : EventCaches) :
    answer.handle order str c = answer.messages.foldl (EventCaches.handle order str) c := by
  cases answer with
  | links links =>
    simp only [Answer.handle, Answer.messages, List.foldl_map]
    rfl
  | addresses addresses =>
    have hstep : (fun (c : EventCaches) (addr : IfAddress) =>
        addr.addrPrefix.elim c fun network => c.doHandleAddrEvent order addr network) =
          fun c addr => c.handle order str (.addr 0 addr) := by
      funext c addr
      cases hp : addr.addrPrefix <;> simp [EventCaches.handle, hp]
    simp only [Answer.handle, Answer.messages, List.foldl_map, hstep]
  | neighbors neighbors =>
    simp only [Answer.handle, Answer.messages, List.foldl_map]
    rfl

private theorem Allowed.proper (hm : Allowed names w m) : Proper names m := by
  cases m with
  | link seq link => exact hm
  | addr seq addr => exact hm.1
  | neighbor seq n => exact hm.1
  | route | foreignAck | ack | noop | done | unknown => exact hm.elim

/-- A change is about an interface that is there, or new. -/
theorem Allowed.base (hm : Allowed names w m) (k : Key) (hk : writes m k ≠ none) :
    writes m k.base ≠ none ∨ w k.base ≠ none := by
  cases m with
  | link seq link => cases k <;> simp_all [writes, Key.base]
  | addr seq addr =>
    have hindex : k.base = .link addr.ifIndex := by cases k <;> simp_all [writes, Key.base]
    exact .inr (hindex ▸ hm.2)
  | neighbor seq n =>
    have hindex : k.base = .link n.ifIndex := by cases k <;> simp_all [writes, Key.base]
    exact .inr (hindex ▸ hm.2.1)
  | route | foreignAck | ack | noop | done | unknown => exact hm.elim

namespace Kernel

/-- A change keeps neighbors on interfaces that are running. -/
theorem running_change (hw : Kernel w) (hm : Allowed names w m) {i : UInt32} {ip : IPAddress}
    (h : KernelMirror.change m w (.neighbor i ip) ≠ none) :
    KernelMirror.change m w (.link i) = some (.link true) := by
  cases m with
  | link seq link =>
    by_cases hi : link.ifIndex = i
    · cases hup : link.isUp with
      | true => simp [KernelMirror.change, writes, hi, hup]
      | false => simp [KernelMirror.change, writes, hi, hup] at h
    · simp only [KernelMirror.change, writes, hi, false_and, if_false, Option.getD_none] at h ⊢
      exact hw.running i ip h
  | addr seq addr => exact hw.running i ip h
  | neighbor seq n =>
    by_cases hkey : n.ifIndex = i ∧ n.destination = ip
    · cases hreach : n.isReachable with
      | true => exact hkey.1 ▸ hm.2.2 hreach
      | false => simp [KernelMirror.change, writes, hkey, hreach] at h
    · simp only [KernelMirror.change, writes, hkey, if_false, Option.getD_none] at h
      exact hw.running i ip h
  | route | foreignAck | ack | noop | done | unknown => exact hm.elim

/-- What a dump of the links says is so. -/
theorem holds_link (hw : Kernel w) {link : Link}
    (h : w (.link link.ifIndex) = some (.link link.isUp)) :
    (replica names order str).Holds w (.link 0 link) := by
  intro k v hv
  cases k with
  | link i =>
    obtain ⟨rfl, rfl⟩ : link.ifIndex = i ∧ some (.link link.isUp) = v := by
      simpa [replica, writes] using hv
    exact h
  | network i p => simp [replica, writes] at hv
  | neighbor i ip =>
    obtain ⟨⟨rfl, hdown⟩, rfl⟩ : (link.ifIndex = i ∧ link.isUp = false) ∧ none = v := by
      simpa [replica, writes] using hv
    by_contra hne
    have hrunning := hw.running _ _ hne
    rw [h, hdown] at hrunning
    cases hrunning

private theorem holds_addr {addr : IfAddress} {p : CIDRNetwork} (hvalid : addr.isValid = true)
    (hp : addr.addrPrefix = some p) (h : w (.network addr.ifIndex p) = some .network) :
    (replica names order str).Holds w (.addr 0 addr) := by
  intro k v hv
  cases k with
  | network i q =>
    obtain ⟨⟨rfl, rfl⟩, rfl⟩ : (addr.ifIndex = i ∧ p = q) ∧ some .network = v := by
      simpa [replica, writes, hp, hvalid] using hv
    exact h
  | link i => simp [replica, writes] at hv
  | neighbor i ip => simp [replica, writes] at hv

private theorem holds_neighbor {n : Neighbor}
    (h : w (.neighbor n.ifIndex n.destination) =
      if n.isReachable then some (.neighbor n) else none) :
    (replica names order str).Holds w (.neighbor 0 n) := by
  intro k v hv
  cases k with
  | neighbor i ip =>
    obtain ⟨⟨rfl, rfl⟩, rfl⟩ : (n.ifIndex = i ∧ n.destination = ip) ∧
        (if n.isReachable then some (Item.neighbor n) else none) = v := by
      simpa [replica, writes] using hv
    exact h
  | link i => simp [replica, writes] at hv
  | network i p => simp [replica, writes] at hv

/-- A dump is a snapshot. -/
theorem snapshot (hw : Kernel w) (hanswer : Describes names w answer) :
    (replica names order str).Snapshot w (fun k => k.kind = answer.kind) answer.messages := by
  cases answer with
  | links links =>
    obtain ⟨hlist, hall⟩ := hanswer
    refine ⟨?_, ?_, ?_⟩
    · exact List.forall_mem_map.mpr fun link hlink => (hlist link hlink).1
    · exact List.forall_mem_map.mpr fun link hlink => hw.holds_link (hlist link hlink).2
    · intro k hk hne
      cases k with
      | link i =>
        obtain ⟨link, hlink, rfl⟩ := hall i hne
        exact ⟨_, List.mem_map_of_mem hlink, by simp [replica, writes]⟩
      | network i p => cases hk
      | neighbor i ip => cases hk
  | addresses addresses =>
    obtain ⟨hlist, hall⟩ := hanswer
    refine ⟨?_, ?_, ?_⟩
    · exact List.forall_mem_map.mpr fun addr haddr => (hlist addr haddr).1
    · refine List.forall_mem_map.mpr fun addr haddr => ?_
      obtain ⟨-, hvalid, p, hp, hnetwork⟩ := hlist addr haddr
      exact holds_addr hvalid hp hnetwork
    · intro k hk hne
      cases k with
      | network i p =>
        obtain ⟨addr, haddr, rfl, hp⟩ := hall i p hne
        exact ⟨_, List.mem_map_of_mem haddr, by simp [replica, writes, hp]⟩
      | link i => cases hk
      | neighbor i ip => cases hk
  | neighbors neighbors =>
    obtain ⟨hlist, hall⟩ := hanswer
    refine ⟨?_, ?_, ?_⟩
    · exact List.forall_mem_map.mpr fun n hn => (hlist n hn).1
    · exact List.forall_mem_map.mpr fun n hn => holds_neighbor (hlist n hn).2
    · intro k hk hne
      cases k with
      | neighbor i ip =>
        obtain ⟨n, hn, rfl, rfl⟩ := hall i ip hne
        exact ⟨_, List.mem_map_of_mem hn, by simp [replica, writes]⟩
      | link i => cases hk
      | network i p => cases hk

end Kernel

/-- A dump of one kind says of a key of another kind nothing, or that it is gone. -/
theorem writes_of_mem_messages {k : Key} (hk : k.kind ≠ answer.kind) (hm : m ∈ answer.messages) :
    writes m k = none ∨ writes m k = some none := by
  cases answer with
  | links links =>
    obtain ⟨link, -, rfl⟩ := List.mem_map.mp hm
    cases k with
    | link i => exact absurd rfl hk
    | network i p => exact .inl rfl
    | neighbor i ip =>
      simp only [writes]
      split
      · exact .inr rfl
      · exact .inl rfl
  | addresses addresses =>
    obtain ⟨addr, -, rfl⟩ := List.mem_map.mp hm
    cases k with
    | network i p => exact absurd rfl hk
    | link i => exact .inl rfl
    | neighbor i ip => exact .inl rfl
  | neighbors neighbors =>
    obtain ⟨n, -, rfl⟩ := List.mem_map.mp hm
    cases k with
    | neighbor i ip => exact absurd rfl hk
    | link i => exact .inl rfl
    | network i p => exact .inl rfl

/-- A dump of one kind brings nothing of another kind into the caches. -/
theorem view_handle_eq_none {c : EventCaches} {k : Key} (hc : Good names c)
    (hanswer : Describes names w answer) (hw : Kernel w) (hk : k.kind ≠ answer.kind)
    (h : view names c k = none) : view names (answer.handle order str c) k = none := by
  have hproper : ∀ m ∈ answer.messages, Proper names m :=
    (hw.snapshot hanswer : (replica names order str).Snapshot w _ _).proper
  rw [handle_eq_foldl_messages]
  suffices hall : ∀ ms : List NlMessage, ms ⊆ answer.messages → ∀ c, Good names c →
      view names c k = none → view names (ms.foldl (EventCaches.handle order str) c) k = none from
    hall _ (List.Subset.refl _) c hc h
  intro ms
  induction ms with
  | nil => exact fun _ _ _ h => h
  | cons m ms ih =>
    intro hsub c hc h
    obtain ⟨hm, hms⟩ := List.cons_subset.mp hsub
    refine ih hms _ (good_handle hc (hproper m hm)) ?_
    obtain hview | ⟨hsame, -⟩ := (replica names order str).view_handle_cases hc (hproper m hm)
    · refine (hview k).trans ?_
      obtain hnone | hgone := writes_of_mem_messages hk hm
      · exact (Replica.apply_of_none hnone).trans h
      · exact Replica.apply_of_some hgone
    · exact (congrFun hsame k).trans h

variable (names order str) in
/-- What holds of every state: the caches follow the kernel, and so do the caches as they will be
when the answer that is there has been handled. Links are dumped before anything else. As long as a
kind has not been dumped, the caches have nothing of it. -/
structure Invariant (s : System) : Prop where
  kernel : Kernel s.world
  history : (replica names order str).History s.world s.posted s.missed
  follows : (replica names order str).Follows s.world s.posted (·.kind ∈ s.covered) s.missed
    s.caches
  ahead : ∀ answer rest, s.phase = .answered answer rest →
    (replica names order str).Follows s.world s.posted (·.kind ∈ s.coveredBy answer) s.missed
      (answer.handle order str s.caches)
  links_covered : s.covered ≠ [] → .links ∈ s.covered
  links_first : ∀ kind rest, s.phase = .waits kind rest → s.neighborEventCB = true →
    kind = .links ∨ .links ∈ s.covered
  links_answered : ∀ answer rest, s.phase = .answered answer rest → s.neighborEventCB = true →
    .links ∈ answer.kind :: s.covered
  addr_set : s.neighborEventCB = true → s.addrEventCB = true
  link_set : s.addrEventCB = true → s.linkEventCB = true
  covered_set : s.neighborEventCB = false → s.covered = []
  posted_set : s.linkEventCB = false → s.posted = []
  dumped : ∀ kind, kind ∈ s.dumped ∨ kind ∈ s.phase.pending
  dumped_set : s.linkEventCB = true → ∀ kind, kind ∈ s.dumped
  undumped : ∀ k, k.kind ∉ s.dumped → view names s.caches k = none
  undumped_ahead : ∀ answer rest, s.phase = .answered answer rest →
    ∀ k, k.kind ∉ s.dumped → view names (answer.handle order str s.caches) k = none

namespace Invariant

private theorem covered_base (h : Invariant names order str s) (k : Key) (hk : k.kind ∈ s.covered) :
    k.base.kind ∈ s.covered := by
  have hlinks := h.links_covered (List.ne_nil_of_mem hk)
  cases k <;> exact hlinks

private theorem start (hw : Kernel w) : Invariant names order str { world := w } := by
  have hgood : Good names {} := ⟨by simp, by simp, by simp⟩
  have hempty (k : Key) : view names {} k = none := by
    cases k <;> simp [view, EventCaches.linkAttr]
  have hfollows : (replica names order str).Follows w [] (·.kind ∈ []) (fun _ => False) {} :=
    Replica.follows_empty hgood hempty (by simp)
  exact {
    kernel := hw
    history := ⟨hw.grounded, by simp, by simp, trivial⟩
    follows := hfollows
    ahead := by simp
    links_covered := by simp
    links_first := by simp
    links_answered := by simp
    addr_set := by simp
    link_set := by simp
    covered_set := fun _ => rfl
    posted_set := fun _ => rfl
    dumped := fun kind => .inr (by cases kind <;> simp [Phase.pending, Call.rest])
    dumped_set := by simp
    undumped := fun k _ => hempty k
    undumped_ahead := by simp }

/-- The change is announced. -/
theorem announced (h : Invariant names order str s) (hm : Allowed names s.world m)
    (hlink : s.linkEventCB = true) :
    Invariant names order str
      { s with
        world := KernelMirror.change m s.world
        posted := s.posted ++ [m]
        missed := fun k => s.missed k ∧ writes m k = none } where
  kernel := ⟨(h.history.change hm.proper hm.base).grounded, fun _ _ => h.kernel.running_change hm⟩
  history := h.history.change hm.proper hm.base
  follows := h.follows.change hm.base
  ahead answer rest hphase := (h.ahead answer rest hphase).change hm.base
  links_covered := h.links_covered
  links_first := h.links_first
  links_answered := h.links_answered
  addr_set := h.addr_set
  link_set := h.link_set
  covered_set := h.covered_set
  posted_set hnot := absurd (hlink.symm.trans hnot) (by decide)
  dumped := h.dumped
  dumped_set := h.dumped_set
  undumped := h.undumped
  undumped_ahead := h.undumped_ahead

/-- The announcement is lost. Nothing has been covered yet, and if the caches have something of the
key, it has been dumped. -/
theorem lost (h : Invariant names order str s) (hm : Allowed names s.world m)
    (hneighbor : s.neighborEventCB = false) :
    Invariant names order str
      { s with
        world := KernelMirror.change m s.world
        missed := fun k => s.missed k ∨ (writes m k ≠ none ∧ k.kind ∈ s.dumped) } := by
  have hcovered := h.covered_set hneighbor
  have hhistory : (replica names order str).History (KernelMirror.change m s.world) s.posted
      fun k => s.missed k ∨ (writes m k ≠ none ∧ k.kind ∈ s.dumped) := by
    refine h.history.miss hm.base (fun _ => .inl) fun k hk => ?_
    cases hlink : s.linkEventCB with
    | true => exact .inl (.inr ⟨hk, h.dumped_set hlink k.kind⟩)
    | false =>
      refine .inr ?_
      rw [h.posted_set hlink]
      simp [Replica.Mentions]
  have hmiss {covered : List Kind} {c : EventCaches} (hc : covered = [])
      (hfollows : (replica names order str).Follows s.world s.posted (·.kind ∈ covered) s.missed c)
      (hview : ∀ k, k.kind ∉ s.dumped → view names c k = none) :
      (replica names order str).Follows (KernelMirror.change m s.world) s.posted (·.kind ∈ covered)
        (fun k => s.missed k ∨ (writes m k ≠ none ∧ k.kind ∈ s.dumped)) c := by
    refine hfollows.miss (by simp [hc]) (fun _ => .inl) fun k hk => ?_
    by_cases hkind : k.kind ∈ s.dumped
    · exact .inl (.inr ⟨hk, hkind⟩)
    · exact .inr (hview k hkind)
  exact {
    kernel := ⟨hhistory.grounded, fun _ _ => h.kernel.running_change hm⟩
    history := hhistory
    follows := hmiss hcovered h.follows h.undumped
    ahead := fun answer rest hphase => by
      refine hmiss ?_ (h.ahead answer rest hphase) (h.undumped_ahead answer rest hphase)
      rw [System.coveredBy, hneighbor, hcovered]
      rfl
    links_covered := h.links_covered
    links_first := h.links_first
    links_answered := h.links_answered
    addr_set := h.addr_set
    link_set := h.link_set
    covered_set := h.covered_set
    posted_set := h.posted_set
    dumped := h.dumped
    dumped_set := h.dumped_set
    undumped := h.undumped
    undumped_ahead := h.undumped_ahead }

/-- The link callback is set first. -/
theorem linkEventCB_of_listens (h : Invariant names order str s) (hm : s.listens m = true) :
    s.linkEventCB = true := by
  cases m with
  | link => exact hm
  | addr => exact h.link_set hm
  | neighbor => exact h.link_set (h.addr_set hm)
  | route | foreignAck | ack | noop | done | unknown => nomatch hm

/-- The neighbor callback is set last. -/
theorem neighborEventCB_of_not_listens (h : Invariant names order str s)
    (hallowed : Allowed names s.world m) (hm : s.listens m = false) :
    s.neighborEventCB = false := by
  cases hneighbor : s.neighborEventCB with
  | false => rfl
  | true =>
    have haddr := h.addr_set hneighbor
    have hlink := h.link_set haddr
    cases m with
    | link => exact absurd (hlink.symm.trans hm) (by decide)
    | addr => exact absurd (haddr.symm.trans hm) (by decide)
    | neighbor => exact absurd (hneighbor.symm.trans hm) (by decide)
    | route | foreignAck | ack | noop | done | unknown => exact hallowed.elim

private theorem change (h : Invariant names order str s) (hm : Allowed names s.world m) :
    Invariant names order str (s.change m) := by
  rw [System.change]
  split
  next hlistens => exact h.announced hm (h.linkEventCB_of_listens hlistens)
  next hlistens =>
    exact h.lost hm (h.neighborEventCB_of_not_listens hm (Bool.eq_false_iff.mpr hlistens))

private theorem setLinkEventCB (h : Invariant names order str s) (hphase : s.phase = .idle) :
    Invariant names order str { s with linkEventCB := true } :=
  { h with
    link_set := fun _ => rfl
    posted_set := fun hnot => absurd hnot (by simp)
    dumped_set := fun _ kind => (h.dumped kind).resolve_right (by simp [hphase, Phase.pending]) }

private theorem setAddrEventCB (h : Invariant names order str s) (hlink : s.linkEventCB = true) :
    Invariant names order str { s with addrEventCB := true } :=
  { h with
    addr_set := fun _ => rfl
    link_set := fun _ => hlink }

private theorem setNeighborEventCB (h : Invariant names order str s) (hphase : s.phase = .idle)
    (haddr : s.addrEventCB = true) :
    Invariant names order str { s with neighborEventCB := true } :=
  { h with
    ahead := by simp [hphase]
    links_first := by simp [hphase]
    links_answered := by simp [hphase]
    addr_set := fun _ => haddr
    covered_set := fun hnot => absurd hnot (by simp) }

private theorem runPosted (h : Invariant names order str s) (hphase : s.phase = .idle)
    {posted : List NlMessage} (hposted : s.posted = m :: posted) :
    Invariant names order str { s with posted, caches := s.caches.handle order str m } :=
  { h with
    history := (hposted ▸ h.history).tail
    follows := (hposted ▸ h.follows).next (hposted ▸ h.history) h.covered_base
    ahead := by simp [hphase]
    posted_set := fun hnot => by simp [h.posted_set hnot] at hposted
    undumped := fun k hk =>
      absurd ((h.dumped k.kind).resolve_right (by simp [hphase, Phase.pending])) hk
    undumped_ahead := by simp [hphase] }

private theorem call (h : Invariant names order str s) (hphase : s.phase = .idle)
    (rest : List Kind) : Invariant names order str { s with phase := .waits .links rest } :=
  { h with
    ahead := by simp
    links_first := by simp
    links_answered := by simp
    dumped := fun kind => .inl ((h.dumped kind).resolve_right (by simp [hphase, Phase.pending]))
    undumped_ahead := by simp }

/-- The answer is a snapshot of the kernel as it is now. -/
theorem follows_answer (h : Invariant names order str s) {rest : List Kind}
    (hphase : s.phase = .waits answer.kind rest) (hanswer : Describes names s.world answer) :
    (replica names order str).Follows s.world s.posted (·.kind ∈ s.coveredBy answer) s.missed
      (answer.handle order str s.caches) := by
  have hsnapshot : (replica names order str).Snapshot s.world (fun k => k.kind = answer.kind)
      answer.messages := h.kernel.snapshot hanswer
  rw [handle_eq_foldl_messages, System.coveredBy]
  split
  next hneighbor =>
    have hbase (k : Key) (hk : k.kind = answer.kind) :
        k.base = k ∨ k.base.kind ∈ s.covered := by
      obtain hlinks | hlinks := h.links_first _ _ hphase hneighbor
      · rw [hlinks] at hk
        cases k <;> simp_all [Key.kind, Key.base]
      · cases k <;> exact .inr hlinks
    have hset : (fun k : Key => k.kind ∈ s.covered ∨ k.kind = answer.kind) =
        (·.kind ∈ answer.kind :: s.covered) := by
      funext k
      simp [or_comm]
    rw [← hset]
    exact h.follows.snapshot h.history hbase hsnapshot
  next => exact h.follows.hear_all hsnapshot.proper hsnapshot.holds

private theorem answered (h : Invariant names order str s) {rest : List Kind}
    (hphase : s.phase = .waits answer.kind rest) (hanswer : Describes names s.world answer) :
    Invariant names order str
      { s with phase := .answered answer rest, dumped := answer.kind :: s.dumped } :=
  { h with
    ahead := by
      rintro _ _ ⟨⟩
      exact h.follows_answer hphase hanswer
    links_first := by simp
    links_answered := by
      rintro _ _ ⟨⟩ hneighbor
      obtain hlinks | hlinks := h.links_first _ _ hphase hneighbor
      · rw [hlinks]
        exact List.mem_cons_self
      · exact List.mem_cons_of_mem _ hlinks
    dumped := fun kind => by
      have hkind := h.dumped kind
      rw [hphase] at hkind
      simp only [Phase.pending, List.mem_cons] at hkind ⊢
      tauto
    dumped_set := fun hlink kind => List.mem_cons_of_mem _ (h.dumped_set hlink kind)
    undumped := fun k hk => h.undumped k fun hold => hk (List.mem_cons_of_mem _ hold)
    undumped_ahead := by
      rintro _ _ ⟨⟩ k hk
      obtain ⟨hkind, hold⟩ := not_or.mp (mt List.mem_cons.mpr hk)
      exact view_handle_eq_none h.follows.good hanswer h.kernel hkind (h.undumped k hold) }

private theorem finish (h : Invariant names order str s) {answer : Answer} {rest : List Kind}
    (hphase : s.phase = .answered answer rest) :
    Invariant names order str
      { s with
        phase := .next rest
        caches := answer.handle order str s.caches
        covered := s.coveredBy answer } := by
  have hlinks (hneighbor : s.neighborEventCB = true) : .links ∈ s.coveredBy answer := by
    rw [System.coveredBy, if_pos hneighbor]
    exact h.links_answered answer rest hphase hneighbor
  exact { h with
    follows := h.ahead answer rest hphase
    ahead := by cases rest <;> simp [Phase.next]
    links_covered := fun hne => by
      cases hneighbor : s.neighborEventCB with
      | true => exact hlinks hneighbor
      | false => exact absurd (by simp [System.coveredBy, hneighbor, h.covered_set]) hne
    links_first := fun _ _ _ hneighbor => .inr (hlinks hneighbor)
    links_answered := by cases rest <;> simp [Phase.next]
    covered_set := fun (hneighbor : s.neighborEventCB = false) => by
      simp [System.coveredBy, hneighbor, h.covered_set hneighbor]
    dumped := fun kind => by
      have hkind := h.dumped kind
      rw [hphase] at hkind
      cases rest <;> exact hkind
    undumped := h.undumped_ahead answer rest hphase
    undumped_ahead := by cases rest <;> simp [Phase.next] }

end Invariant

private theorem Reachable.invariant (h : Reachable names order str s) :
    Invariant names order str s := by
  induction h with
  | start hw => exact .start hw
  | change _ hm ih => exact ih.change hm
  | setLinkEventCB _ hphase ih => exact ih.setLinkEventCB hphase
  | setAddrEventCB _ hlink ih => exact ih.setAddrEventCB hlink
  | setNeighborEventCB _ hphase haddr ih => exact ih.setNeighborEventCB hphase haddr
  | runPosted _ hphase hposted ih => exact ih.runPosted hphase hposted
  | call _ hphase _ c ih => exact ih.call hphase c.rest
  | answer _ hphase hanswer ih => exact ih.answered hphase hanswer
  | finish _ hphase ih => exact ih.finish hphase

/-- Names of different lengths. -/
def unaryNames : Names where
  name i := List.replicate (i.toNat + 1) 0
  injective i j h := by
    have hlength := congrArg List.length h
    simpa [UInt32.toNat_inj] using hlength
  ne_nil i := by simp

/-- One interface, which is running. -/
def oneInterface (k : Key) : Option Item := if k = .link 3 then some (.link true) else none

private theorem kernel_oneInterface : Kernel oneInterface where
  grounded k hk := by cases k <;> simp_all [oneInterface, Key.base]
  running i ip h := by simp [oneInterface] at h

def sampleLink : Link := { linkName := unaryNames.name 3, ifIndex := 3, flags := IFF_RUNNING }

/-- A neighbor on this interface. -/
def sampleNeighbor (isReachable : Bool) : Neighbor := { ifIndex := 3, isReachable }

private theorem describes_links (hw : ∀ i, w (.link i) = oneInterface (.link i)) :
    Describes unaryNames w (.links [sampleLink]) := by
  refine ⟨by simpa using ⟨⟨by decide, rfl⟩, hw 3⟩, fun i hi => ⟨sampleLink, by simp, ?_⟩⟩
  simp only [hw, oneInterface, Key.link.injEq, ne_eq, ite_eq_right_iff, not_forall] at hi
  exact hi.1.symm

private theorem proper_neighbor (isReachable : Bool) :
    Proper unaryNames (.neighbor 0 (sampleNeighbor isReachable)) :=
  (by decide : (3 : UInt32) ≠ 0)

/-- The interface and the neighbor. -/
def withNeighbor : Key → Option Item := change (.neighbor 0 (sampleNeighbor true)) oneInterface

private theorem describes_neighbor :
    Describes unaryNames withNeighbor (.neighbors [sampleNeighbor true]) := by
  refine ⟨by simpa using ⟨proper_neighbor true, rfl⟩,
    fun i ip hip => ⟨sampleNeighbor true, by simp, ?_⟩⟩
  by_contra hne
  simp [withNeighbor, change, writes, hne, oneInterface] at hip

private theorem describes_no_addresses : Describes unaryNames withNeighbor (.addresses []) :=
  ⟨by simp, fun i p hp => by simp [withNeighbor, change, writes, oneInterface] at hp⟩

/-- A dump during which the kernel does not change. -/
theorem Reachable.dump (h : Reachable names order str s) {rest : List Kind} {answer : Answer}
    (hphase : s.phase = .waits answer.kind rest) (hanswer : Describes names s.world answer) :
    ∃ caches, Reachable names order str
      { s with
        phase := .next rest
        caches
        covered := s.coveredBy answer
        dumped := answer.kind :: s.dumped } :=
  ⟨_, (h.answer hphase hanswer).finish rfl⟩

/-- The constructor's call on a kernel that does not change. -/
theorem Reachable.constructed (hw : Kernel w) {links : List Link} {addresses : List IfAddress}
    {neighbors : List Neighbor} (hlinks : Describes names w (.links links))
    (haddresses : Describes names w (.addresses addresses))
    (hneighbors : Describes names w (.neighbors neighbors)) :
    ∃ caches, Reachable names order str
      { world := w, phase := .idle, caches, dumped := [.neighbors, .addresses, .links] } := by
  have hstart : Reachable names order str { world := w } := .start hw
  obtain ⟨_, hfirst⟩ := hstart.dump rfl hlinks
  obtain ⟨_, hsecond⟩ := hfirst.dump rfl haddresses
  exact hsecond.dump rfl hneighbors

private theorem kernel_withNeighbor : Kernel withNeighbor := by
  have hneighbor : ∀ i ip, withNeighbor (.neighbor i ip) ≠ none → i = 3 := by
    intro i ip hne
    by_contra hi
    have hother : ¬ ((sampleNeighbor true).ifIndex = i ∧ (sampleNeighbor true).destination = ip) :=
      fun h => hi h.1.symm
    simp [withNeighbor, change, writes, oneInterface, hother] at hne
  refine ⟨fun k hk => ?_, fun i ip hne => ?_⟩
  · cases k with
    | link i => exact hk
    | network i p => rfl
    | neighbor i ip =>
      by_contra hne
      rw [hneighbor i ip hne] at hk
      have hlink : withNeighbor (.link 3) ≠ none := by decide
      exact hlink hk
  · rw [hneighbor i ip hne]
    rfl

/-- A neighbor that fails before the callback is set stays in the cache. -/
theorem failed_neighbor_stays : ∃ s,
    Reachable unaryNames (.given _) (fun _ => "") s ∧ s.phase = .idle ∧ s.posted = [] ∧
      s.neighborEventCB = true ∧ s.world (.neighbor 3 .empty) = none ∧
      view unaryNames s.caches (.neighbor 3 .empty) = some (.neighbor (sampleNeighbor true)) := by
  have hstart : Reachable unaryNames (.given _) (fun _ => "") { world := withNeighbor } :=
    .start kernel_withNeighbor
  have hlinks := (hstart.answer rfl (describes_links fun _ => rfl)).finish rfl
  have hneighbors := ((hlinks.answer rfl describes_no_addresses).finish rfl).answer rfl
    describes_neighbor
  have hchange : Allowed unaryNames withNeighbor (.neighbor 0 (sampleNeighbor false)) :=
    ⟨proper_neighbor false, by decide, fun h => absurd h (by decide)⟩
  have hfailed := (hneighbors.change hchange).finish rfl
  exact ⟨_, ((hfailed.setLinkEventCB rfl).setAddrEventCB rfl).setNeighborEventCB rfl rfl, rfl, rfl,
    rfl, rfl, rfl⟩

end KernelMirror

end Fbmeshd
