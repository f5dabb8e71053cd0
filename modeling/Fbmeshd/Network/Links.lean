import Fbmeshd.Lib.DistanceVector
import Fbmeshd.Network.Frames

/-!
# Networks with constant links and ordered channels

Here the metric of a node for a neighbour never changes, the frames between two nodes arrive
in the order they were sent, and no path expires. An entry is then accepted exactly when it
is not expired, and the state of the network for one destination is a state of the ranked
routes of `DistanceVector`.
-/

namespace Fbmeshd

namespace MeshPaths

variable {paths paths' : MeshPaths} {now start finish : ℤ} {a : MacAddress} {p : MeshPath}

/-- The entry for an address, if it is not expired. -/
def live (paths : MeshPaths) (now : ℤ) (a : MacAddress) : Option MeshPath :=
  (paths.find a).filter fun p => !p.expired now

/-- A live path is one that has not expired. -/
theorem live_eq_some : paths.live now a = some p ↔ paths.find a = some p ∧ now ≤ p.expTime := by
  simp [live, Option.filter_eq_some_iff, MeshPath.expired_eq_false]

/-- No entry expires between `start` and `finish`. -/
def StaysLive (paths : MeshPaths) (start finish : ℤ) : Prop :=
  ∀ a p, paths.find a = some p → start ≤ p.expTime → finish ≤ p.expTime

/-- An entry that is neither written nor expires stays as it is. -/
theorem StaysLive.live_eq (h : StaysLive paths start finish) (hle : start ≤ finish)
    (hfind : paths'.find a = paths.find a) : paths'.live finish a = paths.live start a := by
  ext p
  rw [live_eq_some, live_eq_some, hfind]
  exact ⟨fun ⟨hp, hlive⟩ => ⟨hp, hle.trans hlive⟩, fun ⟨hp, hlive⟩ => ⟨hp, h a p hp hlive⟩⟩

end MeshPaths

/-- The order of the readings. -/
theorem PannClock.Nondecreasing.test_le {clk : PannClock} {start finish : ℤ}
    (h : clk.Nondecreasing start finish) :
    start ≤ clk.test ∧ clk.test ≤ clk.update ∧ clk.update ≤ finish := by
  have h₁ := h.start_le_target
  have h₂ := h.target_le_create
  have h₃ := h.create_le_test
  have h₄ := h.test_le_topKGatesOld 0
  have h₅ := h.topKGatesOld_le_gateCount 0 0
  have h₆ := h.gateCount_le_update 0
  have h₇ := h.update_le_topKGatesNew 0
  have h₈ := h.topKGatesNew_le_finish 0
  omega

/-- A frame is processed between `start` and `finish` with ordered readings, an entry created
for it is expired when it is tested, and no path expires meanwhile. -/
structure Routing.NoExpiry (r : Routing) (stas : LinkMetrics) (clk : PannClock) (sa : MacAddress)
    (pann : MeshPathFramePANN) (start finish : ℤ) : Prop where
  readings : clk.Nondecreasing start finish
  fresh : r.meshPaths.find pann.origAddr = none →
    (r.hwmpPannFrameProcess stas clk sa pann).1.meshPaths.find pann.origAddr ≠ none →
    clk.create < clk.test
  before : r.meshPaths.StaysLive start finish
  after : (r.hwmpPannFrameProcess stas clk sa pann).1.meshPaths.StaysLive clk.test finish

namespace Routing.NoExpiry

variable {r : Routing} {stas : LinkMetrics} {clk : PannClock} {sa : MacAddress}
  {pann : MeshPathFramePANN} {start finish : ℤ} {lastHopMetric : UInt32} {da a : MacAddress}

/-- Processing takes no negative time. -/
theorem start_le_finish (h : r.NoExpiry stas clk sa pann start finish) : start ≤ finish := by
  have htest := h.readings.test_le
  omega

private theorem live_of_ne (h : r.NoExpiry stas clk sa pann start finish) (ha : a ≠ pann.origAddr) :
    (r.hwmpPannFrameProcess stas clk sa pann).1.meshPaths.live finish a =
      r.meshPaths.live start a :=
  h.before.live_eq h.start_le_finish (process_find_of_ne stas clk sa r ha)

/-- A discarded frame changes no live path: an entry created for it is expired. -/
theorem live_of_discards (h : r.NoExpiry stas clk sa pann start finish)
    (hc : Considers stas clk sa pann r lastHopMetric da)
    (hd : r.discards clk sa pann lastHopMetric = true) :
    (r.hwmpPannFrameProcess stas clk sa pann).1.meshPaths.live finish pann.origAddr =
      r.meshPaths.live start pann.origAddr := by
  have hfind := process_find_of_discards hc hd
  cases hold : r.meshPaths.find pann.origAddr with
  | some p =>
    refine h.before.live_eq h.start_le_finish ?_
    rw [hfind, hold, testedPath, MeshPaths.pathOrNew_of_find hold]
  | none =>
    have hcreate := h.fresh hold (by simp [hfind])
    have htest := h.readings.test_le
    have hdead : (MeshPath.create pann.origAddr clk.create).expired finish = true := by
      rw [MeshPath.expired_eq_true]
      change clk.create < finish
      omega
    rw [testedPath, MeshPaths.pathOrNew_of_find_eq_none hold] at hfind
    simp [MeshPaths.live, hfind, hold, hdead]

/-- An accepted frame leaves a live path. -/
theorem live_of_accepts (h : r.NoExpiry stas clk sa pann start finish)
    (hc : Considers stas clk sa pann r lastHopMetric da)
    (hd : r.discards clk sa pann lastHopMetric = false) :
    (r.hwmpPannFrameProcess stas clk sa pann).1.meshPaths.live finish pann.origAddr =
      some (updatePath (r.testedPath clk pann) clk.update r.activePathTimeout sa pann
        lastHopMetric) := by
  have hfind := process_find_of_accepts hc hd
  rw [MeshPaths.live_eq_some]
  refine ⟨hfind, h.after _ _ hfind ?_⟩
  have htest := h.readings.test_le
  have htimeout : 0 ≤ milliseconds r.activePathTimeout := by
    unfold milliseconds
    omega
  change clk.test ≤ clk.update + milliseconds r.activePathTimeout
  omega

/-- The live path of the originator is the one the first rule tests. -/
theorem ignores_iff (h : r.NoExpiry stas clk sa pann start finish)
    (hc : Considers stas clk sa pann r lastHopMetric da) (origSn : UInt64) (metric : UInt32) :
    ignores (r.testedPath clk pann) clk.test sa origSn metric = true ↔
      ∃ q, r.meshPaths.live start pann.origAddr = some q ∧
        (origSn < q.sn ∨ (q.nextHop ≠ sa ∧ q.metric ≤ metric)) := by
  have htest := h.readings.test_le
  cases hold : r.meshPaths.find pann.origAddr with
  | none =>
    have hsome : (r.hwmpPannFrameProcess stas clk sa pann).1.meshPaths.find pann.origAddr ≠
        none := by
      cases hd : r.discards clk sa pann lastHopMetric with
      | true => simp [process_find_of_discards hc hd]
      | false => simp [process_find_of_accepts hc hd]
    have hcreate := h.fresh hold hsome
    rw [testedPath, MeshPaths.pathOrNew_of_find_eq_none hold]
    simp [ignores, MeshPath.expired, MeshPath.create, MeshPaths.live, hold, hcreate]
  | some q =>
    rw [testedPath, MeshPaths.pathOrNew_of_find hold]
    have hlive : q.expired clk.test = false ↔ r.meshPaths.live start pann.origAddr = some q := by
      rw [MeshPath.expired_eq_false, MeshPaths.live_eq_some]
      refine ⟨fun hle => ⟨hold, by omega⟩, fun hq => ?_⟩
      have hfinish := h.before _ _ hold hq.2
      omega
    constructor
    · intro hignores
      simp only [ignores, Bool.and_eq_true, Bool.or_eq_true, decide_eq_true_eq,
        Bool.not_eq_true'] at hignores
      exact ⟨q, hlive.mp hignores.1, hignores.2⟩
    · rintro ⟨q', hq', hrule⟩
      obtain rfl : q = q' := Option.some.inj (hold.symm.trans (MeshPaths.live_eq_some.mp hq').1)
      simpa [ignores, hlive.mpr hq'] using hrule

/-- A node whose entries last, when the clock moves before a new entry is tested. -/
theorem of_entries {create now : ℤ} (hlast : ∀ e ∈ r.meshPaths.entries, now ≤ e.2.expTime)
    (hstart : start ≤ create) (hcreate : create < now) :
    r.NoExpiry stas (clockAt create now) sa pann start now :=
  ⟨clockAt_nondecreasing hstart hcreate.le, fun _ _ => hcreate,
    fun _ _ hp _ => hlast _ (AList.mem_lookup_iff.mp hp), fun _ _ _ hlive => hlive⟩

/-- A node without entries, when the clock moves before the new entry is tested. -/
theorem of_empty (hempty : r.meshPaths = ∅) {create now : ℤ} (hstart : start ≤ create)
    (hcreate : create < now) : r.NoExpiry stas (clockAt create now) sa pann start now :=
  of_entries (by simp [hempty]) hstart hcreate

/-- A frame of a known originator, processed at one instant. -/
theorem of_known (hknown : r.meshPaths.find pann.origAddr ≠ none) (now : ℤ) :
    r.NoExpiry stas (clockAt now now) sa pann now now :=
  ⟨clockAt_nondecreasing le_rfl le_rfl, fun hnone => absurd hnone hknown, fun _ _ _ h => h,
    fun _ _ _ h => h⟩

/-- A node that gets one of its own frames back. -/
theorem of_own (horig : pann.origAddr = r.nodeAddr) (now : ℤ) :
    r.NoExpiry stas (clockAt now now) sa pann now now := by
  have hsame : r.hwmpPannFrameProcess stas (clockAt now now) sa pann = (r, []) := by
    rw [hwmpPannFrameProcess, if_pos horig]
  refine ⟨clockAt_nondecreasing le_rfl le_rfl, fun hnone hsome => ?_, ?_, ?_⟩
  · rw [hsame] at hsome
    exact absurd hnone hsome
  · exact fun _ _ _ hlive => hlive
  · exact fun _ _ _ hlive => hlive

end Routing.NoExpiry

/-- A network whose links have constant metrics. -/
structure LinkNetwork extends Network where
  link : MacAddress → LinkMetrics
  one_le : ∀ n m w, link n m = some w → 1 ≤ w.toNat
  lt : ∀ n m w, link n m = some w → w.toNat < 2 ^ 24
  irrefl : ∀ n, link n n = none
  mem_nodes : ∀ n m w, link n m = some w → n ∈ nodes
  hears_of_link : ∀ n m w, link n m = some w → hears n m = true

/-- Stations that all hear each other with a metric of 10. -/
def cliqueLinks (nodes : List MacAddress) (nodup : nodes.Nodup)
    (unicast : ∀ n ∈ nodes, n.isUnicast = true) : LinkNetwork where
  toNetwork := clique nodes nodup unicast
  link := cliqueLink nodes
  one_le _ _ _ hw := (cliqueLink_eq_some hw).2.2.1
  lt _ _ _ hw := (cliqueLink_eq_some hw).2.2.2
  irrefl _ := if_pos rfl
  mem_nodes _ _ _ hw := (cliqueLink_eq_some hw).1
  hears_of_link _ _ _ hw := decide_eq_true (cliqueLink_eq_some hw).2.1

/-- The three stations with these links. -/
def triangleLinks : LinkNetwork :=
  cliqueLinks triangle.nodes triangle.nodup triangle.unicast

/-- Metrics with which station 3 is better off behind station 2. -/
def unevenLink (n m : MacAddress) : Option UInt32 :=
  (cliqueLink triangle.nodes n m).map fun _ =>
    if n = 3 ∧ m = 1 then 50 else if m = 1 then 1 else 10

private theorem unevenLink_eq_some {n m : MacAddress} {w : UInt32} (h : unevenLink n m = some w) :
    n ∈ triangle.nodes ∧ n ≠ m ∧ (w = 50 ∨ w = 1 ∨ w = 10) := by
  obtain ⟨w', hclique, rfl⟩ := Option.map_eq_some_iff.mp h
  obtain ⟨hmem, hne, -⟩ := cliqueLink_eq_some hclique
  refine ⟨hmem, hne, ?_⟩
  split
  · exact .inl rfl
  · split
    · exact .inr (.inl rfl)
    · exact .inr (.inr rfl)

/-- The three stations with these metrics. -/
def unevenTriangle : LinkNetwork where
  toNetwork := triangle
  link := unevenLink
  one_le _ _ _ hw := by
    obtain ⟨-, -, rfl | rfl | rfl⟩ := unevenLink_eq_some hw <;> decide
  lt _ _ _ hw := by
    obtain ⟨-, -, rfl | rfl | rfl⟩ := unevenLink_eq_some hw <;> decide
  irrefl _ := by rw [unevenLink, cliqueLink, if_pos rfl, Option.map_none]
  mem_nodes _ _ _ hw := (unevenLink_eq_some hw).1
  hears_of_link _ _ _ hw := decide_eq_true (unevenLink_eq_some hw).2.1

/-- The frame of the first announcement of station 1, as it is after `hopCount` hops. -/
def announced (hopCount ttl : UInt8) (metric : UInt32) : MeshPathFramePANN :=
  ⟨1, 1, hopCount, ttl, .BROADCAST, metric, true, true⟩

/-- The live path of a node. -/
def NetState.livePath (s : NetState) (n a : MacAddress) : Option MeshPath :=
  (s.node n).meshPaths.live (s.clock n) a

namespace LinkNetwork

variable (net : LinkNetwork)

/-- The first packet of a channel is delivered and no path expires meanwhile. -/
inductive Delivers : NetState → NetState → Prop
  | intro {s : NetState} {before after : List Packet} {p : Packet} {clk : PannClock} {finish : ℤ}
      (hflight : s.flight = before ++ p :: after)
      (hfirst : ∀ x ∈ before, x.src = p.src → x.dst ≠ p.dst)
      (hnoExpiry : (s.node p.dst).NoExpiry (net.link p.dst) clk p.src p.frame (s.clock p.dst)
        finish) :
      Delivers s (s.deliver net.toNetwork p (before ++ after) (net.link p.dst) clk finish)

/-- A run goes on with the delivery of the `i`-th packet in flight. -/
theorem deliver_nth {net : LinkNetwork} {s₀ s : NetState}
    (hrun : Relation.ReflTransGen net.Delivers s₀ s) (i : ℕ) {p : Packet} {clk : PannClock}
    {finish : ℤ} (hp : s.flight[i]? = some p)
    (hfirst : ∀ x ∈ s.flight.take i, x.src = p.src → x.dst ≠ p.dst)
    (hno : (s.node p.dst).NoExpiry (net.link p.dst) clk p.src p.frame (s.clock p.dst) finish) :
    Relation.ReflTransGen net.Delivers s₀
      (s.deliver net.toNetwork p (s.flight.take i ++ s.flight.drop (i + 1)) (net.link p.dst) clk
        finish) :=
  hrun.tail (.intro (Network.flight_split hp) hfirst hno)

/-- The steps of a network with ordered channels that may lose frames, in which no path
expires. -/
inductive Step : NetState → NetState → Prop
  | deliver {s s' : NetState} (h : net.Delivers s s') : Step s s'
  | lose {s : NetState} {before after : List Packet} {p : Packet}
      (hflight : s.flight = before ++ p :: after) : Step s { s with flight := before ++ after }
  | callback {s : NetState} {n : MacAddress} {finish : ℤ} (hn : n ∈ net.nodes) (e : InternalEvent)
      (htimed : e.Timed (s.clock n) finish)
      (hstays : (s.node n).meshPaths.StaysLive (s.clock n) finish) :
      Step s (s.callback net.toNetwork n e finish)

/-- The states of the runs of a network with links. -/
inductive Reachable : NetState → Prop
  | start (clock : MacAddress → ℤ) : Reachable (net.start clock)
  | step {s s' : NetState} (hreach : Reachable s) (hstep : net.Step s s') : Reachable s'

variable {net} {s s' : NetState}

/-- The steps are steps of the network without restrictions. -/
theorem Step.toNetwork (h : net.Step s s') : net.toNetwork.Step s s' := by
  cases h with
  | deliver h =>
    cases h with
    | intro hflight _ _ => exact .deliver hflight _ _ _
  | lose hflight => exact .lose hflight
  | callback hn e _ _ => exact .callback hn e _

section Callback

variable {n : MacAddress} {e : InternalEvent} {finish : ℤ}

/-- A callback expires no live path and revives no other. -/
theorem livePath_callback (htimed : e.Timed (s.clock n) finish)
    (hstays : (s.node n).meshPaths.StaysLive (s.clock n) finish) (m a : MacAddress) :
    (s.callback net.toNetwork n e finish).livePath m a = s.livePath m a := by
  by_cases hm : m = n
  · subst hm
    rw [NetState.livePath, NetState.callback, NetState.act_node_self, NetState.act_clock_self]
    rw [e.apply_meshPaths]
    ext p
    rw [MeshPaths.live_eq_some, NetState.livePath, MeshPaths.live_eq_some]
    constructor
    · rintro ⟨hp, hlive⟩
      exact ⟨InternalEvent.find_of_find_purge hp, htimed.le.trans hlive⟩
    · rintro ⟨hp, hlive⟩
      have hfinish := hstays a p hp hlive
      exact ⟨InternalEvent.find_purge_of_live htimed hp hfinish, hfinish⟩
  · rw [NetState.livePath, NetState.callback, NetState.act_node_of_ne hm,
      NetState.act_clock_of_ne hm]
    rfl

end Callback

section Deliver

variable {p : Packet} {rest : List Packet} {clk : PannClock} {finish : ℤ}

/-- A delivery touches only the receiver's path to the originator. -/
theorem livePath_deliver_of_ne
    (h : (s.node p.dst).NoExpiry (net.link p.dst) clk p.src p.frame (s.clock p.dst) finish)
    {n a : MacAddress} (hne : n ≠ p.dst ∨ a ≠ p.frame.origAddr) :
    (s.deliver net.toNetwork p rest (net.link p.dst) clk finish).livePath n a =
      s.livePath n a := by
  by_cases hn : n = p.dst
  · subst hn
    rw [NetState.livePath, NetState.deliver, NetState.act_node_self, NetState.act_clock_self]
    exact h.live_of_ne (hne.resolve_left fun h => h rfl)
  · rw [NetState.livePath, NetState.deliver, NetState.act_node_of_ne hn,
      NetState.act_clock_of_ne hn]
    rfl

/-- The outcomes of a delivery: nothing is sent and every live path stays, or the frame is
accepted and becomes the receiver's path to the originator. -/
theorem deliver_cases (rest : List Packet)
    (h : (s.node p.dst).NoExpiry (net.link p.dst) clk p.src p.frame (s.clock p.dst) finish) :
    (((s.node p.dst).acceptsPann (net.link p.dst) clk p.src p.frame = false) ∧
      (s.deliver net.toNetwork p rest (net.link p.dst) clk finish).flight = rest ∧
      ∀ n a, (s.deliver net.toNetwork p rest (net.link p.dst) clk finish).livePath n a =
        s.livePath n a) ∨
    ∃ w da, Routing.Considers (net.link p.dst) clk p.src p.frame (s.node p.dst) w da ∧
      (s.node p.dst).discards clk p.src p.frame w = false ∧
      (s.deliver net.toNetwork p rest (net.link p.dst) clk finish).livePath p.dst
        p.frame.origAddr = some (Routing.updatePath ((s.node p.dst).testedPath clk p.frame)
          clk.update (s.node p.dst).activePathTimeout p.src p.frame w) := by
  have hlive (hsame : (s.deliver net.toNetwork p rest (net.link p.dst) clk finish).livePath p.dst
      p.frame.origAddr = s.livePath p.dst p.frame.origAddr) (n a : MacAddress) :
      (s.deliver net.toNetwork p rest (net.link p.dst) clk finish).livePath n a =
        s.livePath n a := by
    by_cases hn : n = p.dst
    · by_cases ha : a = p.frame.origAddr
      · rw [hn, ha, hsame]
      · exact livePath_deliver_of_ne h (.inr ha)
    · exact livePath_deliver_of_ne h (.inl hn)
  have hflight (hout : ((s.node p.dst).hwmpPannFrameProcess (net.link p.dst) clk p.src
      p.frame).2 = []) :
      (s.deliver net.toNetwork p rest (net.link p.dst) clk finish).flight = rest := by
    rw [NetState.deliver, NetState.act, hout]
    exact List.append_nil rest
  obtain ⟨hno, hsame⟩ | ⟨w, da, hc, ⟨hd, hsame⟩ | ⟨hd, -⟩⟩ :=
    Routing.process_cases (net.link p.dst) clk p.src p.frame (s.node p.dst)
  · refine .inl ⟨hno, hflight (by rw [hsame]), hlive ?_⟩
    rw [NetState.livePath, NetState.deliver, NetState.act_node_self, NetState.act_clock_self,
      hsame]
    exact h.before.live_eq h.start_le_finish rfl
  · refine .inl ⟨?_, hflight (by rw [hsame]), hlive ?_⟩
    · rw [Routing.acceptsPann_of_considers hc, hd]
      rfl
    · rw [NetState.livePath, NetState.deliver, NetState.act_node_self, NetState.act_clock_self]
      exact h.live_of_discards hc hd
  · refine .inr ⟨w, da, hc, hd, ?_⟩
    rw [NetState.livePath, NetState.deliver, NetState.act_node_self, NetState.act_clock_self]
    exact h.live_of_accepts hc hd

end Deliver

/-! ## The routes to one destination -/

/-- The links as costs. -/
def links (net : LinkNetwork) : DistanceVector.Links MacAddress where
  cost n m := (net.link n m).map UInt32.toNat
  pos n m w hw := by
    obtain ⟨metric, hmetric, rfl⟩ := Option.map_eq_some_iff.mp hw
    exact net.one_le n m metric hmetric
  irrefl n := by rw [net.irrefl, Option.map_none]

/-- A cost is the metric of a link. -/
theorem exists_link_of_cost {n m : MacAddress} {c : ℕ} (h : net.links.cost n m = some c) :
    ∃ w, net.link n m = some w ∧ w.toNat = c :=
  Option.map_eq_some_iff.mp h

/-- A broadcast reaches every node with a link to the sender. -/
theorem mem_receivers_of_cost {n m : MacAddress} {c : ℕ} (h : net.links.cost n m = some c) :
    n ∈ net.receivers m .BROADCAST := by
  obtain ⟨w, hlink, -⟩ := exists_link_of_cost h
  simp [Network.receivers, MacAddress.isBroadcast, net.mem_nodes _ _ _ hlink,
    net.hears_of_link _ _ _ hlink]

/-- The metric of a link is its cost. -/
theorem cost_of_link {n m : MacAddress} {w : UInt32} (h : net.link n m = some w) :
    net.links.cost n m = some w.toNat := by
  simp [links, h]

end LinkNetwork

/-- The message that a packet is. Sequence numbers and metrics are ranked by `rank`. -/
def Packet.message (rank : UInt64 → UInt32 → ℕ) (p : Packet) :
    DistanceVector.Message MacAddress :=
  ⟨p.src, p.dst, rank p.frame.origSn p.frame.metric, p.frame.hopCount.toNat⟩

/-- The messages about the destination `D` among some packets. -/
def messages (rank : UInt64 → UInt32 → ℕ) (D : MacAddress) (flight : List Packet) :
    List (DistanceVector.Message MacAddress) :=
  (flight.filter fun p => p.frame.origAddr = D).map (Packet.message rank)

/-- The label that a path is. -/
def MeshPath.label (rank : UInt64 → UInt32 → ℕ) (p : MeshPath) :
    DistanceVector.Label MacAddress :=
  ⟨rank p.sn p.metric, p.nextHop⟩

/-- The routes to `D` and the messages about it. -/
def NetState.routes (rank : UInt64 → UInt32 → ℕ) (D : MacAddress) (s : NetState) :
    DistanceVector.State MacAddress :=
  { label := fun n => (s.livePath n D).map (MeshPath.label rank)
    flight := messages rank D s.flight }

section Messages

variable {rank : UInt64 → UInt32 → ℕ} {D : MacAddress} {left right : List Packet} {p : Packet}

/-- The messages of packets in two parts. -/
theorem messages_append :
    messages rank D (left ++ right) = messages rank D left ++ messages rank D right := by
  simp [messages]

private theorem messages_cons_of_eq (h : p.frame.origAddr = D) :
    messages rank D (p :: right) = p.message rank :: messages rank D right := by
  simp [messages, h]

private theorem messages_cons_of_ne (h : p.frame.origAddr ≠ D) :
    messages rank D (p :: right) = messages rank D right := by
  simp [messages, h]

/-- The messages about `D` are those of its frames. -/
theorem mem_messages {m : DistanceVector.Message MacAddress} :
    m ∈ messages rank D left ↔ ∃ p ∈ left, p.frame.origAddr = D ∧ p.message rank = m := by
  simp [messages, and_assoc]

/-- What is passed on for another originator, as messages. -/
theorem copy_of_mem_messages_packets {net : Network} {src : MacAddress} {r : Routing}
    {stas : LinkMetrics} {clk : PannClock} {sa : MacAddress} {pann : MeshPathFramePANN} {w : UInt32}
    {m : DistanceVector.Message MacAddress}
    (hm : m ∈ messages rank D (net.packets src (r.hwmpPannFrameProcess stas clk sa pann).2))
    (hother : r.nodeAddr ≠ D) (hw : stas sa = some w) :
    ∃ p : Packet, p.message rank = m ∧ p.src = src ∧
      ∃ da, p.frame = (Routing.forwardedFrame da pann (newMetric pann.metric w)).2 := by
  obtain ⟨p, hp, rfl, rfl⟩ := mem_messages.mp hm
  exact ⟨p, rfl, Network.copy_of_mem_packets hp hother.symm hw⟩

/-- Without a frame of `D` there are none. -/
theorem messages_eq_nil (h : ∀ p ∈ left, p.frame.origAddr ≠ D) : messages rank D left = [] := by
  simpa [messages] using h

/-- The routes after a step that keeps all live paths to `D`. -/
theorem routes_of_livePath_eq {s s' : NetState} (h : ∀ n, s'.livePath n D = s.livePath n D) :
    s'.routes rank D = { s.routes rank D with flight := messages rank D s'.flight } := by
  simp [NetState.routes, h]

/-- A packet of another originator may leave without a trace. -/
theorem messages_rest_of_ne {before after : List Packet} (h : p.frame.origAddr ≠ D) :
    messages rank D (before ++ after) = messages rank D (before ++ p :: after) := by
  rw [messages_append, messages_append, messages_cons_of_ne h]

/-- A packet of the destination is one message among the others. -/
theorem messages_split_of_eq {before after : List Packet} (h : p.frame.origAddr = D) :
    messages rank D (before ++ p :: after) =
      messages rank D before ++ p.message rank :: messages rank D after := by
  rw [messages_append, messages_cons_of_eq h]

/-- The routes after an accepted frame of `D`, whose rank grows by the metric of the link. -/
theorem routes_deliver_of_accepts (rank : UInt64 → UInt32 → ℕ) {net : LinkNetwork}
    {s : NetState} {before after : List Packet} {clk : PannClock} {finish : ℤ} {w : UInt32}
    {q : MeshPath} {timeout : ℕ}
    (hno : (s.node p.dst).NoExpiry (net.link p.dst) clk p.src p.frame (s.clock p.dst) finish)
    (hnew : (s.deliver net.toNetwork p (before ++ after) (net.link p.dst) clk finish).livePath
      p.dst p.frame.origAddr = some (Routing.updatePath q clk.update timeout p.src p.frame w))
    (hrank : rank p.frame.origSn (newMetric p.frame.metric w) = (p.message rank).rank + w.toNat) :
    (s.deliver net.toNetwork p (before ++ after) (net.link p.dst) clk finish).routes rank
        p.frame.origAddr =
      (s.routes rank p.frame.origAddr).accept (p.message rank) w.toNat
        (messages rank p.frame.origAddr before ++ messages rank p.frame.origAddr after)
        (messages rank p.frame.origAddr (net.packets p.dst
          ((s.node p.dst).hwmpPannFrameProcess (net.link p.dst) clk p.src p.frame).2)) := by
  rw [DistanceVector.State.accept, ← messages_append, ← messages_append]
  refine congrArg₂ DistanceVector.State.mk (funext fun n => ?_) rfl
  by_cases hn : n = p.dst
  · subst hn
    rw [hnew, ← hrank]
    simp only [Packet.message, Function.update_self]
    rfl
  · rw [LinkNetwork.livePath_deliver_of_ne hno (.inl hn)]
    simp only [Packet.message, Function.update_of_ne hn]
    rfl

end Messages

/-- As long as metrics below `2 ^ 24` add up along the hops, a sum never saturates. -/
theorem HopFields.newMetric_toNat {elementTtl : UInt32} {frame : MeshPathFramePANN}
    (h : HopFields elementTtl frame)
    (hbound : frame.metric.toNat ≤ frame.hopCount.toNat * (2 ^ 24 - 1)) {w : UInt32}
    (hw : w.toNat < 2 ^ 24) :
    (newMetric frame.metric w).toNat = frame.metric.toNat + w.toNat := by
  have hhops := h.succ_lt
  rw [Fbmeshd.newMetric_toNat]
  omega

/-- The bound on the metric grows with the hop count. -/
theorem HopFields.newMetric_le {elementTtl : UInt32} {frame : MeshPathFramePANN}
    (h : HopFields elementTtl frame)
    (hbound : frame.metric.toNat ≤ frame.hopCount.toNat * (2 ^ 24 - 1)) {w : UInt32}
    (hw : w.toNat < 2 ^ 24) :
    (newMetric frame.metric w).toNat ≤ (frame.hopCount + 1).toNat * (2 ^ 24 - 1) := by
  rw [h.newMetric_toNat hbound hw, h.toNat_succ]
  omega

end Fbmeshd
