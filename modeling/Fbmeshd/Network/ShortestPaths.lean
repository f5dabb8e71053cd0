import Fbmeshd.Lib.Flood
import Fbmeshd.Network.Links

/-!
# A flood computes shortest paths

One node broadcasts one announcement into a network with empty tables and without other
gates. Every frame that is accepted is also passed on: the hop limit is large enough, and
the only gate of a table is never redundant.
-/

namespace Fbmeshd

/-- The network before the flood of `D`. -/
structure FloodStart (D : MacAddress) (s : NetState) : Prop where
  addr : ∀ n, (s.node n).nodeAddr = n
  empty : ∀ n, (s.node n).meshPaths = ∅
  gates : ∀ n, n ≠ D → (s.node n).isGate = false
  silent : s.flight = []

/-- A copy of the announcement of the flood. -/
structure FloodFrame (elementTtl : UInt32) (sn : UInt64) (isGate : Bool)
    (frame : MeshPathFramePANN) : Prop where
  hops : HopFields elementTtl frame
  bounded : frame.metric.toNat ≤ frame.hopCount.toNat * (2 ^ 24 - 1)
  origSn : frame.origSn = sn
  gate : frame.isGate = isGate
  target : frame.targetAddr = .BROADCAST

/-- The frames and entries during the flood of `D`. -/
structure FloodFrames (net : LinkNetwork) (D : MacAddress) (elementTtl : UInt32) (sn : UInt64)
    (isGate : Bool) (s : NetState) : Prop where
  addr : ∀ n, (s.node n).nodeAddr = n
  gates : ∀ n, n ≠ D → (s.node n).isGate = false
  dst : ∀ p ∈ s.flight, p.dst ∈ net.nodes
  own : ∀ p ∈ s.flight, p.frame.origAddr = D → FloodFrame elementTtl sn isGate p.frame
  /-- The other frames are replies, which ask for no reply and come from no gate. -/
  other : ∀ p ∈ s.flight, p.frame.origAddr ≠ D →
    p.frame.replyRequested = false ∧ p.frame.isGate = false
  key : ∀ n a q, (s.node n).meshPaths.find a = some q → q.dst = a
  onlyGate : ∀ n a q, (s.node n).meshPaths.find a = some q → q.isGate = true → a = D
  current : ∀ n q, s.livePath n D = some q → q.sn = sn

namespace FloodFrames

variable {net : LinkNetwork} {D : MacAddress} {elementTtl : UInt32} {sn : UInt64} {isGate : Bool}
  {s s' : NetState}

/-- The entries of a node after `getMeshPath`. -/
theorem entry_afterGetMeshPath (h : FloodFrames net D elementTtl sn isGate s) (n : MacAddress)
    {clk : PannClock} {pann : MeshPathFramePANN} {a : MacAddress} {q : MeshPath}
    (hq : ((s.node n).afterGetMeshPath clk pann).meshPaths.find a = some q) :
    q.dst = a ∧ (q.isGate = true → a = D) := by
  by_cases ha : a = pann.origAddr
  · subst ha
    rw [Routing.afterGetMeshPath, MeshPaths.find_withPath_self] at hq
    obtain rfl := Option.some.inj hq
    cases hold : (s.node n).meshPaths.find pann.origAddr with
    | some q' =>
      rw [MeshPaths.pathOrNew_of_find hold]
      exact ⟨h.key n _ q' hold, h.onlyGate n _ q' hold⟩
    | none =>
      rw [MeshPaths.pathOrNew_of_find_eq_none hold]
      exact ⟨rfl, by simp [MeshPath.create]⟩
  · rw [Routing.afterGetMeshPath, MeshPaths.find_withPath_of_ne ha] at hq
    exact ⟨h.key n a q hq, h.onlyGate n a q hq⟩

/-- A frame with the gate flag is of the flood. -/
theorem orig_of_isGate (h : FloodFrames net D elementTtl sn isGate s) {p : Packet}
    (hp : p ∈ s.flight) (hgate : p.frame.isGate = true) : p.frame.origAddr = D := by
  by_contra horig
  simp [(h.other p hp horig).2] at hgate

/-- No gate is redundant. -/
theorem not_redundantGate (h : FloodFrames net D elementTtl sn isGate s) {p : Packet}
    (hp : p ∈ s.flight) (n : MacAddress) (clk : PannClock) (metric : UInt32) :
    Routing.redundantGate ((s.node n).afterGetMeshPath clk p.frame).meshPaths clk.gateCount
      (s.node n).isGate p.frame metric = false := by
  cases hgate : p.frame.isGate with
  | false => simp [Routing.redundantGate, hgate]
  | true =>
    have horig := h.orig_of_isGate hp hgate
    have hzero : ((s.node n).afterGetMeshPath clk p.frame).meshPaths.betterGates clk.gateCount
        p.frame.origAddr metric = 0 := by
      refine MeshPaths.betterGates_eq_zero (fun b q hq hqgate => ?_) metric
      obtain ⟨hdst, honly⟩ := h.entry_afterGetMeshPath n hq
      rw [hdst, honly hqgate, horig]
    have hpos := MeshPaths.maxNoGates_pos (s.node n).isGate
    rw [Routing.redundantGate, hzero, hgate]
    simpa using hpos.ne'

section Deliver

variable {before after : List Packet} {p : Packet} {clk : PannClock} {finish : ℤ}

/-- The entries of the receiver of a frame. -/
theorem entry_process (h : FloodFrames net D elementTtl sn isGate s) (hp : p ∈ s.flight)
    {a : MacAddress} {q : MeshPath}
    (hq : ((s.node p.dst).hwmpPannFrameProcess (net.link p.dst) clk p.src
      p.frame).1.meshPaths.find a = some q) :
    q.dst = a ∧ (q.isGate = true → a = D) := by
  obtain ⟨-, hsame⟩ | ⟨w, da, hc, ⟨hd, hsame⟩ | ⟨hd, -⟩⟩ :=
    Routing.process_cases (net.link p.dst) clk p.src p.frame (s.node p.dst)
  · rw [hsame] at hq
    exact ⟨h.key _ a q hq, h.onlyGate _ a q hq⟩
  · rw [hsame] at hq
    exact h.entry_afterGetMeshPath p.dst hq
  · by_cases ha : a = p.frame.origAddr
    · subst ha
      obtain rfl := Option.some.inj ((Routing.process_find_of_accepts hc hd).symm.trans hq)
      have htested : ((s.node p.dst).afterGetMeshPath clk p.frame).meshPaths.find
          p.frame.origAddr = some ((s.node p.dst).testedPath clk p.frame) :=
        MeshPaths.find_withPath_self
      exact ⟨(h.entry_afterGetMeshPath p.dst htested).1, h.orig_of_isGate hp⟩
    · rw [Routing.process_find_of_ne _ clk p.src _ ha] at hq
      exact ⟨h.key _ a q hq, h.onlyGate _ a q hq⟩

/-- The metric of an accepted copy does not saturate. -/
theorem newMetric_toNat (h : FloodFrames net D elementTtl sn isGate s) (hp : p ∈ s.flight)
    (horig : p.frame.origAddr = D) {w : UInt32} (hw : net.link p.dst p.src = some w) :
    (newMetric p.frame.metric w).toNat = p.frame.metric.toNat + w.toNat :=
  (h.own p hp horig).hops.newMetric_toNat (h.own p hp horig).bounded (net.lt _ _ _ hw)

/-- The frames sent for a frame: copies of a flood frame are flood frames, and everything
else is or copies a reply. -/
theorem frame_process (h : FloodFrames net D elementTtl sn isGate s) (hp : p ∈ s.flight)
    {x : Packet} (hx : x ∈ net.packets p.dst
      ((s.node p.dst).hwmpPannFrameProcess (net.link p.dst) clk p.src p.frame).2) :
    (x.frame.origAddr = D → p.frame.origAddr = D ∧ FloodFrame elementTtl sn isGate x.frame) ∧
    (x.frame.origAddr ≠ D → x.frame.replyRequested = false ∧ x.frame.isGate = false) := by
  obtain ⟨-, w, da, hc, -, ⟨hreply, heq⟩ | ⟨httl, heq⟩⟩ := Network.mem_packets_process hx
  · -- The destination does not reply, because only its own frames ask for it.
    have hdst : p.dst ≠ D := by
      rintro rfl
      have horig : p.frame.origAddr ≠ p.dst := fun heq => hc.orig_ne (heq.trans (h.addr _).symm)
      simp [(h.other p hp horig).1] at hreply
    rw [heq]
    refine ⟨fun hD => absurd ((h.addr p.dst).symm.trans hD) hdst, fun _ => ⟨rfl, ?_⟩⟩
    exact h.gates p.dst hdst
  · rw [heq]
    constructor
    · intro horig
      have hframe := h.own p hp horig
      have hbound := hframe.hops.newMetric_le hframe.bounded (net.lt _ _ _ hc.station)
      exact ⟨horig, hframe.hops.forward httl, hbound, hframe.origSn, hframe.gate, hframe.target⟩
    · exact h.other p hp

private theorem deliver (h : FloodFrames net D elementTtl sn isGate s)
    (hflight : s.flight = before ++ p :: after)
    (hno : (s.node p.dst).NoExpiry (net.link p.dst) clk p.src p.frame (s.clock p.dst) finish) :
    FloodFrames net D elementTtl sn isGate
      (s.deliver net.toNetwork p (before ++ after) (net.link p.dst) clk finish) := by
  have hp := NetState.mem_flight hflight
  have hrest := NetState.rest_subset hflight
  refine ⟨?_, ?_, ?_, ?_, ?_, ?_, ?_, ?_⟩
  · refine NetState.forall_act_node (P := fun n r => r.nodeAddr = n) ?_ h.addr
    rw [Routing.process_fields]
    exact h.addr p.dst
  · refine NetState.forall_act_node (P := fun n r => n ≠ D → r.isGate = false) ?_ h.gates
    rw [Routing.process_fields]
    exact h.gates p.dst
  · intro x hx
    rcases List.mem_append.mp hx with hx | hx
    · exact h.dst x (hrest hx)
    · obtain ⟨-, da, -, hdst⟩ := Network.mem_packets hx
      exact Network.mem_nodes_of_mem_receivers hdst
  · intro x hx horig
    rcases List.mem_append.mp hx with hx | hx
    · exact h.own x (hrest hx) horig
    · exact ((h.frame_process hp hx).1 horig).2
  · intro x hx horig
    rcases List.mem_append.mp hx with hx | hx
    · exact h.other x (hrest hx) horig
    · exact (h.frame_process hp hx).2 horig
  · exact NetState.forall_act_node (P := fun _ r => ∀ a q, r.meshPaths.find a = some q → q.dst = a)
      (fun a q hq => (h.entry_process hp hq).1) h.key
  · exact NetState.forall_act_node
      (P := fun _ r => ∀ a q, r.meshPaths.find a = some q → q.isGate = true → a = D)
      (fun a q hq => (h.entry_process hp hq).2) h.onlyGate
  · intro n q hq
    obtain ⟨-, -, hsame⟩ | ⟨w, da, -, -, hnew⟩ := LinkNetwork.deliver_cases (before ++ after) hno
    · exact h.current n q ((hsame n D).symm.trans hq)
    · by_cases hne : n = p.dst ∧ D = p.frame.origAddr
      · obtain ⟨rfl, horig⟩ := hne
        rw [horig] at hq
        obtain rfl := Option.some.inj (hnew.symm.trans hq)
        exact (h.own p hp horig.symm).origSn
      · rw [LinkNetwork.livePath_deliver_of_ne hno (not_and_or.mp hne)] at hq
        exact h.current n q hq

/-! ## The flood of the routes -/

/-- In a flood all sequence numbers are the same, so the metric alone is the rank. -/
def floodRank (_sn : UInt64) (metric : UInt32) : ℕ := metric.toNat

/-- A copy that is not accepted is one that the ranks ignore. -/
theorem ignores (h : FloodFrames net D elementTtl sn isGate s) (hp : p ∈ s.flight)
    (horig : p.frame.origAddr = D)
    (hno : (s.node p.dst).NoExpiry (net.link p.dst) clk p.src p.frame (s.clock p.dst) finish)
    (hrejects : (s.node p.dst).acceptsPann (net.link p.dst) clk p.src p.frame = false) :
    (s.routes floodRank D).Ignores net.links D (p.message floodRank) := by
  by_cases hdst : p.dst = D
  · exact .inl hdst
  right
  cases hw : net.link p.dst p.src with
  | none =>
    left
    simp [LinkNetwork.links, Packet.message, hw]
  | some w =>
    right
    have hne : p.frame.origAddr ≠ (s.node p.dst).nodeAddr := by
      rw [h.addr, horig]
      exact Ne.symm hdst
    have hc := Routing.considers_of_broadcast clk hne hw (h.own p hp horig).target
    rw [Routing.acceptsPann_of_considers hc, Routing.discards, h.not_redundantGate hp,
      Bool.or_false, Bool.not_eq_false'] at hrejects
    obtain ⟨q, hq, hrule⟩ := (hno.ignores_iff hc _ _).mp hrejects
    rw [horig] at hq
    rcases hrule with hold | ⟨-, hworse⟩
    · -- An older sequence number does not occur.
      rw [h.current p.dst q hq, (h.own p hp horig).origSn] at hold
      exact absurd hold (UInt64.lt_irrefl _)
    · refine ⟨q.label floodRank, w.toNat, Option.map_eq_some_iff.mpr ⟨q, hq, rfl⟩,
        LinkNetwork.cost_of_link hw, ?_⟩
      have hle := UInt32.le_iff_toNat_le.mp hworse
      rwa [h.newMetric_toNat hp horig hw] at hle

/-- An accepted copy comes from the next hop or improves the metric. -/
theorem admits (h : FloodFrames net D elementTtl sn isGate s) (hp : p ∈ s.flight)
    (horig : p.frame.origAddr = D) {w : UInt32} {da : MacAddress}
    (hno : (s.node p.dst).NoExpiry (net.link p.dst) clk p.src p.frame (s.clock p.dst) finish)
    (hc : Routing.Considers (net.link p.dst) clk p.src p.frame (s.node p.dst) w da)
    (hd : (s.node p.dst).discards clk p.src p.frame w = false) :
    ∀ l, (s.routes floodRank D).label p.dst = some l →
      l.nextHop = p.src ∨ (p.message floodRank).rank + w.toNat < l.rank := by
  intro l hl
  obtain ⟨q, hq, rfl⟩ := Option.map_eq_some_iff.mp hl
  rw [← horig] at hq
  by_contra hbad
  have hrule : q.nextHop ≠ p.src ∧ q.metric ≤ newMetric p.frame.metric w := by
    rw [not_or, not_lt] at hbad
    refine ⟨hbad.1, UInt32.le_iff_toNat_le.mpr ?_⟩
    rw [h.newMetric_toNat hp horig hc.station]
    exact hbad.2
  have hignores := (hno.ignores_iff hc p.frame.origSn _).mpr ⟨q, hq, .inr hrule⟩
  simp [Routing.discards, hignores] at hd

/-- An accepted copy is passed on while the hop limit lasts. -/
theorem forwards (h : FloodFrames net D elementTtl sn isGate s) (hp : p ∈ s.flight)
    (horig : p.frame.origAddr = D) {w : UInt32} {da : MacAddress}
    (hno : (s.node p.dst).NoExpiry (net.link p.dst) clk p.src p.frame (s.clock p.dst) finish)
    (hc : Routing.Considers (net.link p.dst) clk p.src p.frame (s.node p.dst) w da)
    (hd : (s.node p.dst).discards clk p.src p.frame w = false) (httl : 1 < p.frame.ttl)
    (oldHasOrig : Bool) :
    ((s.node p.dst).hwmpPannFrameProcess (net.link p.dst) clk p.src p.frame).1.forwards clk
      p.frame oldHasOrig = true := by
  have hframe := h.own p hp horig
  have htarget : p.frame.targetAddr ≠
      ((s.node p.dst).hwmpPannFrameProcess (net.link p.dst) clk p.src p.frame).1.nodeAddr := by
    rw [Routing.process_fields, h.addr, hframe.target]
    intro heq
    have hunicast := net.unicast p.dst (h.dst p hp)
    simp [← heq] at hunicast
  have hrank : p.frame.isGate = true →
      ((s.node p.dst).hwmpPannFrameProcess (net.link p.dst) clk p.src
        p.frame).1.meshPaths.isStationInTopKGates
        ((s.node p.dst).hwmpPannFrameProcess (net.link p.dst) clk p.src p.frame).1.isGate
        clk.topKGatesNew p.frame.origAddr = true := by
    intro hgate
    obtain ⟨hfind, hlive⟩ := MeshPaths.live_eq_some.mp (hno.live_of_accepts hc hd)
    refine MeshPaths.isStationInTopKGates_of_only (fun b q hq hqgate => ?_) hfind hgate ?_ _
    · rw [(h.entry_process hp hq).2 hqgate, horig]
    · rw [MeshPath.expired_eq_false]
      exact (hno.readings.topKGatesNew_le_finish _).trans hlive
  simp only [Routing.forwards, Bool.and_eq_true, decide_eq_true_eq]
  refine ⟨⟨httl, htarget⟩, ?_⟩
  cases hgate : p.frame.isGate with
  | false => rfl
  | true => simp [hrank hgate]

/-- The copies that an accepted frame is passed on as. -/
theorem copy_of_mem_messages (h : FloodFrames net D elementTtl sn isGate s) (hp : p ∈ s.flight)
    (horig : p.frame.origAddr = D) (hdst : p.dst ≠ D) {w : UInt32}
    (hw : net.link p.dst p.src = some w) :
    ∀ m ∈ messages floodRank D (net.packets p.dst
      ((s.node p.dst).hwmpPannFrameProcess (net.link p.dst) clk p.src p.frame).2),
      m.src = p.dst ∧ m.rank = (p.message floodRank).rank + w.toNat ∧
        m.hops = (p.message floodRank).hops + 1 := by
  intro m hm
  obtain ⟨x, rfl, hsrc, da, heq⟩ :=
    copy_of_mem_messages_packets hm (by rwa [h.addr p.dst]) hw
  rw [Packet.message, heq]
  exact ⟨hsrc, h.newMetric_toNat hp horig hw, (h.own p hp horig).hops.toNat_succ⟩

/-- Within the hop limit every neighbour gets a copy. -/
theorem exists_copy (h : FloodFrames net D elementTtl sn isGate s) (hp : p ∈ s.flight)
    (horig : p.frame.origAddr = D) {w : UInt32} {da : MacAddress}
    (hno : (s.node p.dst).NoExpiry (net.link p.dst) clk p.src p.frame (s.clock p.dst) finish)
    (hc : Routing.Considers (net.link p.dst) clk p.src p.frame (s.node p.dst) w da)
    (hd : (s.node p.dst).discards clk p.src p.frame w = false)
    (hmax : elementTtl.toNat ≤ 255)
    (hwithin : (p.message floodRank).hops + 1 < elementTtl.toNat) {n : MacAddress} {c : ℕ}
    (hcost : net.links.cost n p.dst = some c) :
    ∃ m ∈ messages floodRank D (net.packets p.dst
      ((s.node p.dst).hwmpPannFrameProcess (net.link p.dst) clk p.src p.frame).2),
      m.dst = n := by
  have hframe := h.own p hp horig
  have httl : 1 < p.frame.ttl := by
    have hsum := hframe.hops.sum
    have hhops : p.frame.hopCount.toNat + 1 < elementTtl.toNat := hwithin
    rw [UInt8.lt_iff_toNat_lt]
    change 1 < p.frame.ttl.toNat
    omega
  have hda : da = .BROADCAST := by
    have htarget := hc.target
    simpa [Routing.forwardTo, hframe.target, eq_comm] using htarget
  obtain ⟨oldHasOrig, hout⟩ := Routing.process_snd_of_accepts hc hd
  have hsent : Routing.forwardedFrame .BROADCAST p.frame (newMetric p.frame.metric w) ∈
      ((s.node p.dst).hwmpPannFrameProcess (net.link p.dst) clk p.src p.frame).2 := by
    rw [hout, Routing.forwardFrames_eq, h.forwards hp horig hno hc hd httl, if_pos rfl, hda]
    simp
  have hcopy := Network.packets_of_mem hsent (LinkNetwork.mem_receivers_of_cost hcost)
  exact ⟨_, mem_messages.mpr ⟨_, hcopy, horig, rfl⟩, rfl⟩

end Deliver

/-- Each delivery is a step of the flood of the routes, or changes none. -/
theorem simulates (h : FloodFrames net D elementTtl sn isGate s) (hmax : elementTtl.toNat ≤ 255)
    (hstep : net.Delivers s s') :
    s'.routes floodRank D = s.routes floodRank D ∨
      DistanceVector.FloodStep net.links D elementTtl.toNat (s.routes floodRank D)
        (s'.routes floodRank D) := by
  obtain @⟨before, after, p, clk, finish, hflight, hfirst, hno⟩ := hstep
  have hp := NetState.mem_flight hflight
  by_cases horig : p.frame.origAddr = D
  · have hsplit : (s.routes floodRank D).flight = _ :=
      (congrArg _ hflight).trans (messages_split_of_eq horig)
    right
    obtain ⟨hrejects, hquiet, hsame⟩ | ⟨w, da, hc, hd, hnew⟩ :=
      LinkNetwork.deliver_cases (before ++ after) hno
    · rw [routes_of_livePath_eq fun n => hsame n D, hquiet, messages_append]
      exact .ignore hsplit (h.ignores hp horig hno hrejects)
    · have hdst : p.dst ≠ D := fun heq =>
        hc.orig_ne (horig.trans (heq.symm.trans (h.addr p.dst).symm))
      have hroutes := routes_deliver_of_accepts floodRank hno hnew
        (h.newMetric_toNat hp horig hc.station)
      rw [horig] at hroutes
      rw [hroutes]
      refine .accept hsplit ?_ hdst (LinkNetwork.cost_of_link hc.station)
        (h.admits hp horig hno hc hd) (h.copy_of_mem_messages hp horig hdst hc.station)
        fun hwithin n c hcost => h.exists_copy hp horig hno hc hd hmax hwithin hcost
      intro x hx
      obtain ⟨y, hy, -, rfl⟩ := mem_messages.mp hx
      exact hfirst y hy
  · left
    have hlive (n : MacAddress) : (s.deliver net.toNetwork p (before ++ after) (net.link p.dst)
        clk finish).livePath n D = s.livePath n D :=
      LinkNetwork.livePath_deliver_of_ne hno (.inr (Ne.symm horig))
    have hsent : messages floodRank D (net.packets p.dst
        ((s.node p.dst).hwmpPannFrameProcess (net.link p.dst) clk p.src p.frame).2) = [] :=
      messages_eq_nil fun x hx hxorig => horig ((h.frame_process hp hx).1 hxorig).1
    rw [routes_of_livePath_eq hlive, NetState.deliver, NetState.act, messages_append, hsent,
      List.append_nil, messages_rest_of_ne horig, ← hflight]
    rfl

/-- One step of the flood. -/
theorem step (h : FloodFrames net D elementTtl sn isGate s) (hstep : net.Delivers s s') :
    FloodFrames net D elementTtl sn isGate s' := by
  obtain ⟨hflight, -, hno⟩ := hstep
  exact h.deliver hflight hno

end FloodFrames

namespace FloodStart

variable {net : LinkNetwork} {D : MacAddress} {s : NetState} {e : InternalEvent}

/-- A callback at a node with an empty table leaves it empty. -/
theorem find_callback (h : FloodStart D s) (finish : ℤ) (n a : MacAddress) :
    ((s.callback net.toNetwork D e finish).node n).meshPaths.find a = none := by
  by_cases hn : n = D
  · subst hn
    rw [NetState.callback, NetState.act_node_self]
    cases hfind : ((e.apply (s.node n)).1.meshPaths).find a with
    | none => rfl
    | some p =>
      rw [e.apply_meshPaths] at hfind
      have hold := InternalEvent.find_of_find_purge hfind
      simp [h.empty] at hold
  · rw [NetState.callback, NetState.act_node_of_ne hn, h.empty, MeshPaths.find_empty]

/-- The packets after the announcement. -/
theorem mem_callback (h : FloodStart D s) {finish : ℤ} {p : Packet}
    (hp : p ∈ (s.callback net.toNetwork D e finish).flight) :
    p ∈ net.packets D (e.apply (s.node D)).2 := by
  rw [NetState.callback, NetState.act, h.silent] at hp
  exact hp

private theorem floodFrames (h : FloodStart D s) (finish : ℤ) :
    FloodFrames net D (s.node D).elementTtl ((s.node D).sn + 1) (e.apply (s.node D)).1.isGate
      (s.callback net.toNetwork D e finish) := by
  have hframe {p : Packet} (hp : p ∈ (s.callback net.toNetwork D e finish).flight) :=
    (Network.mem_packets_callback (h.mem_callback hp)).2
  refine ⟨?_, ?_, ?_, ?_, ?_, ?_, ?_, ?_⟩
  · refine NetState.forall_act_node (P := fun n r => r.nodeAddr = n) ?_ h.addr
    rw [(e.apply_fields _).1, h.addr]
  · intro n hn
    rw [NetState.callback, NetState.act_node_of_ne hn]
    exact h.gates n hn
  · intro p hp
    obtain ⟨-, da, -, hdst⟩ := Network.mem_packets (h.mem_callback hp)
    exact Network.mem_nodes_of_mem_receivers hdst
  · intro p hp _
    rw [hframe hp]
    exact ⟨.fresh rfl rfl, Nat.zero_le _, rfl, rfl, rfl⟩
  · intro p hp horig
    rw [hframe hp] at horig
    exact absurd (h.addr D) horig
  · simp [h.find_callback finish]
  · simp [h.find_callback finish]
  · simp [NetState.livePath, MeshPaths.live, h.find_callback finish]

/-- The announcement starts a flood of the routes. -/
theorem routes (h : FloodStart D s) (hsends : (e.apply (s.node D)).2 ≠ []) (finish : ℤ) :
    DistanceVector.FloodStart net.links D
      ((s.callback net.toNetwork D e finish).routes FloodFrames.floodRank D) := by
  refine ⟨fun n => ?_, fun m hm => ?_, fun n c hcost => ?_⟩
  · simp [NetState.routes, NetState.livePath, MeshPaths.live, h.find_callback finish]
  · obtain ⟨p, hp, -, rfl⟩ := mem_messages.mp hm
    obtain ⟨hsrc, hframe⟩ := Network.mem_packets_callback (h.mem_callback hp)
    rw [Packet.message, hframe]
    exact ⟨hsrc, rfl, rfl⟩
  · obtain ⟨t, ht⟩ := List.exists_mem_of_ne_nil _ hsends
    have heq := InternalEvent.mem_apply_snd ht
    rw [heq] at ht
    have hpacket := Network.packets_of_mem ht (LinkNetwork.mem_receivers_of_cost hcost)
    have hmem := List.mem_append_right s.flight hpacket
    exact ⟨Packet.message _ ⟨D, n, _⟩, mem_messages.mpr ⟨_, hmem, h.addr D, rfl⟩, rfl⟩

end FloodStart

namespace LinkNetwork

variable {net : LinkNetwork} {D : MacAddress} {s₀ s : NetState}

/-- A flood keeps its invariants through every order of deliveries. -/
theorem flood_invariant (hD : D ∈ net.nodes) (hstart : FloodStart D s₀)
    (hmax : (s₀.node D).elementTtl.toNat ≤ 255)
    (hlimit : net.nodes.length ≤ (s₀.node D).elementTtl.toNat) {e : InternalEvent}
    (hsends : (e.apply (s₀.node D)).2 ≠ []) {finish : ℤ}
    (hrun : Relation.ReflTransGen net.Delivers (s₀.callback net.toNetwork D e finish) s) :
    FloodFrames net D (s₀.node D).elementTtl ((s₀.node D).sn + 1) (e.apply (s₀.node D)).1.isGate
        s ∧
      DistanceVector.FloodInvariant net.links D net.nodes.toFinset
        (s.routes FloodFrames.floodRank D) := by
  induction hrun with
  | refl =>
    exact ⟨hstart.floodFrames finish, .start (hstart.routes hsends finish) (by simpa using hD)⟩
  | tail _ hstep ih =>
    obtain ⟨hframes, hroutes⟩ := ih
    refine ⟨hframes.step hstep, ?_⟩
    rcases hframes.simulates hmax hstep with hsame | hflood
    · rwa [hsame]
    · refine hroutes.step (fun n m c hcost => ?_) ?_ hflood
      · obtain ⟨metric, hlink, -⟩ := exists_link_of_cost hcost
        exact List.mem_toFinset.mpr (net.mem_nodes n m metric hlink)
      · rwa [List.toFinset_card_of_nodup net.nodup]

/-- One announcement of `D` into empty tables, without other gates and with a hop limit of at
least the number of nodes: once no frame of `D` is in flight, every other node that a
forwarding path leads to has an unexpired path to `D` with the least sum of link metrics, and
a forwarding path with that sum arrives from its next hop. -/
theorem flood_shortest_paths (hD : D ∈ net.nodes) (hstart : FloodStart D s₀)
    (hmax : (s₀.node D).elementTtl.toNat ≤ 255)
    (hlimit : net.nodes.length ≤ (s₀.node D).elementTtl.toNat) {e : InternalEvent}
    (hsends : (e.apply (s₀.node D)).2 ≠ []) {finish : ℤ}
    (hrun : Relation.ReflTransGen net.Delivers (s₀.callback net.toNetwork D e finish) s)
    (hquiet : ∀ p ∈ s.flight, p.frame.origAddr ≠ D) {n : MacAddress} (hn : n ≠ D)
    (hreach : ∃ r, DistanceVector.Walk net.links D n r) :
    ∃ q, (s.node n).meshPaths.find D = some q ∧ s.clock n ≤ q.expTime ∧
      IsLeast {r | DistanceVector.Walk net.links D n r} q.metric.toNat ∧
      ∃ r w, DistanceVector.Walk net.links D q.nextHop r ∧ net.link n q.nextHop = some w ∧
        q.metric.toNat = r + w.toNat := by
  obtain ⟨-, hroutes⟩ := flood_invariant hD hstart hmax hlimit hsends hrun
  obtain ⟨l, hl, hleast, r, c, hwalk, hcost, hsum⟩ :=
    hroutes.shortest (messages_eq_nil hquiet) hn hreach
  obtain ⟨q, hq, rfl⟩ := Option.map_eq_some_iff.mp hl
  obtain ⟨hfind, hlive⟩ := MeshPaths.live_eq_some.mp hq
  obtain ⟨w, hlink, rfl⟩ := exists_link_of_cost hcost
  exact ⟨q, hfind, hlive, hleast, r, w, hwalk, hlink, hsum⟩

/-- The flood of a new gate among three stations. Station 3 hears the gate itself first, with a
metric of 50, and then the copy of station 2, with a sum of 11. -/
theorem flood_shortest_paths_triangle :
    ∃ s : NetState, ∃ q, (s.node 3).meshPaths.find 1 = some q ∧ q.metric = 11 ∧ q.nextHop = 2 ∧
      DistanceVector.Walk unevenTriangle.links 1 3 50 ∧
      IsLeast {r | DistanceVector.Walk unevenTriangle.links 1 3 r} q.metric.toNat := by
  let s₀ := triangle.start fun _ => 0
  let s₁ := s₀.callback triangle 1 (.setGatewayStatus true 0) 0
  let reply (n : MacAddress) (sn : UInt64) : MeshPathFramePANN := ⟨n, sn, 0, 32, 1, 0, false, false⟩
  have hstart : FloodStart 1 s₀ := ⟨fun _ => rfl, fun _ => rfl, fun _ _ => rfl, rfl⟩
  have hmoves : (0 : ℤ) < 1 ∧ (1 : ℤ) < 2 := by decide
  have h₁ : Relation.ReflTransGen unevenTriangle.Delivers s₁ s₁ := .refl
  -- station 3 and then station 2 hear the gate
  have h₂ := deliver_nth h₁ 1 (p := ⟨1, 3, announced 0 32 0⟩) (by decide +kernel)
    (by decide +kernel) (.of_empty rfl le_rfl hmoves.1)
  have h₃ := deliver_nth h₂ 0 (p := ⟨1, 2, announced 0 32 0⟩) (by decide +kernel)
    (by decide +kernel) (.of_empty rfl le_rfl hmoves.1)
  -- they hear each other's copies
  have h₄ := deliver_nth h₃ 2 (p := ⟨3, 2, announced 1 31 50⟩) (by decide +kernel)
    (by decide +kernel) (.of_known (by decide +kernel) 1)
  have h₅ := deliver_nth h₄ 4 (p := ⟨2, 3, announced 1 31 1⟩) (by decide +kernel)
    (by decide +kernel) (.of_known (by decide +kernel) 1)
  -- the gate hears the replies and the copies
  have h₆ := deliver_nth h₅ 0 (p := ⟨3, 1, reply 3 1⟩) (by decide +kernel)
    (by decide +kernel) (.of_empty rfl le_rfl hmoves.1)
  have h₇ := deliver_nth h₆ 0 (p := ⟨3, 1, announced 1 31 50⟩) (by decide +kernel)
    (by decide +kernel) (.of_own (by decide +kernel) 1)
  have h₈ := deliver_nth h₇ 0 (p := ⟨2, 1, reply 2 1⟩) (by decide +kernel)
    (by decide +kernel) (.of_entries (by decide +kernel) le_rfl hmoves.2)
  have h₉ := deliver_nth h₈ 0 (p := ⟨2, 1, announced 1 31 1⟩) (by decide +kernel)
    (by decide +kernel) (.of_own (by decide +kernel) 2)
  have h₁₀ := deliver_nth h₉ 1 (p := ⟨3, 1, announced 2 30 11⟩) (by decide +kernel)
    (by decide +kernel) (.of_own (by decide +kernel) 2)
  -- station 2 hears the second reply and the second copy of station 3
  have h₁₁ := deliver_nth h₁₀ 0 (p := ⟨3, 2, reply 3 2⟩) (by decide +kernel)
    (by decide +kernel) (.of_entries (by decide +kernel) le_rfl hmoves.2)
  have h₁₂ := deliver_nth h₁₁ 0 (p := ⟨3, 2, announced 2 30 11⟩) (by decide +kernel)
    (by decide +kernel) (.of_known (by decide +kernel) 2)
  have hwalk : DistanceVector.Walk unevenTriangle.links 1 3 (0 + 50) := .snoc .nil (by decide)
  obtain ⟨q, hq, -, hleast, -⟩ := flood_shortest_paths (by decide) hstart (by decide) (by decide)
    (by decide) h₁₂ (by decide +kernel) (by decide) ⟨_, hwalk⟩
  have hpath : some (11, 2) = some (q.metric, q.nextHop) :=
    Eq.trans (by decide +kernel) (congrArg (Option.map fun q => (q.metric, q.nextHop)) hq)
  obtain ⟨hmetric, hhop⟩ := Prod.mk.inj (Option.some.inj hpath)
  exact ⟨_, q, hq, hmetric.symm, hhop.symm, hwalk, hleast⟩

end LinkNetwork

end Fbmeshd
