import Mathlib.Logic.Relation
import Fbmeshd.Routing.Transmissions

/-!
# A network of nodes

Every node runs `Routing`. A frame that a node sends becomes one packet for each receiver,
and a packet stays in flight until it is delivered or lost. Stations, clock readings and the
order of events are up to the environment; the modules that need less freedom say so in
their own steps.
-/

namespace Fbmeshd

/-- The nodes of a network, who hears whose broadcasts, and the nodes' parameters. -/
structure Network where
  nodes : List MacAddress
  nodup : nodes.Nodup
  unicast : ∀ n ∈ nodes, n.isUnicast = true
  hears : MacAddress → MacAddress → Bool
  elementTtl : MacAddress → UInt32
  activePathTimeout : MacAddress → ℕ
  rootPannInterval : MacAddress → ℕ

/-- A frame on its way from one node to another. -/
structure Packet where
  src : MacAddress
  dst : MacAddress
  frame : MeshPathFramePANN
  deriving DecidableEq

/-- The nodes with their clocks, the packets in flight in the order of sending, and what
each node has sent so far. -/
structure NetState where
  node : MacAddress → Routing
  clock : MacAddress → ℤ
  flight : List Packet
  sent : MacAddress → List Transmission

namespace Network

variable (net : Network)

/-- The nodes that a frame sent by `src` to `da` reaches. -/
def receivers (src da : MacAddress) : List MacAddress :=
  if da.isBroadcast then net.nodes.filter fun n => net.hears n src
  else if da ∈ net.nodes then [da] else []

/-- The packets for what `src` has sent. -/
def packets (src : MacAddress) (out : List Transmission) : List Packet :=
  out.flatMap fun t => (net.receivers src t.1).map fun dst => ⟨src, dst, t.2⟩

/-- A node as its constructor leaves it. -/
def newNode (n : MacAddress) : Routing :=
  { nodeAddr := n
    elementTtl := net.elementTtl n
    activePathTimeout := net.activePathTimeout n
    rootPannInterval := net.rootPannInterval n }

/-- The network before its first event. -/
def start (clock : MacAddress → ℤ) : NetState :=
  { node := net.newNode, clock, flight := [], sent := fun _ => [] }

end Network

namespace NetState

variable (s : NetState) (net : Network)

/-- The node `n` changes and sends as `result` says, while the packets `rest` stay. -/
def act (n : MacAddress) (finish : ℤ) (rest : List Packet)
    (result : Routing × List Transmission) : NetState :=
  { node := Function.update s.node n result.1
    clock := Function.update s.clock n finish
    flight := rest ++ net.packets n result.2
    sent := Function.update s.sent n (s.sent n ++ result.2) }

/-- The receiver of `p` processes its frame. -/
def deliver (p : Packet) (rest : List Packet) (stas : LinkMetrics) (clk : PannClock)
    (finish : ℤ) : NetState :=
  s.act net p.dst finish rest ((s.node p.dst).hwmpPannFrameProcess stas clk p.src p.frame)

/-- The node `n` runs a callback. -/
def callback (n : MacAddress) (e : InternalEvent) (finish : ℤ) : NetState :=
  s.act net n finish s.flight (e.apply (s.node n))

/-- The sequence numbers of the frames `n` has originated, in order. -/
def originated (n : MacAddress) : List UInt64 := Routing.originatedSns n (s.sent n)

end NetState

/-- The steps of a network in which frames may be delivered in any order, lost or
duplicated, under any stations and clock readings. -/
inductive Network.Step (net : Network) : NetState → NetState → Prop
  | deliver {s : NetState} {before after : List Packet} {p : Packet}
      (hflight : s.flight = before ++ p :: after) (stas : LinkMetrics) (clk : PannClock)
      (finish : ℤ) : Step net s (s.deliver net p (before ++ after) stas clk finish)
  | lose {s : NetState} {before after : List Packet} {p : Packet}
      (hflight : s.flight = before ++ p :: after) :
      Step net s { s with flight := before ++ after }
  | duplicate {s : NetState} {p : Packet} (hp : p ∈ s.flight) :
      Step net s { s with flight := s.flight ++ [p] }
  | callback {s : NetState} {n : MacAddress} (hn : n ∈ net.nodes) (e : InternalEvent)
      (finish : ℤ) : Step net s (s.callback net n e finish)

/-- The states of the runs of a network. -/
inductive Network.Reachable (net : Network) : NetState → Prop
  | start (clock : MacAddress → ℤ) : Reachable net (net.start clock)
  | step {s s' : NetState} (hreach : Reachable net s) (hstep : net.Step s s') : Reachable net s'

/-- Stations that all hear each other, with the default parameters. -/
def clique (nodes : List MacAddress) (nodup : nodes.Nodup)
    (unicast : ∀ n ∈ nodes, n.isUnicast = true) : Network :=
  { nodes, nodup, unicast
    hears := fun n m => n ≠ m
    elementTtl := fun _ => 32
    activePathTimeout := fun _ => 30000
    rootPannInterval := fun _ => 5000 }

/-- The links of a clique, all with a metric of 10. -/
def cliqueLink (nodes : List MacAddress) (n m : MacAddress) : Option UInt32 :=
  if n = m then none else if n ∈ nodes then some 10 else none

/-- What a link of a clique is. -/
theorem cliqueLink_eq_some {nodes : List MacAddress} {n m : MacAddress} {w : UInt32}
    (h : cliqueLink nodes n m = some w) :
    n ∈ nodes ∧ n ≠ m ∧ 1 ≤ w.toNat ∧ w.toNat < 2 ^ 24 := by
  obtain ⟨hne, h⟩ := Option.ite_none_left_eq_some.mp h
  obtain ⟨hmem, hw⟩ := Option.ite_none_right_eq_some.mp h
  obtain rfl := Option.some.inj hw
  exact ⟨hmem, hne, by decide, by decide⟩

/-- Three stations that hear each other. -/
def triangle : Network :=
  clique [1, 2, 3] (by decide) (by simp [MacAddress.isUnicast, MacAddress.isMulticast])

namespace Network

variable {net : Network} {src : MacAddress} {out : List Transmission}

/-- The packets before and after the `i`-th one. -/
theorem flight_split {flight : List Packet} {i : ℕ} {p : Packet} (hp : flight[i]? = some p) :
    flight = flight.take i ++ p :: flight.drop (i + 1) := by
  obtain ⟨hi, rfl⟩ := List.getElem?_eq_some_iff.mp hp
  rw [← List.drop_eq_getElem_cons hi, List.take_append_drop]

/-- The delivery of the `i`-th packet in flight. -/
theorem Step.deliver_nth {s : NetState} {p : Packet} (i : ℕ) (hp : s.flight[i]? = some p)
    (stas : LinkMetrics) (clk : PannClock) (finish : ℤ) :
    net.Step s
      (s.deliver net p (s.flight.take i ++ s.flight.drop (i + 1)) stas clk finish) :=
  .deliver (flight_split hp) stas clk finish

/-- A packet comes from a transmission that its receiver hears. -/
theorem mem_packets {p : Packet} (hp : p ∈ net.packets src out) :
    p.src = src ∧ ∃ da, (da, p.frame) ∈ out ∧ p.dst ∈ net.receivers src da := by
  obtain ⟨⟨da, frame⟩, ht, hmem⟩ := List.mem_flatMap.mp hp
  obtain ⟨dst, hdst, rfl⟩ := List.mem_map.mp hmem
  exact ⟨rfl, da, ht, hdst⟩

/-- The packets sent for a frame carry a reply to it or a copy of it. -/
theorem mem_packets_process {r : Routing} {stas : LinkMetrics} {clk : PannClock} {sa : MacAddress}
    {pann : MeshPathFramePANN} {p : Packet}
    (hp : p ∈ net.packets src (r.hwmpPannFrameProcess stas clk sa pann).2) :
    p.src = src ∧ ∃ w da, Routing.Considers stas clk sa pann r w da ∧
      r.discards clk sa pann w = false ∧
      ((pann.replyRequested = true ∧ p.frame = (r.replyFrame sa pann.origAddr).2) ∨
        (1 < pann.ttl ∧
          p.frame = (Routing.forwardedFrame da pann (newMetric pann.metric w)).2)) := by
  obtain ⟨hsrc, da, ht, -⟩ := mem_packets hp
  obtain ⟨w, da', hc, hd, ⟨hreply, heq⟩ | ⟨httl, -, heq⟩⟩ := Routing.mem_process_snd ht
  · exact ⟨hsrc, w, da', hc, hd, .inl ⟨hreply, congrArg Prod.snd heq⟩⟩
  · exact ⟨hsrc, w, da', hc, hd, .inr ⟨httl, congrArg Prod.snd heq⟩⟩

/-- What is sent on for another originator is a copy of the frame. -/
theorem copy_of_mem_packets {r : Routing} {stas : LinkMetrics} {clk : PannClock} {sa : MacAddress}
    {pann : MeshPathFramePANN} {p : Packet} {w : UInt32}
    (hp : p ∈ net.packets src (r.hwmpPannFrameProcess stas clk sa pann).2)
    (horig : p.frame.origAddr ≠ r.nodeAddr) (hw : stas sa = some w) :
    p.src = src ∧
      ∃ da, p.frame = (Routing.forwardedFrame da pann (newMetric pann.metric w)).2 := by
  obtain ⟨hsrc, w', da, hc, -, ⟨-, heq⟩ | ⟨-, heq⟩⟩ := mem_packets_process hp
  · rw [heq] at horig
    exact absurd rfl horig
  · obtain rfl := Option.some.inj (hw.symm.trans hc.station)
    exact ⟨hsrc, da, heq⟩

/-- The packets sent in a callback carry an announcement. -/
theorem mem_packets_callback {r : Routing} {e : InternalEvent} {p : Packet}
    (hp : p ∈ net.packets src (e.apply r).2) :
    p.src = src ∧
      p.frame = (Routing.rootFrame { r with isGate := (e.apply r).1.isGate }).2 := by
  obtain ⟨hsrc, da, ht, -⟩ := mem_packets hp
  exact ⟨hsrc, congrArg Prod.snd (InternalEvent.mem_apply_snd ht)⟩

/-- Every transmission reaches those that hear it. -/
theorem packets_of_mem {da dst : MacAddress} {frame : MeshPathFramePANN}
    (ht : (da, frame) ∈ out) (hdst : dst ∈ net.receivers src da) :
    ⟨src, dst, frame⟩ ∈ net.packets src out :=
  List.mem_flatMap.mpr ⟨(da, frame), ht, List.mem_map.mpr ⟨dst, hdst, rfl⟩⟩

/-- Receivers are nodes. -/
theorem mem_nodes_of_mem_receivers {da dst : MacAddress} (h : dst ∈ net.receivers src da) :
    dst ∈ net.nodes := by
  unfold receivers at h
  split at h
  · exact (List.mem_filter.mp h).1
  · split at h
    · rwa [List.mem_singleton.mp h]
    · simp at h

end Network

namespace NetState

variable {s : NetState} {net : Network} {n : MacAddress} {finish : ℤ} {rest : List Packet}
  {result : Routing × List Transmission}

section Flight

variable {before after : List Packet} {p : Packet}

/-- The packet that is taken was in flight. -/
theorem mem_flight (hflight : s.flight = before ++ p :: after) : p ∈ s.flight := by
  simp [hflight]

/-- So were the ones that remain. -/
theorem rest_subset (hflight : s.flight = before ++ p :: after) : before ++ after ⊆ s.flight := by
  rw [hflight]
  exact ((List.sublist_cons_self p after).append_left before).subset

end Flight

/-- The node that acts has the result. -/
@[simp] theorem act_node_self : (s.act net n finish rest result).node n = result.1 :=
  Function.update_self ..

/-- The other nodes stay as they are. -/
theorem act_node_of_ne {m : MacAddress} (h : m ≠ n) :
    (s.act net n finish rest result).node m = s.node m :=
  Function.update_of_ne h ..

/-- What holds of the acting node and of every node before holds of every node after. -/
theorem forall_act_node {P : MacAddress → Routing → Prop} (hself : P n result.1)
    (hothers : ∀ m, P m (s.node m)) (m : MacAddress) :
    P m ((s.act net n finish rest result).node m) := by
  by_cases hm : m = n
  · subst hm
    rwa [act_node_self]
  · rw [act_node_of_ne hm]
    exact hothers m

/-- Its clock has moved on. -/
@[simp] theorem act_clock_self : (s.act net n finish rest result).clock n = finish :=
  Function.update_self ..

/-- The other clocks have not. -/
theorem act_clock_of_ne {m : MacAddress} (h : m ≠ n) :
    (s.act net n finish rest result).clock m = s.clock m :=
  Function.update_of_ne h ..

/-- It has originated the frames that it sends for itself. -/
theorem originated_act_self :
    (s.act net n finish rest result).originated n =
      s.originated n ++ Routing.originatedSns n result.2 := by
  simp [act, originated, Routing.originatedSns]

/-- The other nodes have originated nothing. -/
theorem originated_act_of_ne {m : MacAddress} (h : m ≠ n) :
    (s.act net n finish rest result).originated m = s.originated m := by
  simp [act, originated, h]

/-- What has been originated stays so. -/
theorem originated_subset_act (m : MacAddress) :
    s.originated m ⊆ (s.act net n finish rest result).originated m := by
  by_cases hm : m = n
  · subst hm
    rw [originated_act_self]
    exact List.subset_append_left _ _
  · rw [originated_act_of_ne hm]
    exact List.Subset.refl _

end NetState

end Fbmeshd
