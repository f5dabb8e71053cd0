import Mathlib.Algebra.Group.Action.Defs
import Mathlib.Algebra.Order.BigOperators.Group.List
import Mathlib.Order.Monotone.Basic
import Fbmeshd.Network.Basic

/-!
# Deliveries come to an end

A delivered frame may be answered with a frame that has a full hop limit, and passed on to
every neighbour. A reply asks for no reply, and a copy has a smaller hop limit, so each frame
can cause a bounded number of deliveries, whatever the nodes' tables hold.
-/

namespace Fbmeshd

/-- A delivery among `nodes`. Before it, everything but the packets in flight may change, and
so may the neighbours that a broadcast reaches. -/
inductive Delivery (nodes : List MacAddress) : NetState → NetState → Prop
  | intro {s t : NetState} {before after : List Packet} {p : Packet} (net : Network)
      (hnodes : net.nodes = nodes) (hsame : t.flight = s.flight)
      (hflight : t.flight = before ++ p :: after) (stas : LinkMetrics) (clk : PannClock)
      (finish : ℤ) : Delivery nodes s (t.deliver net p (before ++ after) stas clk finish)

/-- The most deliveries that a frame causes, its own included, when no transmission reaches
more than `fanout` nodes and the replies to one delivery cause at most `replies` others. -/
def hopWeight (fanout replies : ℕ) : ℕ → ℕ
  | 0 => 1 + replies
  | ttl + 1 => 1 + replies + fanout * hopWeight fanout replies ttl

/-- The most deliveries that the reply to one delivery causes. A reply asks for no reply, but
it may have any hop limit. -/
def replyWeight (fanout : ℕ) : ℕ := fanout * hopWeight fanout 0 255

/-- The most deliveries that replies to one delivery of the frame cause. -/
def repliesWeight (fanout : ℕ) (frame : MeshPathFramePANN) : ℕ :=
  if frame.replyRequested then replyWeight fanout else 0

/-- The weight of a frame. -/
def frameWeight (fanout : ℕ) (frame : MeshPathFramePANN) : ℕ :=
  hopWeight fanout (repliesWeight fanout frame) frame.ttl.toNat

/-- The weight of all packets in flight. -/
def flightWeight (fanout : ℕ) (flight : List Packet) : ℕ :=
  (flight.map fun p => frameWeight fanout p.frame).sum

/-- The weight of what a node sends, if every transmission reaches `fanout` nodes. -/
def sentWeight (fanout : ℕ) (out : List Transmission) : ℕ :=
  (out.map fun t => fanout * frameWeight fanout t.2).sum

private theorem le_hopWeight (fanout replies ttl : ℕ) :
    1 + replies ≤ hopWeight fanout replies ttl := by
  cases ttl with
  | zero => exact le_rfl
  | succ ttl => exact Nat.le_add_right _ _

private theorem hopWeight_mono {fanout : ℕ} (hpos : 0 < fanout) (replies : ℕ) :
    Monotone (hopWeight fanout replies) := by
  refine monotone_nat_of_le_succ fun ttl => ?_
  calc hopWeight fanout replies ttl
      ≤ fanout * hopWeight fanout replies ttl := Nat.le_mul_of_pos_left _ hpos
    _ ≤ hopWeight fanout replies (ttl + 1) := Nat.le_add_left _ _

private theorem flightWeight_append (fanout : ℕ) (left right : List Packet) :
    flightWeight fanout (left ++ right) = flightWeight fanout left + flightWeight fanout right := by
  simp [flightWeight]

private theorem sentWeight_append (fanout : ℕ) (left right : List Transmission) :
    sentWeight fanout (left ++ right) = sentWeight fanout left + sentWeight fanout right := by
  simp [sentWeight]

private theorem Network.receivers_length_le (net : Network) (src da : MacAddress) :
    (net.receivers src da).length ≤ net.nodes.length + 1 := by
  unfold receivers
  split
  · exact (List.length_filter_le _ _).trans (Nat.le_succ _)
  · split <;> simp

/-- The packets of one transmission all carry its frame. -/
theorem Network.flightWeight_packets_le (net : Network) (src : MacAddress)
    (out : List Transmission) :
    flightWeight (net.nodes.length + 1) (net.packets src out) ≤
      sentWeight (net.nodes.length + 1) out := by
  induction out with
  | nil => simp [packets, flightWeight, sentWeight]
  | cons t out ih =>
    have hcons : net.packets src (t :: out) =
        ((net.receivers src t.1).map fun dst => ⟨src, dst, t.2⟩) ++ net.packets src out := rfl
    have hone : flightWeight (net.nodes.length + 1)
        ((net.receivers src t.1).map fun dst => ⟨src, dst, t.2⟩) =
          (net.receivers src t.1).length * frameWeight (net.nodes.length + 1) t.2 := by
      simp only [flightWeight, List.map_map, Function.comp_def, List.map_const',
        List.sum_replicate, smul_eq_mul]
    have hle := Nat.mul_le_mul_right (frameWeight (net.nodes.length + 1) t.2)
      (net.receivers_length_le src t.1)
    rw [hcons, flightWeight_append, hone]
    simp only [sentWeight, List.map_cons, List.sum_cons] at ih ⊢
    omega

/-- A copy is lighter than its frame, by one delivery and the replies to it. -/
theorem sentWeight_forwardFrames (fanout : ℕ) (clk : PannClock) (da : MacAddress)
    (pann : MeshPathFramePANN) (metric : UInt32) (oldHasOrig : Bool) (r : Routing) :
    1 + repliesWeight fanout pann +
      sentWeight fanout (r.forwardFrames clk da pann metric oldHasOrig) ≤
        frameWeight fanout pann := by
  rw [Routing.forwardFrames_eq]
  split
  next hforwards =>
    simp only [Routing.forwards, Bool.and_eq_true, decide_eq_true_eq] at hforwards
    have hsub : (pann.ttl - 1).toNat = pann.ttl.toNat - 1 :=
      UInt8.toNat_sub_of_le _ _ (UInt8.le_of_lt hforwards.1.1)
    have hlt : 1 < pann.ttl.toNat := UInt8.lt_iff_toNat_lt.mp hforwards.1.1
    have hsucc : pann.ttl.toNat = (pann.ttl - 1).toNat + 1 := by omega
    have hcopy : sentWeight fanout [Routing.forwardedFrame da pann metric] =
        fanout * hopWeight fanout (repliesWeight fanout pann) (pann.ttl - 1).toNat := by
      simp [sentWeight, frameWeight, repliesWeight, Routing.forwardedFrame, Routing.txPannFrame]
    rw [hcopy, frameWeight, hsucc, hopWeight]
  next => exact le_hopWeight ..

/-- A reply weighs at most as much as a frame with the greatest hop limit. -/
theorem sentWeight_replyFrames {fanout : ℕ} (hpos : 0 < fanout) (sa : MacAddress)
    (pann : MeshPathFramePANN) (r : Routing) :
    sentWeight fanout (r.replyFrames sa pann).2 ≤ repliesWeight fanout pann := by
  unfold Routing.replyFrames repliesWeight
  split
  · have httl : r.elementTtl.toUInt8.toNat ≤ 255 := Nat.le_of_lt_succ (UInt8.toNat_lt _)
    have hreply := Nat.mul_le_mul_left fanout (hopWeight_mono hpos 0 httl)
    simpa [sentWeight, frameWeight, repliesWeight, Routing.txPannFrame, replyWeight] using hreply
  · simp [sentWeight]

/-- What a node sends for a frame weighs less than the frame. -/
theorem sentWeight_process_lt {fanout : ℕ} (hpos : 0 < fanout) (stas : LinkMetrics)
    (clk : PannClock) (sa : MacAddress) (pann : MeshPathFramePANN) (r : Routing) :
    sentWeight fanout (r.hwmpPannFrameProcess stas clk sa pann).2 < frameWeight fanout pann := by
  have hzero : sentWeight fanout [] < frameWeight fanout pann := by
    have hle : 1 + repliesWeight fanout pann ≤ frameWeight fanout pann := le_hopWeight ..
    simp only [sentWeight, List.map_nil, List.sum_nil]
    omega
  obtain ⟨-, h⟩ | ⟨l, da, -, ⟨-, h⟩ | ⟨-, oldHasOrig, h⟩⟩ :=
    Routing.process_cases stas clk sa pann r
  · rw [h]
    exact hzero
  · rw [h]
    exact hzero
  · rw [h, Routing.acceptPann_snd, sentWeight_append]
    have hreply := sentWeight_replyFrames hpos sa pann (r.afterGetMeshPath clk pann)
    have hcopy := sentWeight_forwardFrames fanout clk da pann (newMetric pann.metric l) oldHasOrig
      (Routing.acceptPann clk sa pann l da oldHasOrig (r.testedPath clk pann)
        (r.afterGetMeshPath clk pann)).1
    omega

/-- Every delivery lowers the weight of the packets in flight. -/
theorem Delivery.flightWeight_lt {nodes : List MacAddress} {s s' : NetState}
    (h : Delivery nodes s s') :
    flightWeight (nodes.length + 1) s'.flight < flightWeight (nodes.length + 1) s.flight := by
  obtain @⟨t, before, after, p, net, rfl, hsame, hflight, stas, clk, finish⟩ := h
  have hsent := net.flightWeight_packets_le p.dst
    ((t.node p.dst).hwmpPannFrameProcess stas clk p.src p.frame).2
  have hlt := sentWeight_process_lt (Nat.zero_lt_succ net.nodes.length) stas clk p.src p.frame
    (t.node p.dst)
  have hcons : flightWeight (net.nodes.length + 1) (p :: after) =
      frameWeight (net.nodes.length + 1) p.frame +
        flightWeight (net.nodes.length + 1) after := rfl
  rw [← hsame, hflight, NetState.deliver, NetState.act]
  simp only [flightWeight_append, hcons]
  rw [Nat.succ_eq_add_one] at hlt
  omega

/-- From any state, with any frames in flight, a sequence of deliveries is at most as long as
the weight of the packets, and there is no infinite one. -/
theorem no_pann_storm (nodes : List MacAddress) (s : NetState) :
    (∀ (run : ℕ → NetState) (n : ℕ), run 0 = s →
      (∀ k < n, Delivery nodes (run k) (run (k + 1))) →
        n ≤ flightWeight (nodes.length + 1) s.flight) ∧
    ¬ ∃ run : ℕ → NetState, run 0 = s ∧ ∀ k, Delivery nodes (run k) (run (k + 1)) := by
  have hbound (run : ℕ → NetState) (n : ℕ) (hstart : run 0 = s)
      (hrun : ∀ k < n, Delivery nodes (run k) (run (k + 1))) :
      n + flightWeight (nodes.length + 1) (run n).flight ≤
        flightWeight (nodes.length + 1) s.flight := by
    induction n with
    | zero => simp [hstart]
    | succ n ih =>
      have hprev := ih fun k hk => hrun k (by omega)
      have hlt := (hrun n (by omega)).flightWeight_lt
      omega
  refine ⟨fun run n hstart hrun => ?_, ?_⟩
  · have := hbound run n hstart hrun
    omega
  · rintro ⟨run, hstart, hrun⟩
    have := hbound run (flightWeight (nodes.length + 1) s.flight + 1) hstart fun k _ => hrun k
    omega

end Fbmeshd
