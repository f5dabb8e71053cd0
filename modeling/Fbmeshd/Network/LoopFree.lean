import Fbmeshd.Network.Links

/-!
# Next hops form no loop

In a network with constant links and ordered channels, the accepted paths to a destination
follow ranked routes: a newer sequence number ranks below an older one, and the metric
decides among equal ones.
-/

namespace Fbmeshd

/-- Newer sequence numbers first, then smaller metrics. -/
def announcementRank (sn : UInt64) (metric : UInt32) : ℕ :=
  (2 ^ 64 - 1 - sn.toNat) * 2 ^ 32 + metric.toNat

private theorem announcementRank_add {sn : UInt64} {metric metric' : UInt32} {w : ℕ}
    (h : metric'.toNat = metric.toNat + w) :
    announcementRank sn metric' = announcementRank sn metric + w := by
  unfold announcementRank
  omega

/-- A number that is not older and a difference in the metric. -/
theorem announcementRank_add_le {sn sn' : UInt64} {metric metric' : UInt32} {w : ℕ}
    (hsn : sn ≤ sn') (hmetric : metric'.toNat + w ≤ metric.toNat) :
    announcementRank sn' metric' + w ≤ announcementRank sn metric := by
  have hnat : sn.toNat ≤ sn'.toNat := UInt64.le_iff_toNat_le.mp hsn
  unfold announcementRank
  omega

/-- The invariant of a network with links. -/
structure LinkInvariant (net : LinkNetwork) (s : NetState) : Prop
    extends FrameInvariant net.toNetwork s where
  bounded : ∀ p ∈ s.flight, p.frame.metric.toNat ≤ p.frame.hopCount.toNat * (2 ^ 24 - 1)
  /-- A path straight to its destination has the metric of the link. -/
  adjacent : ∀ n a q, s.livePath n a = some q → q.nextHop = a → net.link n a = some q.metric
  /-- The entries that are not expired are those for which a frame was accepted. -/
  accepted : ∀ n a q, (s.node n).meshPaths.find a = some q →
    (s.clock n ≤ q.expTime ↔ q ≠ MeshPath.create a q.expTime)

namespace LinkInvariant

variable {net : LinkNetwork} {s s' : NetState}

private theorem start (net : LinkNetwork) (clock : MacAddress → ℤ) :
    LinkInvariant net (net.start clock) := by
  refine ⟨.start _ clock, ?_, ?_, ?_⟩ <;>
    simp [Network.start, Network.newNode, NetState.livePath, MeshPaths.live]

/-- The metric of an accepted frame is the sum of the advertised one and the link's. -/
theorem newMetric_toNat (h : LinkInvariant net s) {p : Packet} (hp : p ∈ s.flight) {w : UInt32}
    (hw : net.link p.dst p.src = some w) :
    (newMetric p.frame.metric w).toNat = p.frame.metric.toNat + w.toNat :=
  (h.hops p hp).newMetric_toNat (h.bounded p hp) (net.lt _ _ _ hw)

/-- A link's metric is accepted unchanged from the destination itself. -/
theorem newMetric_of_direct (h : LinkInvariant net s) {p : Packet} (hp : p ∈ s.flight)
    {w : UInt32} (hw : net.link p.dst p.src = some w) (hsrc : p.src = p.frame.origAddr) :
    newMetric p.frame.metric w = w := by
  apply UInt32.toNat_inj.mp
  rw [h.newMetric_toNat hp hw, (h.direct p hp hsrc).2]
  simp

section Deliver

variable {before after : List Packet} {p : Packet} {clk : PannClock} {finish : ℤ}

/-- A copy costs at most one more link. -/
theorem bounded_of_mem_packets (h : LinkInvariant net s) (hp : p ∈ s.flight) {x : Packet}
    (hx : x ∈ net.packets p.dst
      ((s.node p.dst).hwmpPannFrameProcess (net.link p.dst) clk p.src p.frame).2) :
    x.frame.metric.toNat ≤ x.frame.hopCount.toNat * (2 ^ 24 - 1) := by
  obtain ⟨-, w, da, hc, -, ⟨-, heq⟩ | ⟨-, heq⟩⟩ := Network.mem_packets_process hx
  · rw [heq]
    exact Nat.zero_le _
  · rw [heq]
    exact (h.hops p hp).newMetric_le (h.bounded p hp) (net.lt _ _ _ hc.station)

private theorem adjacent_deliver (h : LinkInvariant net s) (hp : p ∈ s.flight)
    (hno : (s.node p.dst).NoExpiry (net.link p.dst) clk p.src p.frame (s.clock p.dst) finish)
    (rest : List Packet) {n a : MacAddress} {q : MeshPath}
    (hq : (s.deliver net.toNetwork p rest (net.link p.dst) clk finish).livePath n a = some q)
    (hhop : q.nextHop = a) : net.link n a = some q.metric := by
  obtain ⟨-, -, hsame⟩ | ⟨w, da, hc, hd, hnew⟩ := LinkNetwork.deliver_cases rest hno
  · exact h.adjacent n a q ((hsame n a).symm.trans hq) hhop
  · by_cases hne : n = p.dst ∧ a = p.frame.origAddr
    · obtain ⟨rfl, rfl⟩ := hne
      obtain rfl := Option.some.inj (hnew.symm.trans hq)
      have hsrc : p.src = p.frame.origAddr := hhop
      change net.link p.dst p.frame.origAddr = some (newMetric p.frame.metric w)
      rw [h.newMetric_of_direct hp hc.station hsrc, ← hsrc, hc.station]
    · rw [LinkNetwork.livePath_deliver_of_ne hno (not_and_or.mp hne)] at hq
      exact h.adjacent n a q hq hhop

/-- An accepted frame leaves an entry that no `getMeshPath` has created. -/
theorem updatePath_ne_create (h : LinkInvariant net s) (hp : p ∈ s.flight) {q : MeshPath}
    {now expTime : ℤ} {timeout : ℕ} {w : UInt32} :
    Routing.updatePath q now timeout p.src p.frame w ≠
      MeshPath.create p.frame.origAddr expTime := by
  intro heq
  have hhops := congrArg (fun q => q.hopCount.toNat) heq
  change (p.frame.hopCount + 1).toNat = 0 at hhops
  rw [(h.hops p hp).toNat_succ] at hhops
  omega

/-- At the receiver, what is not expired after the frame has been accepted. -/
theorem accepted_process (h : LinkInvariant net s) (hp : p ∈ s.flight)
    (hno : (s.node p.dst).NoExpiry (net.link p.dst) clk p.src p.frame (s.clock p.dst) finish)
    {a : MacAddress} {q : MeshPath}
    (hq : ((s.node p.dst).hwmpPannFrameProcess (net.link p.dst) clk p.src
      p.frame).1.meshPaths.find a = some q) :
    finish ≤ q.expTime ↔ q ≠ MeshPath.create a q.expTime := by
  -- An entry that was there before.
  have hkept (hold : (s.node p.dst).meshPaths.find a = some q) :
      finish ≤ q.expTime ↔ q ≠ MeshPath.create a q.expTime := by
    rw [← h.accepted p.dst a q hold]
    exact ⟨hno.start_le_finish.trans, hno.before a q hold⟩
  by_cases ha : a = p.frame.origAddr
  · subst ha
    obtain ⟨-, hsame⟩ | ⟨w, da, hc, ⟨hd, -⟩ | ⟨hd, -⟩⟩ :=
      Routing.process_cases (net.link p.dst) clk p.src p.frame (s.node p.dst)
    · rw [hsame] at hq
      exact hkept hq
    · have hfind := Routing.process_find_of_discards hc hd
      obtain rfl := Option.some.inj (hfind.symm.trans hq)
      cases hold : (s.node p.dst).meshPaths.find p.frame.origAddr with
      | some q' =>
        rw [Routing.testedPath, MeshPaths.pathOrNew_of_find hold] at hkept ⊢
        exact hkept hold
      | none =>
        have hcreate := hno.fresh hold (by simp [hfind])
        have htest := hno.readings.test_le
        rw [Routing.testedPath, MeshPaths.pathOrNew_of_find_eq_none hold]
        simp only [MeshPath.create, ne_eq, not_true_eq_false, iff_false]
        omega
    · have hlive := hno.live_of_accepts hc hd
      rw [Routing.process_find_of_accepts hc hd] at hq
      obtain rfl := Option.some.inj hq
      exact iff_of_true (MeshPaths.live_eq_some.mp hlive).2 (h.updatePath_ne_create hp)
  · rw [Routing.process_find_of_ne _ clk p.src _ ha] at hq
    exact hkept hq

private theorem deliver (h : LinkInvariant net s) (hflight : s.flight = before ++ p :: after)
    (hno : (s.node p.dst).NoExpiry (net.link p.dst) clk p.src p.frame (s.clock p.dst) finish) :
    LinkInvariant net
      (s.deliver net.toNetwork p (before ++ after) (net.link p.dst) clk finish) := by
  have hp := NetState.mem_flight hflight
  have hrest := NetState.rest_subset hflight
  refine ⟨h.toFrameInvariant.step (.deliver hflight _ _ _), ?_, ?_, ?_⟩
  · intro x hx
    rcases List.mem_append.mp hx with hx | hx
    · exact h.bounded x (hrest hx)
    · exact h.bounded_of_mem_packets hp hx
  · exact fun n a q => h.adjacent_deliver hp hno _
  · intro n a q hq
    by_cases hn : n = p.dst
    · subst hn
      rw [NetState.deliver, NetState.act_node_self] at hq
      rw [NetState.deliver, NetState.act_clock_self]
      exact h.accepted_process hp hno hq
    · rw [NetState.deliver, NetState.act_node_of_ne hn] at hq
      rw [NetState.deliver, NetState.act_clock_of_ne hn]
      exact h.accepted n a q hq

end Deliver

private theorem callback (h : LinkInvariant net s) {n : MacAddress} {finish : ℤ}
    (hn : n ∈ net.nodes) {e : InternalEvent} (htimed : e.Timed (s.clock n) finish)
    (hstays : (s.node n).meshPaths.StaysLive (s.clock n) finish) :
    LinkInvariant net (s.callback net.toNetwork n e finish) := by
  refine ⟨h.toFrameInvariant.step (.callback hn e finish), ?_, ?_, ?_⟩
  · intro p hp
    rcases List.mem_append.mp hp with hp | hp
    · exact h.bounded p hp
    · rw [(Network.mem_packets_callback hp).2]
      exact Nat.zero_le _
  · intro m a q hq
    rw [LinkNetwork.livePath_callback htimed hstays] at hq
    exact h.adjacent m a q hq
  · intro m a q hq
    by_cases hm : m = n
    · subst hm
      have hold : (s.node m).meshPaths.find a = some q := by
        rw [NetState.callback, NetState.act_node_self] at hq
        rw [e.apply_meshPaths] at hq
        exact InternalEvent.find_of_find_purge hq
      rw [NetState.callback, NetState.act_clock_self, ← h.accepted m a q hold]
      exact ⟨htimed.le.trans, hstays a q hold⟩
    · rw [NetState.callback, NetState.act_node_of_ne hm] at hq
      rw [NetState.callback, NetState.act_clock_of_ne hm]
      exact h.accepted m a q hq

/-- One step of the network. -/
theorem step (h : LinkInvariant net s) (hstep : net.Step s s') : LinkInvariant net s' := by
  have hframes := h.toFrameInvariant.step hstep.toNetwork
  cases hstep with
  | deliver hdel =>
    cases hdel with
    | intro hflight _ hno => exact h.deliver hflight hno
  | lose hflight =>
    have hrest := NetState.rest_subset hflight
    exact ⟨hframes, fun x hx => h.bounded x (hrest hx), h.adjacent, h.accepted⟩
  | callback hn e htimed hstays => exact h.callback hn htimed hstays

/-- The invariant holds in every run. -/
theorem of_reachable (hreach : net.Reachable s) : LinkInvariant net s := by
  induction hreach with
  | start clock => exact .start net clock
  | step _ hstep ih => exact ih.step hstep

/-! ## The routes of a run -/

/-- What a delivered frame of another originator makes the receiver send about `D` is an
announcement of the receiver's own. -/
theorem src_of_mem_messages (h : LinkInvariant net s) {D : MacAddress} {p : Packet}
    {clk : PannClock} (horig : p.frame.origAddr ≠ D) :
    ∀ m ∈ messages announcementRank D (net.packets p.dst
      ((s.node p.dst).hwmpPannFrameProcess (net.link p.dst) clk p.src p.frame).2), m.src = D := by
  intro m hm
  obtain ⟨x, hx, hxorig, rfl⟩ := mem_messages.mp hm
  obtain ⟨hsrc, w, da, -, -, ⟨-, heq⟩ | ⟨-, heq⟩⟩ := Network.mem_packets_process hx
  · rw [heq] at hxorig
    exact hsrc.trans ((h.addr p.dst).symm.trans hxorig)
  · rw [heq] at hxorig
    exact absurd hxorig horig

/-- What is passed on of a frame of `D` ranks above it by the metric of the link. -/
theorem rank_of_mem_messages (h : LinkInvariant net s) {p : Packet} (hp : p ∈ s.flight)
    {clk : PannClock} {w : UInt32} (hw : net.link p.dst p.src = some w)
    (hdst : p.dst ≠ p.frame.origAddr) :
    ∀ m ∈ messages announcementRank p.frame.origAddr (net.packets p.dst
      ((s.node p.dst).hwmpPannFrameProcess (net.link p.dst) clk p.src p.frame).2),
      m.src = p.dst ∧ m.rank = (p.message announcementRank).rank + w.toNat := by
  intro m hm
  obtain ⟨x, rfl, hsrc, da, heq⟩ :=
    copy_of_mem_messages_packets hm (by rwa [h.addr p.dst]) hw
  refine ⟨hsrc, ?_⟩
  rw [Packet.message, heq]
  exact announcementRank_add (h.newMetric_toNat hp hw)

/-- An accepted frame is one that the ranks admit. -/
theorem admits (h : LinkInvariant net s) {p : Packet} (hp : p ∈ s.flight) {clk : PannClock}
    {finish : ℤ} {w : UInt32} {da : MacAddress}
    (hno : (s.node p.dst).NoExpiry (net.link p.dst) clk p.src p.frame (s.clock p.dst) finish)
    (hc : Routing.Considers (net.link p.dst) clk p.src p.frame (s.node p.dst) w da)
    (hd : (s.node p.dst).discards clk p.src p.frame w = false) :
    ∀ l, (s.routes announcementRank p.frame.origAddr).label p.dst = some l →
      l.Admits p.frame.origAddr p.src (p.message announcementRank).rank w.toNat := by
  intro l hl
  obtain ⟨q, hq, rfl⟩ := Option.map_eq_some_iff.mp hl
  have hsum := h.newMetric_toNat hp hc.station
  -- The first rule has let the frame pass although the path is live.
  have hrule : ¬ (p.frame.origSn < q.sn ∨
      (q.nextHop ≠ p.src ∧ q.metric ≤ newMetric p.frame.metric w)) := by
    intro hbad
    have hignores := (hno.ignores_iff hc p.frame.origSn _).mpr ⟨q, hq, hbad⟩
    simp [Routing.discards, hignores] at hd
  rw [not_or, UInt64.not_lt, not_and_or, not_not, UInt32.not_le] at hrule
  obtain ⟨hsn, hhop | hbetter⟩ := hrule
  · refine .inl ⟨hhop, fun hsrc => ?_⟩
    have hadjacent := h.adjacent p.dst p.frame.origAddr q hq (hhop.trans hsrc)
    rw [← hsrc, hc.station] at hadjacent
    refine announcementRank_add_le hsn ?_
    rw [← Option.some.inj hadjacent, (h.direct p hp hsrc).2]
    simp
  · right
    have hlt : (newMetric p.frame.metric w).toNat < q.metric.toNat :=
      UInt32.lt_iff_toNat_lt.mp hbetter
    have hle : announcementRank p.frame.origSn p.frame.metric + (w.toNat + 1) ≤
        announcementRank q.sn q.metric := announcementRank_add_le hsn (by omega)
    exact hle

/-- Each step of the network is a step of the ranked routes to `D`, or changes none. -/
theorem simulates (h : LinkInvariant net s) (hstep : net.Step s s') (D : MacAddress) :
    s'.routes announcementRank D = s.routes announcementRank D ∨
      DistanceVector.Step net.links D (s.routes announcementRank D)
        (s'.routes announcementRank D) := by
  cases hstep with
  | deliver hdel =>
    obtain @⟨before, after, p, clk, finish, hflight, hfirst, hno⟩ := hdel
    have hp := NetState.mem_flight hflight
    by_cases horig : p.frame.origAddr = D
    · subst horig
      have hsplit : (s.routes announcementRank p.frame.origAddr).flight = _ :=
        (congrArg _ hflight).trans (messages_split_of_eq rfl)
      right
      obtain ⟨-, hquiet, hsame⟩ | ⟨w, da, hc, hd, hnew⟩ :=
        LinkNetwork.deliver_cases (before ++ after) hno
      · rw [routes_of_livePath_eq fun n => hsame n _, hquiet, messages_append]
        exact .discard hsplit
      · have hdst : p.dst ≠ p.frame.origAddr := fun heq =>
          hc.orig_ne (heq.symm.trans (h.addr p.dst).symm)
        rw [routes_deliver_of_accepts announcementRank hno hnew
          (announcementRank_add (h.newMetric_toNat hp hc.station))]
        refine .accept hsplit ?_ hdst (LinkNetwork.cost_of_link hc.station)
          (h.admits hp hno hc hd) (h.rank_of_mem_messages hp hc.station hdst)
        intro x hx
        obtain ⟨y, hy, -, rfl⟩ := mem_messages.mp hx
        exact hfirst y hy
    · have hrest : messages announcementRank D (before ++ after) =
          (s.routes announcementRank D).flight :=
        (messages_rest_of_ne horig).trans (congrArg _ hflight.symm)
      have hlive (n : MacAddress) : (s.deliver net.toNetwork p (before ++ after)
          (net.link p.dst) clk finish).livePath n D = s.livePath n D :=
        LinkNetwork.livePath_deliver_of_ne hno (.inr (Ne.symm horig))
      right
      rw [routes_of_livePath_eq hlive, NetState.deliver, NetState.act, messages_append, hrest]
      exact .originate (h.src_of_mem_messages horig)
  | @lose before after p hflight =>
    have hroutes : NetState.routes announcementRank D { s with flight := before ++ after } =
        { s.routes announcementRank D with
          flight := messages announcementRank D (before ++ after) } :=
      routes_of_livePath_eq fun _ => rfl
    rw [hroutes]
    by_cases horig : p.frame.origAddr = D
    · right
      rw [messages_append]
      exact .discard ((congrArg _ hflight).trans (messages_split_of_eq horig))
    · left
      rw [messages_rest_of_ne horig, ← hflight]
      rfl
  | @callback n finish hn e htimed hstays =>
    right
    rw [routes_of_livePath_eq fun m => LinkNetwork.livePath_callback htimed hstays m D,
      NetState.callback, NetState.act, messages_append]
    refine .originate fun m hm => ?_
    obtain ⟨x, hx, hxorig, rfl⟩ := mem_messages.mp hm
    obtain ⟨hsrc, heq⟩ := Network.mem_packets_callback hx
    rw [heq] at hxorig
    exact hsrc.trans ((h.addr n).symm.trans hxorig)

/-- In every run the routes to a destination keep the invariant of distance vectors. -/
theorem routes_invariant (hreach : net.Reachable s) (D : MacAddress) :
    DistanceVector.Invariant net.links D (s.routes announcementRank D) := by
  induction hreach with
  | start clock =>
    refine .init (fun n => ?_) rfl
    simp [NetState.routes, NetState.livePath, Network.start, Network.newNode, MeshPaths.live]
  | step hreach hstep ih =>
    rcases (of_reachable hreach).simulates hstep D with hsame | hroutes
    · rwa [hsame]
    · exact ih.step hroutes

end LinkInvariant

/-- The node `n` has accepted a path to `D` with next hop `m`. -/
def NetState.NextHop (s : NetState) (D n m : MacAddress) : Prop :=
  ∃ q, (s.node n).meshPaths.find D = some q ∧ q ≠ MeshPath.create D q.expTime ∧ q.nextHop = m

namespace LinkNetwork

variable {net : LinkNetwork} {s : NetState}

/-- The accepted paths are the routes. -/
theorem nextHop_iff (h : LinkInvariant net s) {D n m : MacAddress} :
    s.NextHop D n m ↔ (s.routes announcementRank D).RoutesThrough n m := by
  constructor
  · rintro ⟨q, hq, haccepted, rfl⟩
    have hlive : s.livePath n D = some q :=
      MeshPaths.live_eq_some.mpr ⟨hq, (h.accepted n D q hq).mpr haccepted⟩
    exact ⟨q.label announcementRank, Option.map_eq_some_iff.mpr ⟨q, hlive, rfl⟩, rfl⟩
  · rintro ⟨l, hl, rfl⟩
    obtain ⟨q, hlive, rfl⟩ := Option.map_eq_some_iff.mp hl
    obtain ⟨hq, hle⟩ := MeshPaths.live_eq_some.mp hlive
    exact ⟨q, hq, (h.accepted n D q hq).mp hle, rfl⟩

/-- In every run the next hops of the accepted paths to a destination form no cycle, and from
every node that has such a path they lead to the destination. -/
theorem nextHops_loop_free (hreach : net.Reachable s) (D : MacAddress) :
    (∀ n, ¬ Relation.TransGen (s.NextHop D) n n) ∧
    ∀ n m, s.NextHop D n m → Relation.TransGen (s.NextHop D) n D := by
  have hinv := LinkInvariant.of_reachable hreach
  have hroutes := LinkInvariant.routes_invariant hreach D
  have hsame : s.NextHop D = (s.routes announcementRank D).RoutesThrough := by
    funext n m
    exact propext (nextHop_iff hinv)
  rw [hsame]
  refine ⟨hroutes.acyclic, ?_⟩
  rintro n m ⟨l, hl, -⟩
  exact hroutes.reaches hl

/-- Station 2 has heard the first announcement of station 1. -/
theorem first_announcement_loop_free :
    ∃ s, triangleLinks.Reachable s ∧ s.NextHop 1 2 1 ∧ Relation.TransGen (s.NextHop 1) 2 1 := by
  let clk := Routing.clockAt 0 1
  let s₁ := (triangle.start fun _ => 0).callback triangle 1 (.setGatewayStatus true 0) 0
  let p : Packet := ⟨1, 2, 1, 1, 0, 32, .BROADCAST, 0, true, true⟩
  let rest : List Packet := [⟨1, 3, 1, 1, 0, 32, .BROADCAST, 0, true, true⟩]
  let s₂ := s₁.deliver triangle p rest (triangleLinks.link 2) clk 1
  have hstays : (triangle.newNode 1).meshPaths.StaysLive 0 0 := by simp [MeshPaths.StaysLive]
  have hnode : s₁.node 2 = triangle.newNode 2 := NetState.act_node_of_ne (by decide)
  have hno : (s₁.node 2).NoExpiry (triangleLinks.link 2) clk 1 p.frame 0 1 :=
    .of_empty (by rw [hnode]; rfl) le_rfl (by decide)
  have hreach₁ : triangleLinks.Reachable s₁ :=
    .step (.start fun _ => 0) (.callback (by decide) _ ⟨le_rfl, le_rfl⟩ hstays)
  have hflight : s₁.flight = [] ++ p :: rest := by decide
  have hreach₂ : triangleLinks.Reachable s₂ :=
    .step hreach₁ (.deliver (.intro hflight (by simp) hno))
  have hhop : s₂.NextHop 1 2 1 :=
    ⟨Routing.updatePath (.create 1 0) 1 30000 1 p.frame 10, by decide, by decide, by decide⟩
  exact ⟨s₂, hreach₂, hhop, (nextHops_loop_free hreach₂ 1).2 2 1 hhop⟩

end LinkNetwork

end Fbmeshd
