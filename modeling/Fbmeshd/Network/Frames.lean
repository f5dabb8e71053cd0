import Fbmeshd.Network.Basic

/-!
# Hop counts and sequence numbers in a network

Whatever is lost, duplicated or reordered, the hop count and the hop limit of a frame add up
to what its originator started with, and its sequence number is one the originator has used.
-/

namespace Fbmeshd

/-- The sequence numbers used in `k` originations from zero. -/
def countedSns (k : ℕ) : List UInt64 := (List.range k).map fun i => UInt64.ofNat (i + 1)

private theorem countedSns_succ (k : ℕ) :
    countedSns (k + 1) = countedSns k ++ [UInt64.ofNat (k + 1)] := by
  simp [countedSns, List.range_succ]

/-- The hop fields of a frame that `elementTtl` limits. -/
structure HopFields (elementTtl : UInt32) (frame : MeshPathFramePANN) : Prop where
  sum : frame.hopCount.toNat + frame.ttl.toNat = elementTtl.toNat % 256
  /-- Only a frame of its originator may have an exhausted limit. -/
  live : 1 ≤ frame.ttl.toNat ∨ frame.hopCount = 0

namespace HopFields

variable {elementTtl : UInt32} {frame : MeshPathFramePANN}

/-- The hop count can be raised without wrapping. -/
theorem succ_lt (h : HopFields elementTtl frame) : frame.hopCount.toNat + 1 < 256 := by
  have hsum := h.sum
  rcases h.live with hlive | hzero
  · omega
  · simp [hzero]

/-- One more hop does not wrap. -/
theorem toNat_succ (h : HopFields elementTtl frame) :
    (frame.hopCount + 1).toNat = frame.hopCount.toNat + 1 := by
  have hlt := h.succ_lt
  rw [UInt8.toNat_add]
  exact Nat.mod_eq_of_lt hlt

/-- The hop count that a receiver stores. -/
theorem succ_le (h : HopFields elementTtl frame) :
    (frame.hopCount + 1).toNat ≤ max 1 (elementTtl.toNat % 256) := by
  have hsum := h.sum
  rw [h.toNat_succ]
  rcases h.live with hlive | hzero
  · omega
  · simp [hzero]

/-- A frame that is passed on. -/
theorem forward (h : HopFields elementTtl frame) (httl : 1 < frame.ttl) {da : MacAddress}
    {metric : UInt32} : HopFields elementTtl (Routing.forwardedFrame da frame metric).2 := by
  have hsum := h.sum
  have hlt : 1 < frame.ttl.toNat := UInt8.lt_iff_toNat_lt.mp httl
  have hsub : (frame.ttl - 1).toNat = frame.ttl.toNat - 1 :=
    UInt8.toNat_sub_of_le _ _ (UInt8.le_of_lt httl)
  constructor
  · change (frame.hopCount + 1).toNat + (frame.ttl - 1).toNat = _
    rw [h.toNat_succ, hsub]
    omega
  · left
    change 1 ≤ (frame.ttl - 1).toNat
    omega

/-- A frame of its originator. -/
theorem fresh {frame : MeshPathFramePANN} (hhops : frame.hopCount = 0)
    (httl : frame.ttl = elementTtl.toUInt8) : HopFields elementTtl frame := by
  refine ⟨?_, .inr hhops⟩
  rw [hhops, httl]
  simp

end HopFields

/-- The invariant of the frames and of the entries made from them. -/
structure FrameInvariant (net : Network) (s : NetState) : Prop where
  addr : ∀ n, (s.node n).nodeAddr = n
  ttl : ∀ n, (s.node n).elementTtl = net.elementTtl n
  counted : ∀ n, s.originated n = countedSns (s.originated n).length
  sn : ∀ n, (s.node n).sn = UInt64.ofNat (s.originated n).length
  hops : ∀ p ∈ s.flight, HopFields (net.elementTtl p.frame.origAddr) p.frame
  used : ∀ p ∈ s.flight, p.frame.origSn ∈ s.originated p.frame.origAddr
  /-- A packet that comes from its originator has made no hop and costs nothing yet. -/
  direct : ∀ p ∈ s.flight, p.src = p.frame.origAddr → p.frame.hopCount = 0 ∧ p.frame.metric = 0
  stored : ∀ n a q, (s.node n).meshPaths.find a = some q → q = MeshPath.create a q.expTime ∨
    (1 ≤ q.hopCount.toNat ∧ q.hopCount.toNat ≤ max 1 ((net.elementTtl a).toNat % 256) ∧
      q.sn ∈ s.originated a)

namespace FrameInvariant

variable {net : Network} {s : NetState}

/-- The invariant holds at the start. -/
theorem start (net : Network) (clock : MacAddress → ℤ) : FrameInvariant net (net.start clock) := by
  constructor <;> simp [Network.start, Network.newNode, NetState.originated, countedSns,
    Routing.originatedSns]

/-- Packets may vanish and be copied. -/
theorem of_subset (h : FrameInvariant net s) {flight : List Packet} (hsub : flight ⊆ s.flight) :
    FrameInvariant net { s with flight } :=
  ⟨h.addr, h.ttl, h.counted, h.sn, fun p hp => h.hops p (hsub hp), fun p hp => h.used p (hsub hp),
    fun p hp => h.direct p (hsub hp), h.stored⟩

/-- What the node `n` may do: it keeps its parameters, counts its originations, sends frames
with sound fields, and stores entries with sound fields. -/
structure Sound (net : Network) (s : NetState) (n : MacAddress)
    (result : Routing × List Transmission) : Prop where
  addr : result.1.nodeAddr = n
  ttl : result.1.elementTtl = net.elementTtl n
  counts : Routing.CountsUp n (s.node n).sn result
  hops : ∀ t ∈ result.2, HopFields (net.elementTtl t.2.origAddr) t.2
  used : ∀ t ∈ result.2, t.2.origAddr = n ∨ t.2.origSn ∈ s.originated t.2.origAddr
  direct : ∀ t ∈ result.2, t.2.origAddr = n → t.2.hopCount = 0 ∧ t.2.metric = 0
  stored : ∀ a q, result.1.meshPaths.find a = some q →
    (s.node n).meshPaths.find a = some q ∨ q = MeshPath.create a q.expTime ∨
      (1 ≤ q.hopCount.toNat ∧ q.hopCount.toNat ≤ max 1 ((net.elementTtl a).toNat % 256) ∧
        q.sn ∈ s.originated a)

/-- The acting node counts its originations. -/
theorem counted_act (h : FrameInvariant net s) {n : MacAddress}
    {result : Routing × List Transmission} (hcounts : Routing.CountsUp n (s.node n).sn result)
    (rest : List Packet) (finish : ℤ) :
    (s.act net n finish rest result).originated n =
      countedSns ((s.act net n finish rest result).originated n).length ∧
    result.1.sn = UInt64.ofNat ((s.act net n finish rest result).originated n).length := by
  rw [NetState.originated_act_self]
  rcases hcounts with ⟨hnone, hsn⟩ | ⟨hone, hsn⟩
  · rw [hnone, List.append_nil, hsn]
    exact ⟨h.counted n, h.sn n⟩
  · rw [hone, hsn, List.length_append, List.length_singleton, countedSns_succ, ← h.counted n,
      h.sn n, UInt64.ofNat_add]
    exact ⟨rfl, rfl⟩

private theorem act (h : FrameInvariant net s) {n : MacAddress}
    {result : Routing × List Transmission} (hsound : Sound net s n result) {rest : List Packet}
    (hrest : rest ⊆ s.flight) (finish : ℤ) :
    FrameInvariant net (s.act net n finish rest result) := by
  have hgrow (m : MacAddress) : s.originated m ⊆ (s.act net n finish rest result).originated m :=
    NetState.originated_subset_act m
  have hcount := h.counted_act hsound.counts rest finish
  refine ⟨?_, ?_, ?_, ?_, ?_, ?_, ?_, ?_⟩
  · exact NetState.forall_act_node (P := fun m r => r.nodeAddr = m) hsound.addr h.addr
  · exact NetState.forall_act_node (P := fun m r => r.elementTtl = net.elementTtl m) hsound.ttl
      h.ttl
  · intro m
    by_cases hm : m = n
    · subst hm
      exact hcount.1
    · rw [NetState.originated_act_of_ne hm]
      exact h.counted m
  · intro m
    by_cases hm : m = n
    · subst hm
      rw [NetState.act_node_self]
      exact hcount.2
    · rw [NetState.act_node_of_ne hm, NetState.originated_act_of_ne hm]
      exact h.sn m
  · intro p hp
    rcases List.mem_append.mp hp with hp | hp
    · exact h.hops p (hrest hp)
    · obtain ⟨-, da, ht, -⟩ := Network.mem_packets hp
      exact hsound.hops _ ht
  · intro p hp
    rcases List.mem_append.mp hp with hp | hp
    · exact hgrow _ (h.used p (hrest hp))
    · obtain ⟨-, da, ht, -⟩ := Network.mem_packets hp
      by_cases horig : p.frame.origAddr = n
      · rw [horig, NetState.originated_act_self]
        refine List.mem_append_right _ (List.mem_map.mpr ⟨(da, p.frame), ?_, rfl⟩)
        exact List.mem_filter.mpr ⟨ht, by simpa using horig⟩
      · exact hgrow _ ((hsound.used _ ht).resolve_left horig)
  · intro p hp hsrc
    rcases List.mem_append.mp hp with hp | hp
    · exact h.direct p (hrest hp) hsrc
    · obtain ⟨hn, da, ht, -⟩ := Network.mem_packets hp
      exact hsound.direct _ ht (hsrc.symm.trans hn)
  · intro m a q hq
    have hold (hq : (s.node m).meshPaths.find a = some q) : q = MeshPath.create a q.expTime ∨
        (1 ≤ q.hopCount.toNat ∧ q.hopCount.toNat ≤ max 1 ((net.elementTtl a).toNat % 256) ∧
          q.sn ∈ (s.act net n finish rest result).originated a) := by
      rcases h.stored m a q hq with hnew | ⟨hone, hmax, hsn⟩
      · exact .inl hnew
      · exact .inr ⟨hone, hmax, hgrow a hsn⟩
    by_cases hm : m = n
    · subst hm
      rw [NetState.act_node_self] at hq
      rcases hsound.stored a q hq with hq | hnew | ⟨hone, hmax, hsn⟩
      · exact hold hq
      · exact .inl hnew
      · exact .inr ⟨hone, hmax, hgrow a hsn⟩
    · rw [NetState.act_node_of_ne hm] at hq
      exact hold hq

/-- Processing a frame in flight is sound. -/
theorem sound_process (h : FrameInvariant net s) {p : Packet} (hp : p ∈ s.flight)
    (stas : LinkMetrics) (clk : PannClock) :
    Sound net s p.dst ((s.node p.dst).hwmpPannFrameProcess stas clk p.src p.frame) := by
  have haddr := h.addr p.dst
  have hhops := h.hops p hp
  -- The three facts about frames follow from the two kinds of frames sent.
  have hsent {t : Transmission}
      (ht : t ∈ ((s.node p.dst).hwmpPannFrameProcess stas clk p.src p.frame).2) :
      HopFields (net.elementTtl t.2.origAddr) t.2 ∧
        (t.2.origAddr = p.dst ∨ t.2.origSn ∈ s.originated t.2.origAddr) ∧
        (t.2.origAddr = p.dst → t.2.hopCount = 0 ∧ t.2.metric = 0) := by
    obtain ⟨l, da, hc, -, ⟨-, rfl⟩ | ⟨httl, -, rfl⟩⟩ := Routing.mem_process_snd ht
    · refine ⟨.fresh rfl ?_, .inl haddr, fun _ => ⟨rfl, rfl⟩⟩
      change (s.node p.dst).elementTtl.toUInt8 = (net.elementTtl (s.node p.dst).nodeAddr).toUInt8
      rw [h.ttl, haddr]
    · refine ⟨hhops.forward httl, .inr (h.used p hp), fun horig => ?_⟩
      exact absurd (horig.trans haddr.symm) hc.orig_ne
  refine ⟨?_, ?_, ?_, fun t ht => (hsent ht).1, fun t ht => (hsent ht).2.1,
    fun t ht => (hsent ht).2.2, ?_⟩
  · rw [Routing.process_fields, haddr]
  · rw [Routing.process_fields, h.ttl]
  · have hcounts := Routing.process_countsUp stas clk p.src p.frame (s.node p.dst)
    rwa [haddr] at hcounts
  · intro a q hq
    by_cases ha : a = p.frame.origAddr
    · subst ha
      obtain ⟨-, hsame⟩ | ⟨l, da, hc, ⟨hd, -⟩ | ⟨hd, -⟩⟩ :=
        Routing.process_cases stas clk p.src p.frame (s.node p.dst)
      · rw [hsame] at hq
        exact .inl hq
      · rw [Routing.process_find_of_discards hc hd] at hq
        obtain rfl := Option.some.inj hq
        cases hold : (s.node p.dst).meshPaths.find p.frame.origAddr with
        | some q' =>
          left
          rw [Routing.testedPath, MeshPaths.pathOrNew_of_find hold]
        | none =>
          right
          left
          rw [Routing.testedPath, MeshPaths.pathOrNew_of_find_eq_none hold]
          rfl
      · rw [Routing.process_find_of_accepts hc hd] at hq
        obtain rfl := Option.some.inj hq
        refine .inr (.inr ⟨?_, hhops.succ_le, h.used p hp⟩)
        change 1 ≤ (p.frame.hopCount + 1).toNat
        rw [hhops.toNat_succ]
        omega
    · rw [Routing.process_find_of_ne stas clk p.src (s.node p.dst) ha] at hq
      exact .inl hq

/-- A callback is sound. -/
theorem sound_callback (h : FrameInvariant net s) (n : MacAddress) (e : InternalEvent) :
    Sound net s n (e.apply (s.node n)) := by
  have haddr := h.addr n
  have hfields := e.apply_fields (s.node n)
  have hsent {t : Transmission} (ht : t ∈ (e.apply (s.node n)).2) :
      t.2.origAddr = n ∧ t.2.hopCount = 0 ∧ t.2.ttl = (net.elementTtl n).toUInt8 ∧
        t.2.metric = 0 := by
    rw [InternalEvent.mem_apply_snd ht, ← h.ttl n]
    exact ⟨haddr, rfl, rfl, rfl⟩
  refine ⟨hfields.1.trans haddr, hfields.2.1.trans (h.ttl n), ?_, ?_, ?_, ?_, ?_⟩
  · have hcounts := e.apply_countsUp (s.node n)
    rwa [haddr] at hcounts
  · intro t ht
    obtain ⟨horig, hzero, httl, -⟩ := hsent ht
    rw [horig]
    exact .fresh hzero httl
  · exact fun t ht => .inl (hsent ht).1
  · exact fun t ht _ => ⟨(hsent ht).2.1, (hsent ht).2.2.2⟩
  · intro a q hq
    rw [e.apply_meshPaths] at hq
    exact .inl (InternalEvent.find_of_find_purge hq)

/-- One step of the network. -/
theorem step (h : FrameInvariant net s) {s' : NetState} (hstep : net.Step s s') :
    FrameInvariant net s' := by
  cases hstep with
  | deliver hflight stas clk finish =>
    have hsound := h.sound_process (NetState.mem_flight hflight) stas clk
    exact h.act hsound (NetState.rest_subset hflight) finish
  | lose hflight => exact h.of_subset (NetState.rest_subset hflight)
  | duplicate hp => exact h.of_subset (by simp [hp])
  | callback hn e finish => exact h.act (h.sound_callback _ e) (List.Subset.refl _) finish

/-- The invariant holds in every run. -/
theorem of_reachable (hreach : net.Reachable s) : FrameInvariant net s := by
  induction hreach with
  | start clock => exact .start net clock
  | step _ hstep ih => exact ih.step hstep

end FrameInvariant

namespace Network

variable {net : Network} {s : NetState}

private theorem mem_countedSns {k : ℕ} (hk : k < 2 ^ 64) {sn : UInt64} (hsn : sn ∈ countedSns k) :
    sn ≤ UInt64.ofNat k := by
  obtain ⟨i, hi, rfl⟩ := List.mem_map.mp hsn
  rw [List.mem_range] at hi
  rw [UInt64.le_iff_toNat_le, UInt64.toNat_ofNat', UInt64.toNat_ofNat', Nat.mod_eq_of_lt hk,
    Nat.mod_eq_of_lt (by omega)]
  omega

private theorem countedSns_nodup {k : ℕ} (hk : k < 2 ^ 64) : (countedSns k).Nodup := by
  refine List.Nodup.map_on ?_ List.nodup_range
  intro i hi j hj heq
  rw [List.mem_range] at hi hj
  have hnat := congrArg UInt64.toNat heq
  rw [UInt64.toNat_ofNat', UInt64.toNat_ofNat', Nat.mod_eq_of_lt (by omega),
    Nat.mod_eq_of_lt (by omega)] at hnat
  omega

/-- In every run, whatever is lost, duplicated or reordered: hop count and hop limit of a
frame of `D` add up to `D`'s limit, and the hop count can be raised without wrapping; an
entry for `D` is as created or has a hop count from one up to the limit; and as long as `D`
has not used up its sequence numbers, frames and entries have numbers up to `D`'s own and no
two originations share one. -/
theorem frames_consistent (hreach : net.Reachable s) (D : MacAddress) :
    (∀ p ∈ s.flight, p.frame.origAddr = D →
      p.frame.hopCount.toNat + p.frame.ttl.toNat = (net.elementTtl D).toNat % 256 ∧
        p.frame.hopCount.toNat + 1 < 256) ∧
    (∀ n q, (s.node n).meshPaths.find D = some q → q = MeshPath.create D q.expTime ∨
      (1 ≤ q.hopCount.toNat ∧ q.hopCount.toNat ≤ max 1 ((net.elementTtl D).toNat % 256))) ∧
    ((s.originated D).length < 2 ^ 64 →
      (∀ p ∈ s.flight, p.frame.origAddr = D → p.frame.origSn ≤ (s.node D).sn) ∧
      (∀ n q, (s.node n).meshPaths.find D = some q → q.sn ≤ (s.node D).sn) ∧
      (s.originated D).Nodup) := by
  have h := FrameInvariant.of_reachable hreach
  refine ⟨?_, ?_, fun hfew => ?_⟩
  · rintro p hp rfl
    exact ⟨(h.hops p hp).sum, (h.hops p hp).succ_lt⟩
  · intro n q hq
    rcases h.stored n D q hq with hnew | ⟨hone, hmax, -⟩
    · exact .inl hnew
    · exact .inr ⟨hone, hmax⟩
  · have hle {sn : UInt64} (hsn : sn ∈ s.originated D) : sn ≤ (s.node D).sn := by
      rw [h.counted D] at hsn
      rw [h.sn D]
      exact mem_countedSns hfew hsn
    refine ⟨?_, ?_, ?_⟩
    · rintro p hp rfl
      exact hle (h.used p hp)
    · intro n q hq
      rcases h.stored n D q hq with hnew | ⟨-, -, hsn⟩
      · rw [hnew]
        exact UInt64.zero_le
      · exact hle hsn
    · rw [h.counted D]
      exact countedSns_nodup hfew

/-- The first announcement of a new gate in the triangle. -/
theorem first_announcement_frames_consistent :
    ∃ s, triangle.Reachable s ∧ ∃ p ∈ s.flight, p.frame.origAddr = 1 ∧
      p.frame.hopCount.toNat + p.frame.ttl.toNat = 32 ∧ p.frame.origSn ≤ (s.node 1).sn := by
  let s := (triangle.start fun _ => 0).callback triangle 1 (.setGatewayStatus true 0) 0
  have hreach : triangle.Reachable s := .step (.start _) (.callback (by decide) _ _)
  obtain ⟨hframes, -, hsns⟩ := frames_consistent hreach 1
  let p : Packet := ⟨1, 2, 1, 1, 0, 32, .BROADCAST, 0, true, true⟩
  have hp : p ∈ s.flight := by decide
  exact ⟨s, hreach, p, hp, rfl, (hframes p hp rfl).1, (hsns (by decide)).1 p hp rfl⟩

/-- A root can originate any number of frames while its first one stays in flight. -/
theorem exists_originated {n m : MacAddress} (hn : n ∈ net.nodes) (hm : m ∈ net.nodes)
    (hhears : net.hears m n = true) (k : ℕ) :
    ∃ s, net.Reachable s ∧ (s.node n).isRoot = true ∧ (s.originated n).length = k + 1 ∧
      ∃ p ∈ s.flight, p.frame.origAddr = n ∧ p.frame.origSn = 1 := by
  induction k with
  | zero =>
    refine ⟨_, .step (.start fun _ => 0) (.callback hn (.setGatewayStatus true 0) 0), ?_, ?_, ?_⟩
    · simp [NetState.callback, start, newNode, InternalEvent.apply, Routing.setGatewayStatus,
        Routing.doMeshPathRoot]
    · rw [NetState.callback, NetState.originated_act_self]
      simp [start, newNode, InternalEvent.apply, Routing.setGatewayStatus, Routing.doMeshPathRoot,
        NetState.originated, Routing.originatedSns, Routing.txPannFrame]
    · refine ⟨⟨n, m, _⟩, List.mem_append_right _ (packets_of_mem (List.mem_singleton.mpr rfl) ?_),
        rfl, rfl⟩
      simp [receivers, MacAddress.isBroadcast, hm, hhears]
  | succ k ih =>
    obtain ⟨s, hreach, hroot, hlength, p, hp, horig, hsn⟩ := ih
    have h := FrameInvariant.of_reachable hreach
    have hout : ((InternalEvent.meshPathRootTimer 0).apply (s.node n)).2 =
        [(s.node n).rootFrame] := by
      rw [InternalEvent.apply, Routing.fireMeshPathRootTimer, Routing.doMeshPathRoot_snd]
      exact if_pos hroot
    refine ⟨_, .step hreach (.callback hn (.meshPathRootTimer 0) 0), ?_, ?_, p, ?_, horig, hsn⟩
    · rw [NetState.callback, NetState.act_node_self, InternalEvent.apply,
        Routing.fireMeshPathRootTimer, Routing.doMeshPathRoot_fields]
      exact hroot
    · rw [NetState.callback, NetState.originated_act_self, hout, List.length_append, hlength]
      simp [Routing.originatedSns, Routing.rootFrame, Routing.txPannFrame, h.addr n]
    · exact List.mem_append_left _ hp

/-- Two limits of the bounds on stored hop counts and on sequence numbers. Station 2, a gate
itself, has accepted the announcement of gate 1; that of gate 3 is redundant, and the entry
created for it keeps the hop count zero. And after `2 ^ 64` originations the counter of
station 1 is back at zero while its first frame is still in flight. -/
theorem entry_without_hops_and_wrapped_sn :
    (∃ s, triangle.Reachable s ∧ ∃ q, (s.node 2).meshPaths.find 3 = some q ∧
      ¬ 1 ≤ q.hopCount.toNat) ∧
    ∃ s, triangle.Reachable s ∧ ∃ p ∈ s.flight,
      ¬ p.frame.origSn ≤ (s.node p.frame.origAddr).sn := by
  constructor
  · let stas : LinkMetrics := fun _ => some 10
    let clk := Routing.clockAt 0 1
    let s₁ := (triangle.start fun _ => 0).callback triangle 1 (.setGatewayStatus true 0) 0
    let s₂ := s₁.callback triangle 2 (.setGatewayStatus true 0) 0
    let s₃ := s₂.callback triangle 3 (.setGatewayStatus true 0) 0
    let p : Packet := ⟨1, 2, 1, 1, 0, 32, .BROADCAST, 0, true, true⟩
    let s₄ := s₃.deliver triangle p (s₃.flight.take 0 ++ s₃.flight.drop 1) stas clk 1
    let p' : Packet := ⟨3, 2, 3, 1, 0, 32, .BROADCAST, 0, true, true⟩
    let s₅ := s₄.deliver triangle p' (s₄.flight.take 4 ++ s₄.flight.drop 5) stas clk 1
    have hreach₃ : triangle.Reachable s₃ :=
      .step (.step (.step (.start _) (.callback (by decide) _ _)) (.callback (by decide) _ _))
        (.callback (by decide) _ _)
    have hreach₄ : triangle.Reachable s₄ := .step hreach₃ (.deliver_nth 0 (by decide) stas clk 1)
    have hreach₅ : triangle.Reachable s₅ := .step hreach₄ (.deliver_nth 4 (by decide) stas clk 1)
    exact ⟨s₅, hreach₅, .create 3 0, by decide, by decide⟩
  · have hnode : (1 : MacAddress) ∈ triangle.nodes := by decide
    have hlistener : (2 : MacAddress) ∈ triangle.nodes := by decide
    obtain ⟨s, hreach, -, hlength, p, hp, horig, hsn⟩ :=
      exists_originated hnode hlistener (by decide) (2 ^ 64 - 1)
    refine ⟨s, hreach, p, hp, ?_⟩
    rw [horig, hsn, (FrameInvariant.of_reachable hreach).sn 1, hlength]
    decide

end Network

end Fbmeshd
