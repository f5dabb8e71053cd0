import Fbmeshd.Lib.TopK
import Fbmeshd.Routing.Admission

/-!
# Gates: admission and ranking

An announcement of a gate is admitted if fewer than `maxNoGates` other live gates are no worse, and
it is passed on if the gate is among the first `maxNoGates` live gates in the order of metric and
address. The first section shows that the two agree.
-/

namespace Fbmeshd

namespace MeshPaths

instance : Std.Total gateLe where
  total a b := by
    simp only [gateLe, UInt32.lt_iff_toNat_lt, ← UInt32.toNat_inj, BitVec.le_def]
    omega

instance : IsTrans (UInt32 × MacAddress) gateLe where
  trans a b c := by
    simp only [gateLe, UInt32.lt_iff_toNat_lt, ← UInt32.toNat_inj, BitVec.le_def]
    omega

variable {paths : MeshPaths} {a : MacAddress} {p : MeshPath} {now : MacAddress → ℤ} {isGate : Bool}

/-- The keys of the table are the destinations of its entries. -/
def Keyed (paths : MeshPaths) : Prop := ∀ a p, paths.find a = some p → p.dst = a

/-- Storing a path under its destination keeps the table keyed. -/
theorem Keyed.assign (h : paths.Keyed) (hp : p.dst = a) : (paths.assign a p).Keyed := by
  intro b q hq
  by_cases hb : b = a
  · subst hb
    rw [find_assign_self] at hq
    exact Option.some.inj hq ▸ hp
  · rw [find_assign_of_ne hb] at hq
    exact h b q hq

private theorem Keyed.withPath (h : paths.Keyed) (a : MacAddress) (now : ℤ) :
    (paths.withPath a now).Keyed := by
  unfold MeshPaths.withPath
  cases hold : paths.find a with
  | some p => exact h
  | none => exact h.assign rfl

private theorem Keyed.pathOrNew_dst (h : paths.Keyed) (a : MacAddress) (now : ℤ) :
    (paths.pathOrNew a now).dst = a :=
  (h.withPath a now) a _ find_withPath_self

/-- The count of other gates does not see the entry of the gate itself. -/
theorem betterGates_assign (h : paths.Keyed) (hp : p.dst = a) (metric : UInt32) :
    (paths.assign a p).betterGates now a metric = paths.betterGates now a metric := by
  refine AList.countP_entries_insert (by simp [hp]) fun q hq => ?_
  have hdst : q.dst = a := h a q hq
  simp [hdst]

/-- A live gate with few other gates that are no worse is among the first ones: all gates in
front of it are counted. -/
theorem isStationInTopKGates_of_betterGates_lt (h : paths.Keyed) (hp : paths.find a = some p)
    (hgate : p.isGate = true) (hlive : p.expired (now a) = false)
    (hcount : paths.betterGates now a p.metric < maxNoGates isGate) :
    paths.isStationInTopKGates isGate now a = true := by
  have hmem : (p.metric, a) ∈ paths.liveGates now := mem_liveGates.mpr ⟨p, hp, hlive, hgate, rfl⟩
  have hfront : (paths.liveGates now).countP
      (fun g => gateLe g (p.metric, a) ∧ g ≠ (p.metric, a)) ≤
        paths.betterGates now a p.metric := by
    rw [liveGates, List.countP_map, List.countP_filter, betterGates]
    refine List.countP_mono_left fun e he hcounted => ?_
    obtain ⟨b, q⟩ := e
    have hq : paths.find b = some q := mem_entries.mp he
    simp only [Function.comp_apply, Bool.and_eq_true, decide_eq_true_eq] at hcounted
    obtain ⟨⟨hle, hne⟩, hqlive, hqgate⟩ := hcounted
    have hb : q.dst ≠ a := by
      rw [h b q hq]
      rintro rfl
      obtain rfl : q = p := Option.some.inj (hq.symm.trans hp)
      exact hne rfl
    have hmetric : q.metric ≤ p.metric := by
      rcases hle with hlt | ⟨heq, -⟩
      · exact UInt32.le_of_lt hlt
      · exact UInt32.le_of_eq heq
    simp [hb, hqlive, hqgate, hmetric]
  have htake := TopK.mem_take_insertionSort hmem (Nat.lt_of_le_of_lt hfront hcount)
  exact List.any_eq_true.mpr ⟨_, htake, decide_eq_true rfl⟩

end MeshPaths

namespace Routing

variable {stas : LinkMetrics} {clk : PannClock} {sa : MacAddress} {pann : MeshPathFramePANN}
  {r : Routing} {lastHopMetric : UInt32} {da : MacAddress} {now : ℤ}

/-- After an admitted announcement of a gate, made at one reading, the gate is among the first. -/
theorem isStationInTopKGates_of_accepted (hkeys : r.meshPaths.Keyed)
    (hc : Considers stas (.at now) sa pann r lastHopMetric da)
    (hd : r.discards (.at now) sa pann lastHopMetric = false) (hgate : pann.isGate = true) :
    (r.hwmpPannFrameProcess stas (.at now) sa pann).1.meshPaths.isStationInTopKGates r.isGate
      (fun _ => now) pann.origAddr = true := by
  have hwith := hkeys.withPath pann.origAddr now
  have hdst : (r.testedPath (.at now) pann).dst = pann.origAddr :=
    hkeys.pathOrNew_dst pann.origAddr now
  have hcount : (r.meshPaths.withPath pann.origAddr now).betterGates (fun _ => now) pann.origAddr
      (newMetric pann.metric lastHopMetric) < MeshPaths.maxNoGates r.isGate := by
    have hredundant := (Bool.or_eq_false_iff.mp hd).2
    rw [redundantGate, hgate, Bool.true_and, decide_eq_false_iff_not, Nat.not_le] at hredundant
    exact hredundant
  let p := updatePath (r.testedPath (.at now) pann) now r.activePathTimeout sa pann lastHopMetric
  have hp : p.dst = pann.origAddr := hdst
  have hlive : p.expired now = false := by
    rw [MeshPath.expired_eq_false]
    simp only [p, updatePath, milliseconds]
    omega
  rw [process_of_accepts hc hd]
  refine MeshPaths.isStationInTopKGates_of_betterGates_lt (hwith.assign hp)
    MeshPaths.find_assign_self hgate hlive ?_
  exact (MeshPaths.betterGates_assign hwith hp _).trans_lt hcount

/-- The station that a frame for a target other than this node is passed on to: the target itself
if it is a group address, else the next hop of its path. -/
theorem forwardTo_eq_some (htarget : pann.targetAddr ≠ r.nodeAddr)
    (h : r.forwardTo now pann.targetAddr = some da) :
    (pann.targetAddr.isUnicast = false ∧ da = pann.targetAddr) ∨
      (pann.targetAddr.isUnicast = true ∧ ∃ q, r.meshPaths.find pann.targetAddr = some q ∧
        q.expired now = false ∧ da = q.nextHop) := by
  unfold forwardTo at h
  cases hunicast : pann.targetAddr.isUnicast with
  | false =>
    rw [hunicast, Bool.false_and, if_neg Bool.false_ne_true] at h
    exact .inl ⟨rfl, (Option.some.inj h).symm⟩
  | true =>
    rw [hunicast, Bool.true_and, if_pos (by simpa using htarget)] at h
    cases hfind : r.meshPaths.find pann.targetAddr with
    | none => simp [hfind] at h
    | some q =>
      simp only [hfind, Option.ite_none_left_eq_some, Bool.not_eq_true, Option.some.injEq] at h
      exact .inr ⟨rfl, q, rfl, h.1, h.2.symm⟩

/-- The copy of an accepted frame carries the stored metric. -/
theorem sent_of_accepted (hkeys : r.meshPaths.Keyed)
    (hc : Considers stas (.at now) sa pann r lastHopMetric da)
    (hd : r.discards (.at now) sa pann lastHopMetric = false) (httl : 1 < pann.ttl)
    (htarget : pann.targetAddr ≠ r.nodeAddr) :
    (r.hwmpPannFrameProcess stas (.at now) sa pann).2 =
      ((r.afterGetMeshPath (.at now) pann).replyFrames sa pann).2 ++
        [forwardedFrame da pann (newMetric pann.metric lastHopMetric)] := by
  obtain ⟨oldHasOrig, hsent⟩ := process_snd_of_accepts hc hd
  have hfields := process_fields stas (.at now) sa pann r
  have hforwards : (r.hwmpPannFrameProcess stas (.at now) sa pann).1.forwards (.at now) pann
      oldHasOrig = true := by
    have haddr : (r.hwmpPannFrameProcess stas (.at now) sa pann).1.nodeAddr = r.nodeAddr := by
      rw [hfields]
    have hisGate : (r.hwmpPannFrameProcess stas (.at now) sa pann).1.isGate = r.isGate := by
      rw [hfields]
    rw [forwards, haddr, hisGate]
    cases hgate : pann.isGate with
    | false => simp [httl, htarget]
    | true =>
      have htop := isStationInTopKGates_of_accepted hkeys hc hd hgate
      simp only [PannClock.at] at htop ⊢
      simp [httl, htarget, htop]
  rw [hsent, forwardFrames_eq, if_pos hforwards]

/-- The reply is the node's own announcement. -/
theorem replyFrames_filter_origAddr {a : MacAddress} (ha : a ≠ r.nodeAddr) :
    (r.replyFrames sa pann).2.filter (fun t => t.2.origAddr = a) = [] := by
  refine List.filter_eq_nil_iff.mpr fun t ht => ?_
  unfold replyFrames at ht
  split at ht
  next =>
    obtain rfl := List.mem_singleton.mp ht
    simp [txPannFrame, ha.symm]
  next => simp at ht

/-- What is admitted is passed on. For any table whose keys are the destinations of its entries,
an admitted gate is among the first gates of the updated table; so every admitted frame with hops
left whose target is not this node is passed on once, with the stored metric, to its target if
that is a group address and else to the next hop of the live path to it. -/
theorem admitted_frame_passed_on (hkeys : r.meshPaths.Keyed)
    (haccepts : r.acceptsPann stas (.at now) sa pann = true) :
    let r' := (r.hwmpPannFrameProcess stas (.at now) sa pann).1
    (pann.isGate = true →
      r'.meshPaths.isStationInTopKGates r.isGate (fun _ => now) pann.origAddr = true) ∧
    (1 < pann.ttl → pann.targetAddr ≠ r.nodeAddr →
      ∃ p da, r'.meshPaths.find pann.origAddr = some p ∧
        (r.hwmpPannFrameProcess stas (.at now) sa pann).2.filter
            (fun t => t.2.origAddr = pann.origAddr) =
          [(da, { pann with
            hopCount := pann.hopCount + 1, ttl := pann.ttl - 1, metric := p.metric })] ∧
        ((pann.targetAddr.isUnicast = false ∧ da = pann.targetAddr) ∨
          (pann.targetAddr.isUnicast = true ∧ ∃ q, r.meshPaths.find pann.targetAddr = some q ∧
            q.expired now = false ∧ da = q.nextHop))) := by
  obtain ⟨lastHopMetric, da, hc, hd⟩ := considers_of_acceptsPann haccepts
  refine ⟨isStationInTopKGates_of_accepted hkeys hc hd, fun httl htarget => ?_⟩
  refine ⟨_, da, process_find_of_accepts hc hd, ?_, forwardTo_eq_some htarget hc.target⟩
  have hreply : ((r.afterGetMeshPath (.at now) pann).replyFrames sa pann).2.filter
      (fun t => t.2.origAddr = pann.origAddr) = [] := replyFrames_filter_origAddr hc.orig_ne
  rw [sent_of_accepted hkeys hc hd httl htarget, List.filter_append, hreply, List.nil_append]
  simp [forwardedFrame, txPannFrame, updatePath]

/-- Every frame keeps the keys of the table. -/
theorem keyed_process (hkeys : r.meshPaths.Keyed) (stas : LinkMetrics) (clk : PannClock)
    (sa : MacAddress) (pann : MeshPathFramePANN) :
    (r.hwmpPannFrameProcess stas clk sa pann).1.meshPaths.Keyed := by
  have hwith := hkeys.withPath pann.origAddr clk.create
  obtain ⟨-, h⟩ | ⟨l, da, hc, ⟨hd, h⟩ | ⟨hd, -⟩⟩ := process_cases stas clk sa pann r
  · rwa [h]
  · rwa [h]
  · rw [process_of_accepts hc hd]
    exact hwith.assign (hkeys.pathOrNew_dst pann.origAddr clk.create)

/-- The sample node after a first announcement of gate 10. -/
def knowsGate10 : Routing :=
  (sampleNode.hwmpPannFrameProcess throughStation3 (clockAt 1 2) 3 (gateAnnouncement 10 1 3)).1

private theorem keyed_knowsGate10 : knowsGate10.meshPaths.Keyed :=
  keyed_process (by simp [MeshPaths.Keyed, sampleNode]) _ _ _ _

/-- The next announcement of gate 10 is passed on to the broadcast address. -/
theorem next_announcement_passed_on :
    ∃ p da, (knowsGate10.hwmpPannFrameProcess throughStation3 (.at 5) 3
        (gateAnnouncement 10 2 3)).1.meshPaths.find 10 = some p ∧
      (knowsGate10.hwmpPannFrameProcess throughStation3 (.at 5) 3
          (gateAnnouncement 10 2 3)).2.filter (fun t => t.2.origAddr = 10) =
        [(da, { gateAnnouncement 10 2 3 with hopCount := 2, ttl := 30, metric := p.metric })] ∧
      da = .BROADCAST := by
  have haccepts : knowsGate10.acceptsPann throughStation3 (.at 5) 3 (gateAnnouncement 10 2 3) =
      true := by decide
  have h := (admitted_frame_passed_on keyed_knowsGate10 haccepts).2 (by decide) (by decide)
  obtain ⟨p, da, hp, hsent, ⟨-, hda⟩ | ⟨hunicast, -⟩⟩ := h
  · exact ⟨p, da, hp, hsent, hda⟩
  · exact absurd hunicast (by decide)

/-- An announcement of gate 10 for a group of stations. -/
def groupAnnouncement : MeshPathFramePANN :=
  { gateAnnouncement 10 2 3 with targetAddr := 0x333300000001 }

/-- It is accepted, and it is passed on neither to the broadcast address nor to the next hop of a
path. -/
theorem group_target_passed_on_to_group :
    knowsGate10.acceptsPann throughStation3 (.at 5) 3 groupAnnouncement = true ∧
      1 < groupAnnouncement.ttl ∧ groupAnnouncement.targetAddr ≠ knowsGate10.nodeAddr ∧
      knowsGate10.meshPaths.find groupAnnouncement.targetAddr = none ∧
      (knowsGate10.hwmpPannFrameProcess throughStation3 (.at 5) 3 groupAnnouncement).2 =
        [(0x333300000001, { groupAnnouncement with hopCount := 2, ttl := 30, metric := 4 })] ∧
      (0x333300000001 : MacAddress) ≠ .BROADCAST := by
  decide

end Routing

end Fbmeshd
