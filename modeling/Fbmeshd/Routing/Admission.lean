import Fbmeshd.Routing.NodeRuns

/-!
# Which announcements take effect

Two consequences of the rules by which frames are ignored. A node may keep a path whose
next hop is gone and ignore a neighbour that offers another one, while `getMeshPaths`
exports neither. And a live path follows the announcements of its own next hop, except
that an announcement from a gate is dropped while enough other gates are no worse.
-/

namespace Fbmeshd

namespace Routing

variable {stas : LinkMetrics} {clk : PannClock} {sa : MacAddress} {pann : MeshPathFramePANN}
  {r : Routing} {lastHopMetric : UInt32}

/-- The second rule concerns gates only. -/
theorem discards_of_not_gate (hgate : pann.isGate = false) :
    r.discards clk sa pann lastHopMetric =
      ignores (r.testedPath clk pann) clk.test sa pann.origSn
        (newMetric pann.metric lastHopMetric) := by
  simp [discards, redundantGate, hgate]

/-- `getMeshPaths` exports a path when it is not expired and its next hop is a station. -/
theorem getMeshPaths_find_isSome {now : ℤ} {a : MacAddress} :
    ((r.getMeshPaths stas fun _ => now).find a).isSome = true ↔
      ∃ p, r.meshPaths.find a = some p ∧ p.expired now = false ∧
        (stas p.nextHop).isSome = true := by
  rw [Option.isSome_iff_exists]
  simp only [getMeshPaths, MeshPaths.find_keep, Bool.and_eq_true, Bool.not_eq_true']

/-- The stored entry, if there is one, leaves room for the frame: it is expired, its next
hop is the sender or still a station, or it is worse. A new entry, whose next hop is the
zero address, does so when the clock has moved since it was created. -/
def RoomFor (stas : LinkMetrics) (create now : ℤ) (sa origAddr : MacAddress) (metric : UInt32)
    (r : Routing) : Prop :=
  match r.meshPaths.find origAddr with
  | some p => p.expired now = true ∨ p.nextHop = sa ∨ metric < p.metric ∨
      (stas p.nextHop).isSome = true
  | none => create < now ∨ sa = 0 ∨ (stas 0).isSome = true

/-- `RoomFor` in terms of the entry the frame is tested against. -/
theorem roomFor_iff {create now : ℤ} {metric : UInt32} :
    r.RoomFor stas create now sa pann.origAddr metric ↔
      (r.testedPath (clockAt create now) pann).expired now = true ∨
        (r.testedPath (clockAt create now) pann).nextHop = sa ∨
        metric < (r.testedPath (clockAt create now) pann).metric ∨
        (stas (r.testedPath (clockAt create now) pann).nextHop).isSome = true := by
  unfold RoomFor testedPath
  cases hold : r.meshPaths.find pann.origAddr with
  | some p => rw [MeshPaths.pathOrNew_of_find hold]
  | none =>
    rw [MeshPaths.pathOrNew_of_find_eq_none hold, MeshPath.expired_eq_true]
    simp only [MeshPath.create, clockAt, UInt32.not_lt_zero, false_or]
    rw [eq_comm (a := sa)]

/-- After a broadcast announcement that is not from a gate and not older than the stored
path, a path to its originator is exported exactly when the stored entry left room for it. -/
theorem exported_after_announcement_iff {create now : ℤ}
    (horig : pann.origAddr ≠ r.nodeAddr) (hsta : stas sa = some lastHopMetric)
    (htarget : pann.targetAddr = .BROADCAST) (hgate : pann.isGate = false)
    (hsn : ∀ p, r.meshPaths.find pann.origAddr = some p → p.sn ≤ pann.origSn) :
    ((((r.hwmpPannFrameProcess stas (clockAt create now) sa pann).1.getMeshPaths stas
        fun _ => now).find pann.origAddr).isSome = true) ↔
      r.RoomFor stas create now sa pann.origAddr (newMetric pann.metric lastHopMetric) := by
  have hc := considers_of_broadcast (clockAt create now) horig hsta htarget
  have hsn' : (r.testedPath (clockAt create now) pann).sn ≤ pann.origSn := by
    unfold testedPath
    cases hold : r.meshPaths.find pann.origAddr with
    | some p =>
      rw [MeshPaths.pathOrNew_of_find hold]
      exact hsn p hold
    | none =>
      rw [MeshPaths.pathOrNew_of_find_eq_none hold]
      exact UInt64.zero_le
  rw [getMeshPaths_find_isSome, roomFor_iff]
  cases hd : r.discards (clockAt create now) sa pann lastHopMetric with
  | true =>
    -- The tested entry stays, unexpired, with another next hop and no worse metric.
    rw [process_find_of_discards hc hd]
    rw [discards_of_not_gate hgate, ← Bool.not_eq_false, ignores_eq_false] at hd
    simp only [not_or, not_and, UInt32.not_lt] at hd
    obtain ⟨hlive, hrule⟩ := hd
    obtain ⟨hhop, hmetric⟩ := hrule hsn'
    have hlive' : (r.testedPath (clockAt create now) pann).expired now = false :=
      Bool.not_eq_true _ ▸ hlive
    simp [hlive', hhop, hmetric]
  | false =>
    -- An accepted frame is exported at once; the rule it passed is the one in question.
    rw [process_find_of_accepts hc hd]
    rw [discards_of_not_gate hgate, ignores_eq_false] at hd
    have hexported : ∃ p, some (updatePath (r.testedPath (clockAt create now) pann) now
        r.activePathTimeout sa pann lastHopMetric) = some p ∧ p.expired now = false ∧
        (stas p.nextHop).isSome = true := by
      refine ⟨_, rfl, ?_, by simp [updatePath, hsta]⟩
      rw [MeshPath.expired_eq_false]
      simp only [updatePath, milliseconds]
      omega
    refine ⟨fun _ => ?_, fun _ => hexported⟩
    rcases hd with hdead | ⟨-, hhop | hmetric⟩
    · exact .inl hdead
    · exact .inr (.inl hhop)
    · exact .inr (.inr (.inl hmetric))

/-- A node with the default parameters of the daemon. -/
def sampleNode : Routing :=
  { nodeAddr := 1, elementTtl := 32, activePathTimeout := 30000, rootPannInterval := 5000 }

/-- Station 3, through which a path to 2 was learned, is gone. Station 4 announces 2 with a better
metric, and the path through it is exported. -/
theorem better_announcement_exported :
    let before : LinkMetrics := fun a => if a = 3 then some 30 else none
    let after : LinkMetrics := fun a => if a = 4 then some 20 else none
    let pann : MeshPathFramePANN := ⟨2, 1, 0, 32, .BROADCAST, 0, false, true⟩
    let r := (sampleNode.hwmpPannFrameProcess before (clockAt 4 5) 3 pann).1
    ((r.getMeshPaths after fun _ => 6).find 2).isSome = false ∧
      (((r.hwmpPannFrameProcess after (clockAt 6 6) 4 pann).1.getMeshPaths after
        fun _ => 6).find 2).isSome = true := by
  intro before after pann r
  have hfind : r.meshPaths.find 2 = some (updatePath (.create 2 4) 5 30000 3 pann 30) := by decide
  have hsn : ∀ p, r.meshPaths.find 2 = some p → p.sn ≤ 1 := by
    intro p hp
    rw [← Option.some.inj (hfind.symm.trans hp)]
    decide
  have hiff := @exported_after_announcement_iff after 4 pann r 20 6 6 (by decide)
    rfl rfl rfl hsn
  refine ⟨by decide, hiff.mpr ?_⟩
  rw [RoomFor, show r.meshPaths.find pann.origAddr = _ from hfind]
  exact .inr (.inr (.inl (by decide)))

/-- Station 3, through which a path to 2 was learned, is gone. Station 4 announces 2 with a
newer sequence number and a worse metric; the frame is ignored, and nothing is exported. -/
theorem announcement_ignored_for_lost_next_hop :
    ∃ s : TracedNode, s.Reachable ∧ s.node.nodeAddr = 1 ∧
      let stas : LinkMetrics := fun a => if a = 4 then some 20 else none
      let pann : MeshPathFramePANN := ⟨2, 2, 0, 32, .BROADCAST, 0, false, true⟩
      (∃ p, s.node.meshPaths.find 2 = some p ∧ p.sn ≤ pann.origSn) ∧ (stas 4).isSome = true ∧
      ((s.node.hwmpPannFrameProcess stas (.at 6) 4 pann).1.getMeshPaths stas
        fun _ => 6).find 2 = none := by
  let stas : LinkMetrics := fun a => if a = 3 then some 10 else none
  let pann : MeshPathFramePANN := ⟨2, 1, 0, 32, .BROADCAST, 0, false, true⟩
  have hclk : (clockAt 4 5).Nondecreasing 0 5 := clockAt_nondecreasing (by decide) (by decide)
  refine ⟨_, .step (e := .receive stas (clockAt 4 5) 3 pann) (.init 0 sampleNode rfl) hclk,
    by decide, ?_⟩
  exact ⟨⟨updatePath (.create 2 4) 5 30000 3 pann 10, by decide, by decide⟩, by decide, by decide⟩

/-- A stored path and a broadcast announcement of its destination that comes from its next
hop and is not older. Then the path takes the announced sequence number, the new metric and
a new expiry, unless the announcement is from a gate and enough other live gates are no
worse; in that case nothing changes. -/
theorem path_follows_next_hop {s : TracedNode} (hreach : s.Reachable) {stas : LinkMetrics}
    {clk : PannClock} {pann : MeshPathFramePANN} {p : MeshPath} {lastHopMetric : UInt32}
    (hp : s.node.meshPaths.find pann.origAddr = some p)
    (hsta : stas p.nextHop = some lastHopMetric) (htarget : pann.targetAddr = .BROADCAST)
    (hsn : p.sn ≤ pann.origSn) :
    if pann.isGate = true ∧ MeshPaths.maxNoGates s.node.isGate ≤
        s.node.meshPaths.betterGates clk.gateCount pann.origAddr
          (newMetric pann.metric lastHopMetric) then
      s.node.hwmpPannFrameProcess stas clk p.nextHop pann = (s.node, [])
    else
      ∃ p', (s.node.hwmpPannFrameProcess stas clk p.nextHop pann).1.meshPaths.find
          pann.origAddr = some p' ∧
        p'.sn = pann.origSn ∧
        p'.metric.toNat = min (2 ^ 32 - 1) (pann.metric.toNat + lastHopMetric.toNat) ∧
        p'.nextHop = p.nextHop ∧
        p'.expTime = clk.update + milliseconds s.node.activePathTimeout := by
  have horig : pann.origAddr ≠ s.node.nodeAddr := by
    intro heq
    have hown := (TracedNode.TableInvariant.of_reachable hreach).own_none
    rw [← heq, hp] at hown
    cases hown
  have hc := considers_of_broadcast clk horig hsta htarget
  have htested : s.node.testedPath clk pann = p := MeshPaths.pathOrNew_of_find hp
  have hsame : s.node.afterGetMeshPath clk pann = s.node := by
    simp [afterGetMeshPath, MeshPaths.withPath, hp]
  have hrule : ignores p clk.test p.nextHop pann.origSn (newMetric pann.metric lastHopMetric) =
      false := ignores_eq_false.mpr (.inr ⟨hsn, .inl rfl⟩)
  have hdiscards : s.node.discards clk p.nextHop pann lastHopMetric =
      redundantGate s.node.meshPaths clk.gateCount s.node.isGate pann
        (newMetric pann.metric lastHopMetric) := by
    rw [discards, htested, hsame, hrule, Bool.false_or]
  split
  case isTrue hredundant =>
    have hd : s.node.discards clk p.nextHop pann lastHopMetric = true := by
      simpa [hdiscards, redundantGate] using hredundant
    rw [process_of_discards hc hd, hsame]
  case isFalse hredundant =>
    have hd : s.node.discards clk p.nextHop pann lastHopMetric = false := by
      simpa [hdiscards, redundantGate] using hredundant
    refine ⟨_, process_find_of_accepts hc hd, rfl, ?_, rfl, rfl⟩
    exact newMetric_toNat _ _

/-- The node of these runs hears every originator through station 3, at metric 1. -/
def throughStation3 : LinkMetrics := fun a => if a = 3 then some 1 else none

/-- A gate's announcement with the given sequence number and metric. -/
def gateAnnouncement (origAddr : MacAddress) (origSn : UInt64) (metric : UInt32) :
    MeshPathFramePANN :=
  ⟨origAddr, origSn, 1, 31, .BROADCAST, metric, true, false⟩

/-- A frame received through station 3 at `now`, with a new entry created just before. -/
def receiveAt (now : ℤ) (pann : MeshPathFramePANN) : NodeEvent :=
  .receive throughStation3 (clockAt (now - 1) now) 3 pann

/-- A second announcement from the same next hop raises the metric of the path. -/
theorem metric_raised_by_next_hop :
    ∃ s : TracedNode, s.Reachable ∧ ∃ p', (s.node.hwmpPannFrameProcess throughStation3
        (clockAt 3 4) 3 (gateAnnouncement 10 2 99)).1.meshPaths.find 10 = some p' ∧
      p'.sn = 2 ∧ p'.metric.toNat = 100 ∧
      p'.expTime = 4 + milliseconds sampleNode.activePathTimeout := by
  have hreach := TracedNode.Reachable.step (e := receiveAt 2 (gateAnnouncement 10 1 3))
    (.init 0 sampleNode rfl) (clockAt_nondecreasing (by decide) (by decide))
  let p := updatePath (.create 10 1) 2 30000 3 (gateAnnouncement 10 1 3) 1
  have h := @path_follows_next_hop _ hreach throughStation3 (clockAt 3 4)
    (gateAnnouncement 10 2 99) p 1 (by decide) rfl rfl (by decide)
  rw [if_neg (by decide)] at h
  obtain ⟨p', hfind, hsn, hmetric, -, hexp⟩ := h
  exact ⟨_, hreach, p', hfind, hsn, hmetric, hexp⟩

/-- Three gates are learned, each admitted in its turn. The next hop of gate 10 then
announces it with a newer sequence number and metric 99, and the path keeps the old ones. -/
theorem metric_stale_behind_two_gates :
    ∃ s : TracedNode, s.Reachable ∧ ∃ p, s.node.meshPaths.find 10 = some p ∧
      p.expired 8 = false ∧ p.nextHop = 3 ∧ throughStation3 3 = some 1 ∧
      p.sn ≤ (gateAnnouncement 10 2 99).origSn ∧
      (s.node.hwmpPannFrameProcess throughStation3 (clockAt 7 8) 3
        (gateAnnouncement 10 2 99)).1.meshPaths.find 10 = some p ∧
      p.sn = 1 ∧ p.metric = 4 := by
  have h₁ := TracedNode.Reachable.step (e := receiveAt 2 (gateAnnouncement 10 1 3))
    (.init 0 sampleNode rfl) (clockAt_nondecreasing (by decide) (by decide))
  have h₂ := TracedNode.Reachable.step (e := receiveAt 4 (gateAnnouncement 11 1 4)) h₁
    (clockAt_nondecreasing (by decide) (by decide))
  have h₃ := TracedNode.Reachable.step (e := receiveAt 6 (gateAnnouncement 12 1 2)) h₂
    (clockAt_nondecreasing (by decide) (by decide))
  let p := updatePath (.create 10 1) 2 30000 3 (gateAnnouncement 10 1 3) 1
  exact ⟨_, h₃, p, by decide, by decide, rfl, rfl, by decide, by decide, rfl, by decide⟩

end Routing

end Fbmeshd
