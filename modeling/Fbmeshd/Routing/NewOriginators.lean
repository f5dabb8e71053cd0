import Fbmeshd.Routing.Admission

/-!
# Originators without an entry

`getMeshPath` inserts an entry for an originator that has none, before the frame is tested. The
new entry stays when the frame is then discarded. It is not yet expired if the clock has not moved
since it was created, and with its metric of zero it then keeps the frame out.
-/

namespace Fbmeshd

namespace Routing

variable {stas : LinkMetrics} {clk : PannClock} {sa : MacAddress} {pann : MeshPathFramePANN}
  {r : Routing} {lastHopMetric : UInt32} {da : MacAddress}

/-- `getMeshPath` changes the table exactly if the originator has no entry. -/
theorem afterGetMeshPath_eq_self_iff :
    r.afterGetMeshPath clk pann = r ↔ r.meshPaths.find pann.origAddr ≠ none := by
  constructor
  · intro hsame hnone
    have hfind : (r.afterGetMeshPath clk pann).meshPaths.find pann.origAddr ≠ none := by
      simp [afterGetMeshPath, MeshPaths.find_withPath_self]
    rw [hsame] at hfind
    exact hfind hnone
  · intro hsome
    obtain ⟨p, hp⟩ := Option.ne_none_iff_exists'.mp hsome
    simp [afterGetMeshPath, MeshPaths.withPath, hp]

/-- A frame that is not accepted sends nothing, keeps the sequence number and touches no entry of
another originator. It leaves the node as it was exactly if it is dropped before `getMeshPath`, or
if the originator has an entry. -/
theorem discard_leaves_no_trace_iff (hrejected : r.acceptsPann stas clk sa pann = false) :
    (r.hwmpPannFrameProcess stas clk sa pann).2 = [] ∧
    (r.hwmpPannFrameProcess stas clk sa pann).1.sn = r.sn ∧
    (∀ a, a ≠ pann.origAddr →
      (r.hwmpPannFrameProcess stas clk sa pann).1.meshPaths.find a = r.meshPaths.find a) ∧
    (r.hwmpPannFrameProcess stas clk sa pann = (r, []) ↔
      (∀ lastHopMetric da, ¬ Considers stas clk sa pann r lastHopMetric da) ∨
        r.meshPaths.find pann.origAddr ≠ none) := by
  have hothers : ∀ a, a ≠ pann.origAddr →
      (r.hwmpPannFrameProcess stas clk sa pann).1.meshPaths.find a = r.meshPaths.find a :=
    fun a ha => process_find_of_ne stas clk sa r ha
  by_cases hconsiders : ∃ lastHopMetric da, Considers stas clk sa pann r lastHopMetric da
  · obtain ⟨l, da, hc⟩ := hconsiders
    have hd : r.discards clk sa pann l = true := by
      rw [acceptsPann_of_considers hc] at hrejected
      simpa using hrejected
    have hprocess := process_of_discards hc hd
    refine ⟨by rw [hprocess], by rw [hprocess]; rfl, hothers, ?_⟩
    rw [hprocess, Prod.mk.injEq, and_iff_left rfl, afterGetMeshPath_eq_self_iff]
    refine ⟨.inr, fun h => h.resolve_left fun hnone => hnone l da hc⟩
  · have hnone : ∀ l da, ¬ Considers stas clk sa pann r l da :=
      fun l da hc => hconsiders ⟨l, da, hc⟩
    have hprocess := process_of_not_considers hnone
    exact ⟨by rw [hprocess], by rw [hprocess], hothers,
      ⟨fun _ => .inl hnone, fun _ => hprocess⟩⟩

/-- The stored path of station 2 turns an older frame away and stays as it was. -/
theorem older_frame_leaves_no_trace :
    let r := (sampleNode.hwmpPannFrameProcess throughStation3 (clockAt 1 2) 3
      (gateAnnouncement 2 7 3)).1
    r.hwmpPannFrameProcess throughStation3 (clockAt 3 4) 3 (gateAnnouncement 2 6 3) = (r, []) := by
  intro r
  have hrejected : r.acceptsPann throughStation3 (clockAt 3 4) 3 (gateAnnouncement 2 6 3) = false :=
    by decide
  exact (discard_leaves_no_trace_iff hrejected).2.2.2.mpr (.inr (by decide))

/-- A node that is a gate and knows another gate receives the announcement of a worse one, which
is redundant. Its table has an entry for it afterwards. -/
theorem redundant_gate_leaves_entry :
    ∃ s : TracedNode, s.Reachable ∧
      s.node.acceptsPann throughStation3 (clockAt 3 4) 3 (gateAnnouncement 11 1 9) = false ∧
      s.node.meshPaths.find 11 = none ∧
      (s.node.hwmpPannFrameProcess throughStation3 (clockAt 3 4) 3
        (gateAnnouncement 11 1 9)).1.meshPaths.find 11 = some (.create 11 3) := by
  have hreach := TracedNode.Reachable.step (e := receiveAt 2 (gateAnnouncement 10 1 3))
    (.init 0 { sampleNode with isGate := true } rfl)
    (clockAt_nondecreasing (by decide) (by decide))
  exact ⟨_, hreach, by decide, by decide, by decide⟩

/-- A new entry is older than its test, or it has the next hop of the frame, if and only if it
lets a frame pass. -/
theorem ignores_create {origAddr : MacAddress} {create test : ℤ} {origSn : UInt64}
    {metric : UInt32} :
    ignores (.create origAddr create) test sa origSn metric = false ↔ create < test ∨ sa = 0 := by
  rw [ignores_eq_false, MeshPath.expired_eq_true]
  have hsn : (MeshPath.create origAddr create).sn ≤ origSn := UInt64.zero_le
  have hmetric : ¬ metric < (MeshPath.create origAddr create).metric := UInt32.not_lt_zero
  rw [and_iff_right hsn, or_iff_left hmetric, eq_comm (a := sa)]
  rfl

/-- A broadcast announcement that is not from a gate, from a known station and for an originator
without an entry: it is accepted, with a live path through the station, exactly if it is not the
node's own and the clock moved between the creation of the entry and its test, or the station has
the zero address. -/
theorem unknown_originator_learned_iff (clk : PannClock)
    (hnone : r.meshPaths.find pann.origAddr = none) (hsta : stas sa = some lastHopMetric)
    (htarget : pann.targetAddr = .BROADCAST) (hgate : pann.isGate = false) :
    (r.acceptsPann stas clk sa pann = true ∧
      ∃ p, (r.hwmpPannFrameProcess stas clk sa pann).1.meshPaths.find pann.origAddr = some p ∧
        p.dst = pann.origAddr ∧ p.nextHop = sa ∧ p.expired clk.update = false) ↔
      pann.origAddr ≠ r.nodeAddr ∧ (clk.create < clk.test ∨ sa = 0) := by
  have htested : r.testedPath clk pann = .create pann.origAddr clk.create :=
    MeshPaths.pathOrNew_of_find_eq_none hnone
  have hrule : r.discards clk sa pann lastHopMetric = false ↔ clk.create < clk.test ∨ sa = 0 := by
    rw [discards_of_not_gate hgate, htested, ignores_create]
  constructor
  · rintro ⟨haccepts, -⟩
    obtain ⟨l, da, hc, hd⟩ := considers_of_acceptsPann haccepts
    obtain rfl : lastHopMetric = l := Option.some.inj (hsta.symm.trans hc.station)
    exact ⟨hc.orig_ne, hrule.mp hd⟩
  · rintro ⟨horig, hmoved⟩
    have hc := considers_of_broadcast clk horig hsta htarget
    have hd := hrule.mpr hmoved
    refine ⟨by rw [acceptsPann_of_considers hc, hd]; rfl, _, process_find_of_accepts hc hd, ?_, rfl,
      ?_⟩
    · rw [htested]
      rfl
    · rw [MeshPath.expired_eq_false]
      simp only [updatePath, milliseconds]
      omega

/-- An announcement of station 2, which is not a gate. -/
def firstAnnouncement : MeshPathFramePANN := ⟨2, 1, 0, 32, .BROADCAST, 0, false, true⟩

/-- The announcement takes effect if the clock has moved. -/
theorem moved_clock_learns_originator :
    ∃ p, (sampleNode.hwmpPannFrameProcess throughStation3 (clockAt 4 5) 3
      firstAnnouncement).1.meshPaths.find 2 = some p ∧
        p.dst = 2 ∧ p.nextHop = 3 ∧ p.expired 5 = false := by
  have hnone : sampleNode.meshPaths.find firstAnnouncement.origAddr = none := rfl
  have hsta : throughStation3 3 = some 1 := rfl
  have hiff := unknown_originator_learned_iff (clockAt 4 5) hnone hsta rfl rfl
  exact (hiff.mpr ⟨by decide, .inl (by decide)⟩).2

/-- With equal readings the announcement is discarded. -/
theorem coarse_clock_discards_originator :
    (PannClock.at 5).Nondecreasing 5 5 ∧ sampleNode.meshPaths.find 2 = none ∧
      (throughStation3 3).isSome = true ∧
      sampleNode.acceptsPann throughStation3 (.at 5) 3 firstAnnouncement = false :=
  ⟨clockAt_nondecreasing le_rfl le_rfl, rfl, rfl, by decide⟩

end Routing

end Fbmeshd
