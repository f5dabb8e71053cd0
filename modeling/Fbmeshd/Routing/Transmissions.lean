import Fbmeshd.Routing.NodeRuns

/-!
# What a node sends

A node sends three kinds of frames: its own announcements, its replies, and copies of the
frames it accepts. Each announcement and each reply takes the next sequence number.
-/

namespace Fbmeshd

namespace Routing

/-- The frame a root announces itself with. -/
def rootFrame (r : Routing) : Transmission :=
  txPannFrame .BROADCAST r.nodeAddr (r.sn + 1) 0 r.elementTtl.toUInt8 .BROADCAST 0 r.isGate true

/-- The sequence numbers of the frames in `out` that `addr` originates. -/
def originatedSns (addr : MacAddress) (out : List Transmission) : List UInt64 :=
  (out.filter fun t => t.2.origAddr = addr).map fun t => t.2.origSn

/-- A callback or a frame either originates nothing and keeps `sn`, or originates one frame
with the next number and stores that number. -/
def CountsUp (addr : MacAddress) (sn : UInt64) (result : Routing × List Transmission) : Prop :=
  (originatedSns addr result.2 = [] ∧ result.1.sn = sn) ∨
    (originatedSns addr result.2 = [sn + 1] ∧ result.1.sn = sn + 1)

/-- A root sends its announcement, another node nothing. -/
theorem doMeshPathRoot_snd (now : ℤ) (r : Routing) :
    (r.doMeshPathRoot now).2 = if r.isRoot then [r.rootFrame] else [] := by
  unfold doMeshPathRoot
  split <;> rfl

private theorem doMeshPathRoot_countsUp (now : ℤ) (r : Routing) :
    CountsUp r.nodeAddr r.sn (r.doMeshPathRoot now) := by
  unfold CountsUp doMeshPathRoot
  split
  · right
    simp [originatedSns, txPannFrame]
  · left
    simp [originatedSns]

/-- `setGatewayStatus` sends nothing, or what `doMeshPathRoot` sends of a node that differs
in its roles and timers only. -/
theorem setGatewayStatus_cases (isGate : Bool) (now : ℤ) (r : Routing) :
    ((r.setGatewayStatus isGate now).2 = [] ∧ (r.setGatewayStatus isGate now).1.sn = r.sn) ∨
      ∃ timer, r.setGatewayStatus isGate now = doMeshPathRoot now
        { r with isGate := true, isRoot := true, noLongerAGateRANNTimer := timer } := by
  unfold setGatewayStatus
  split
  · exact .inl ⟨rfl, rfl⟩
  · cases isGate with
    | false => exact .inl ⟨rfl, rfl⟩
    | true =>
      dsimp only
      split
      · split
        · exact .inr ⟨_, rfl⟩
        · exact .inl ⟨rfl, rfl⟩
      · exact .inl ⟨rfl, rfl⟩

variable {stas : LinkMetrics} {clk : PannClock} {sa : MacAddress} {pann : MeshPathFramePANN}
  {r : Routing}

/-- What is sent for a frame is a reply to it or a copy of it. -/
theorem mem_process_snd {t : Transmission}
    (ht : t ∈ (r.hwmpPannFrameProcess stas clk sa pann).2) :
    ∃ lastHopMetric da, Considers stas clk sa pann r lastHopMetric da ∧
      r.discards clk sa pann lastHopMetric = false ∧
      ((pann.replyRequested = true ∧ t = r.replyFrame sa pann.origAddr) ∨
        (1 < pann.ttl ∧ pann.targetAddr ≠ r.nodeAddr ∧
          t = forwardedFrame da pann (newMetric pann.metric lastHopMetric))) := by
  obtain ⟨-, h⟩ | ⟨l, da, hc, ⟨-, h⟩ | ⟨hd, oldHasOrig, h⟩⟩ := process_cases stas clk sa pann r
  · simp [h] at ht
  · simp [h] at ht
  · rw [h] at ht
    have hsent := mem_acceptPann_snd ht
    exact ⟨l, da, hc, hd, hsent⟩

/-- The numbers of the frames that a node originates for a frame count up. -/
theorem process_countsUp (stas : LinkMetrics) (clk : PannClock) (sa : MacAddress)
    (pann : MeshPathFramePANN) (r : Routing) :
    CountsUp r.nodeAddr r.sn (r.hwmpPannFrameProcess stas clk sa pann) := by
  obtain ⟨-, h⟩ | ⟨l, da, hc, ⟨-, h⟩ | ⟨-, oldHasOrig, h⟩⟩ := process_cases stas clk sa pann r
  · rw [h]
    exact .inl ⟨rfl, rfl⟩
  · rw [h]
    exact .inl ⟨rfl, rfl⟩
  · -- The copy keeps its originator, so only the reply counts.
    have hforward (metric : UInt32) (r' : Routing) :
        originatedSns r.nodeAddr (r'.forwardFrames clk da pann metric oldHasOrig) = [] := by
      simp only [originatedSns, List.map_eq_nil_iff, List.filter_eq_nil_iff, decide_eq_true_eq]
      intro t ht
      rw [(mem_forwardFrames ht).2.2]
      exact hc.orig_ne
    have happend (out out' : List Transmission) : originatedSns r.nodeAddr (out ++ out') =
        originatedSns r.nodeAddr out ++ originatedSns r.nodeAddr out' := by
      simp [originatedSns]
    unfold CountsUp
    rw [h, acceptPann_snd, happend, hforward, List.append_nil, acceptPann_fst]
    cases hreply : pann.replyRequested with
    | false => exact .inl ⟨by simp [replyFrames, hreply, originatedSns], rfl⟩
    | true =>
      exact .inr ⟨by simp [replyFrames, hreply, originatedSns, txPannFrame, afterGetMeshPath], rfl⟩

end Routing

namespace InternalEvent

/-- A callback sends nothing, or one announcement of the node in its new role. -/
theorem mem_apply_snd {e : InternalEvent} {r : Routing} {t : Transmission}
    (ht : t ∈ (e.apply r).2) :
    t = Routing.rootFrame { r with isGate := (e.apply r).1.isGate } := by
  cases e with
  | housekeeping entryNow now => simp [apply] at ht
  | noLongerAGateTimer => simp [apply] at ht
  | meshPathRootTimer now =>
    simp only [apply, Routing.fireMeshPathRootTimer, Routing.doMeshPathRoot_snd] at ht ⊢
    split at ht
    · rw [List.mem_singleton.mp ht, Routing.doMeshPathRoot_fields]
      rfl
    · simp at ht
  | setGatewayStatus isGate now =>
    simp only [apply] at ht ⊢
    rcases r.setGatewayStatus_cases isGate now with ⟨hnone, -⟩ | ⟨timer, heq⟩
    · simp [hnone] at ht
    · rw [heq, Routing.doMeshPathRoot_snd, if_pos rfl] at ht
      rw [List.mem_singleton.mp ht, heq, Routing.doMeshPathRoot_fields]
      rfl

/-- So do those for its own events. -/
theorem apply_countsUp (e : InternalEvent) (r : Routing) :
    Routing.CountsUp r.nodeAddr r.sn (e.apply r) := by
  cases e with
  | housekeeping entryNow now => exact .inl ⟨rfl, rfl⟩
  | noLongerAGateTimer => exact .inl ⟨rfl, rfl⟩
  | meshPathRootTimer now =>
    exact Routing.doMeshPathRoot_countsUp now { r with meshPathRootTimer := none }
  | setGatewayStatus isGate now =>
    rcases r.setGatewayStatus_cases isGate now with ⟨hnone, hsn⟩ | ⟨timer, heq⟩
    · exact .inl ⟨by simp [apply, hnone, Routing.originatedSns], hsn⟩
    · rw [apply, heq]
      exact Routing.doMeshPathRoot_countsUp now
        { r with isGate := true, isRoot := true, noLongerAGateRANNTimer := timer }

end InternalEvent

end Fbmeshd
