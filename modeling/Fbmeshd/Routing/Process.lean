import Fbmeshd.Routing.MeshPath
import Mathlib.Tactic.ByContra

/-!
# The routing node

`Routing` keeps the mesh path table of one node, announces the node while it is a root,
and processes the announcements of others. Frames that `txPannFrame` hands to the
transport are returned in order with their destination.
-/

namespace Fbmeshd

/-- The members of `Routing` that its callbacks read or write. The two durations are in
milliseconds. -/
structure Routing where
  nodeAddr : MacAddress
  elementTtl : UInt32
  activePathTimeout : ℕ
  rootPannInterval : ℕ
  sn : UInt64 := 0
  isRoot : Bool := false
  isGate : Bool := false
  meshPaths : MeshPaths := ∅
  noLongerAGateRANNTimer : AsyncTimeout := none
  housekeepingTimer : AsyncTimeout := none
  meshPathRootTimer : AsyncTimeout := none

/-- A frame given to the transport, with the station it is sent to. -/
abbrev Transmission := MacAddress × MeshPathFramePANN

/-- The clock readings one call of `hwmpPannFrameProcess` makes, in program order: the test
of the target's path, the construction of a new entry, its test, the two rankings and the
count of gates with one reading for each entry, and the new expiry. -/
structure PannClock where
  target : ℤ
  create : ℤ
  test : ℤ
  topKGatesOld : MacAddress → ℤ
  gateCount : MacAddress → ℤ
  update : ℤ
  topKGatesNew : MacAddress → ℤ

/-- All readings at one instant. -/
def PannClock.at (now : ℤ) : PannClock :=
  ⟨now, now, now, fun _ => now, fun _ => now, now, fun _ => now⟩

/-- The readings do not decrease and lie between `start` and `finish`. The readings of one
pass over the table come in no particular order. -/
structure PannClock.Nondecreasing (clk : PannClock) (start finish : ℤ) : Prop where
  start_le_target : start ≤ clk.target
  target_le_create : clk.target ≤ clk.create
  create_le_test : clk.create ≤ clk.test
  test_le_topKGatesOld : ∀ a, clk.test ≤ clk.topKGatesOld a
  topKGatesOld_le_gateCount : ∀ a b, clk.topKGatesOld a ≤ clk.gateCount b
  gateCount_le_update : ∀ a, clk.gateCount a ≤ clk.update
  update_le_topKGatesNew : ∀ a, clk.update ≤ clk.topKGatesNew a
  topKGatesNew_le_finish : ∀ a, clk.topKGatesNew a ≤ finish

namespace Routing

/-- The clock readings of a frame processed at one instant, except that a new entry may
have been created at an earlier reading. -/
def clockAt (create now : ℤ) : PannClock := { PannClock.at now with target := create, create }

/-- The readings of `clockAt` do not decrease if its two instants do not. -/
theorem clockAt_nondecreasing {start create now : ℤ} (hstart : start ≤ create)
    (hcreate : create ≤ now) : (clockAt create now).Nondecreasing start now := by
  constructor <;> simp [clockAt, PannClock.at, hstart, hcreate]

/-- `txPannFrame`. The narrowing of the hop limit to eight bits happens in its callers'
argument conversion. -/
def txPannFrame (da origAddr : MacAddress) (origSn : UInt64) (hopCount ttl : UInt8)
    (targetAddr : MacAddress) (metric : UInt32) (isGate replyRequested : Bool) : Transmission :=
  (da, { origAddr, origSn, hopCount, ttl, targetAddr, metric, isGate, replyRequested })

/-- `doMeshPathRoot`. -/
def doMeshPathRoot (now : ℤ) (r : Routing) : Routing × List Transmission :=
  if r.isRoot then
    let sn := r.sn + 1
    ({ r with sn, meshPathRootTimer := .scheduleTimeout now (milliseconds r.rootPannInterval) },
      [txPannFrame .BROADCAST r.nodeAddr sn 0 r.elementTtl.toUInt8 .BROADCAST 0 r.isGate true])
  else (r, [])

/-- `doMeshHousekeeping`, given the reading made at each entry. -/
def doMeshHousekeeping (entryNow : MacAddress → ℤ) (now : ℤ) (r : Routing) : Routing :=
  { r with
    meshPaths := r.meshPaths.meshPathExpire entryNow
    housekeepingTimer := .scheduleTimeout now kMeshHousekeepingInterval }

/-- `prepare`, which the constructor posts to the event base. -/
def prepare (entryNow : MacAddress → ℤ) (now : ℤ) (r : Routing) : Routing × List Transmission :=
  let (r, out) := r.doMeshPathRoot now
  (r.doMeshHousekeeping entryNow now, out)

/-- The function `setGatewayStatus` posts to the event base. -/
def setGatewayStatus (isGate : Bool) (now : ℤ) (r : Routing) : Routing × List Transmission :=
  if r.isGate = isGate then (r, [])
  else
    let r := { r with isGate }
    if isGate then
      let r := { r with noLongerAGateRANNTimer := r.noLongerAGateRANNTimer.cancelTimeout }
      if !r.isRoot then doMeshPathRoot now { r with isRoot := true } else (r, [])
    else
      ({ r with
        noLongerAGateRANNTimer := .scheduleTimeout now (milliseconds r.activePathTimeout) }, [])

/-- The callback of `noLongerAGateRANNTimer_`. -/
def noLongerAGate (r : Routing) : Routing :=
  { r with isRoot := false, noLongerAGateRANNTimer := none }

/-- The callback of `meshPathRootTimer_`, which is idle while it runs. -/
def fireMeshPathRootTimer (now : ℤ) (r : Routing) : Routing × List Transmission :=
  doMeshPathRoot now { r with meshPathRootTimer := none }

/-- `getMeshPaths`, given the stations and the reading made at each entry. -/
def getMeshPaths (stas : LinkMetrics) (now : MacAddress → ℤ) (r : Routing) : MeshPaths :=
  r.meshPaths.keep fun addr p => !p.expired (now addr) && (stas p.nextHop).isSome

/-- The station a frame for `targetAddr` is forwarded to: the target itself when it is not
another station, else the next hop of its path, if that is stored and not expired. -/
def forwardTo (now : ℤ) (targetAddr : MacAddress) (r : Routing) : Option MacAddress :=
  if targetAddr.isUnicast && targetAddr ≠ r.nodeAddr then
    match r.meshPaths.find targetAddr with
    | none => none
    | some targetMpath => if targetMpath.expired now then none else some targetMpath.nextHop
  else some targetAddr

/-- The first rule by which a frame is ignored: the path is not expired, and the frame is
old or would change the next hop without a better metric. -/
def ignores (mpath : MeshPath) (now : ℤ) (sa : MacAddress) (origSn : UInt64)
    (newMetric : UInt32) : Bool :=
  !mpath.expired now &&
    (origSn < mpath.sn || mpath.nextHop ≠ sa && mpath.metric ≤ newMetric)

/-- The second rule: the frame is from a gate, and enough other gates are no worse. -/
def redundantGate (paths : MeshPaths) (now : MacAddress → ℤ) (isGate : Bool)
    (pann : MeshPathFramePANN) (newMetric : UInt32) : Bool :=
  pann.isGate &&
    MeshPaths.maxNoGates isGate ≤ paths.betterGates now pann.origAddr newMetric

/-- The assignments to the entry of an accepted frame. -/
def updatePath (mpath : MeshPath) (now : ℤ) (timeout : ℕ) (sa : MacAddress)
    (pann : MeshPathFramePANN) (lastHopMetric : UInt32) : MeshPath :=
  { mpath with
    sn := pann.origSn
    metric := newMetric pann.metric lastHopMetric
    nextHop := sa
    nextHopMetric := lastHopMetric
    hopCount := pann.hopCount + 1
    isGate := pann.isGate
    expTime := now + milliseconds timeout }

/-- The reply to an accepted frame that asks for one. -/
def replyFrames (sa : MacAddress) (pann : MeshPathFramePANN) (r : Routing) :
    Routing × List Transmission :=
  if pann.replyRequested then
    let sn := r.sn + 1
    ({ r with sn },
      [txPannFrame sa r.nodeAddr sn 0 r.elementTtl.toUInt8 pann.origAddr 0 r.isGate false])
  else (r, [])

/-- The forwarded copy of an accepted frame. `oldHasOrig` is the ranking of the originator
before the update. -/
def forwardFrames (clk : PannClock) (da : MacAddress) (pann : MeshPathFramePANN)
    (metric : UInt32) (oldHasOrig : Bool) (r : Routing) : List Transmission :=
  if pann.ttl ≤ 1 then []
  else
    let newHasOrig := r.meshPaths.isStationInTopKGates r.isGate clk.topKGatesNew pann.origAddr
    if pann.targetAddr ≠ r.nodeAddr && (!pann.isGate || oldHasOrig || newHasOrig) then
      [txPannFrame da pann.origAddr pann.origSn (pann.hopCount + 1) (pann.ttl - 1)
        pann.targetAddr metric pann.isGate pann.replyRequested]
    else []

/-- The part of `hwmpPannFrameProcess` after both rules: update the entry `mpath` of the
originator, reply and forward. -/
def acceptPann (clk : PannClock) (sa : MacAddress) (pann : MeshPathFramePANN)
    (lastHopMetric : UInt32) (da : MacAddress) (oldHasOrig : Bool) (mpath : MeshPath)
    (r : Routing) : Routing × List Transmission :=
  let mpath := updatePath mpath clk.update r.activePathTimeout sa pann lastHopMetric
  let r := { r with meshPaths := r.meshPaths.assign pann.origAddr mpath }
  let (r, reply) := r.replyFrames sa pann
  (r, reply ++ r.forwardFrames clk da pann mpath.metric oldHasOrig)

/-- `hwmpPannFrameProcess`, given the stations, the clock readings and the sender. -/
def hwmpPannFrameProcess (stas : LinkMetrics) (clk : PannClock) (sa : MacAddress)
    (pann : MeshPathFramePANN) (r : Routing) : Routing × List Transmission :=
  if pann.origAddr = r.nodeAddr then (r, [])
  else
    match stas sa with
    | none => (r, [])
    | some lastHopMetric =>
      match r.forwardTo clk.target pann.targetAddr with
      | none => (r, [])
      | some da =>
        let metric := newMetric pann.metric lastHopMetric
        let mpath := r.meshPaths.pathOrNew pann.origAddr clk.create
        let r := { r with meshPaths := r.meshPaths.withPath pann.origAddr clk.create }
        if ignores mpath clk.test sa pann.origSn metric then (r, [])
        else
          let oldHasOrig :=
            r.meshPaths.isStationInTopKGates r.isGate clk.topKGatesOld pann.origAddr
          if redundantGate r.meshPaths clk.gateCount r.isGate pann metric then (r, [])
          else acceptPann clk sa pann lastHopMetric da oldHasOrig mpath r

/-- `doMeshPathRoot` changes the sequence number and its timer only. -/
theorem doMeshPathRoot_fields (now : ℤ) (r : Routing) :
    (r.doMeshPathRoot now).1 =
      { r with
        sn := (r.doMeshPathRoot now).1.sn
        meshPathRootTimer := (r.doMeshPathRoot now).1.meshPathRootTimer } := by
  unfold doMeshPathRoot
  split <;> rfl

/-- `setGatewayStatus` leaves the node's parameters and its table alone. -/
theorem setGatewayStatus_fields (isGate : Bool) (now : ℤ) (r : Routing) :
    (r.setGatewayStatus isGate now).1 =
      { r with
        sn := (r.setGatewayStatus isGate now).1.sn
        isRoot := (r.setGatewayStatus isGate now).1.isRoot
        isGate := (r.setGatewayStatus isGate now).1.isGate
        noLongerAGateRANNTimer := (r.setGatewayStatus isGate now).1.noLongerAGateRANNTimer
        meshPathRootTimer := (r.setGatewayStatus isGate now).1.meshPathRootTimer } := by
  unfold setGatewayStatus
  split
  · rfl
  · cases isGate with
    | false => rfl
    | true =>
      dsimp only
      split
      · split
        · rw [doMeshPathRoot_fields]
        · rfl
      · rfl

/-!
## The outcomes of a frame

A frame is dropped before the table is touched, discarded after `getMeshPath` may have
inserted an entry, or accepted. Everything later is derived from this case distinction.
-/

variable {stas : LinkMetrics} {clk : PannClock} {sa : MacAddress} {pann : MeshPathFramePANN}
  {r : Routing} {lastHopMetric : UInt32} {da : MacAddress}

/-- The node after `getMeshPath(origAddr)`. -/
def afterGetMeshPath (clk : PannClock) (pann : MeshPathFramePANN) (r : Routing) : Routing :=
  { r with meshPaths := r.meshPaths.withPath pann.origAddr clk.create }

/-- The entry the first rule is tested against. -/
def testedPath (clk : PannClock) (pann : MeshPathFramePANN) (r : Routing) : MeshPath :=
  r.meshPaths.pathOrNew pann.origAddr clk.create

/-- A frame that reaches the two rules: it is another node's, from a known station, and its
target can be reached. -/
structure Considers (stas : LinkMetrics) (clk : PannClock) (sa : MacAddress)
    (pann : MeshPathFramePANN) (r : Routing) (lastHopMetric : UInt32) (da : MacAddress) : Prop where
  orig_ne : pann.origAddr ≠ r.nodeAddr
  station : stas sa = some lastHopMetric
  target : r.forwardTo clk.target pann.targetAddr = some da

/-- A broadcast announcement from a known station reaches the two rules. -/
theorem considers_of_broadcast (clk : PannClock) (horig : pann.origAddr ≠ r.nodeAddr)
    (hsta : stas sa = some lastHopMetric) (htarget : pann.targetAddr = .BROADCAST) :
    Considers stas clk sa pann r lastHopMetric .BROADCAST :=
  ⟨horig, hsta, by simp [forwardTo, htarget]⟩

/-- One of the two rules applies. -/
def discards (clk : PannClock) (sa : MacAddress) (pann : MeshPathFramePANN) (r : Routing)
    (lastHopMetric : UInt32) : Bool :=
  ignores (r.testedPath clk pann) clk.test sa pann.origSn (newMetric pann.metric lastHopMetric) ||
    redundantGate (r.afterGetMeshPath clk pann).meshPaths clk.gateCount r.isGate pann
      (newMetric pann.metric lastHopMetric)

/-- A frame that is not considered changes nothing. -/
theorem process_of_not_considers
    (h : ∀ lastHopMetric da, ¬ Considers stas clk sa pann r lastHopMetric da) :
    r.hwmpPannFrameProcess stas clk sa pann = (r, []) := by
  unfold hwmpPannFrameProcess
  split
  · rfl
  · split
    · rfl
    · split
      · rfl
      · exact absurd ⟨‹_›, ‹_›, ‹_›⟩ (h _ _)

private theorem process_of_considers (h : Considers stas clk sa pann r lastHopMetric da) :
    r.hwmpPannFrameProcess stas clk sa pann =
      if r.discards clk sa pann lastHopMetric then (r.afterGetMeshPath clk pann, [])
      else acceptPann clk sa pann lastHopMetric da
        ((r.afterGetMeshPath clk pann).meshPaths.isStationInTopKGates r.isGate clk.topKGatesOld
          pann.origAddr)
        (r.testedPath clk pann) (r.afterGetMeshPath clk pann) := by
  unfold hwmpPannFrameProcess
  rw [if_neg h.orig_ne, h.station, h.target]
  simp only [discards, testedPath, afterGetMeshPath, Bool.or_eq_true]
  split_ifs with h₁ h₂ h₃ h₄ <;> simp_all

/-- The frame is accepted. -/
def acceptsPann (stas : LinkMetrics) (clk : PannClock) (sa : MacAddress)
    (pann : MeshPathFramePANN) (r : Routing) : Bool :=
  pann.origAddr ≠ r.nodeAddr &&
    match stas sa, r.forwardTo clk.target pann.targetAddr with
    | some lastHopMetric, some _ => !r.discards clk sa pann lastHopMetric
    | _, _ => false

/-- A frame that is considered is accepted or discarded. -/
theorem acceptsPann_of_considers (h : Considers stas clk sa pann r lastHopMetric da) :
    r.acceptsPann stas clk sa pann = !r.discards clk sa pann lastHopMetric := by
  simp [acceptsPann, h.orig_ne, h.station, h.target]

/-- An accepted frame was considered and not discarded. -/
theorem considers_of_acceptsPann (h : r.acceptsPann stas clk sa pann = true) :
    ∃ lastHopMetric da, Considers stas clk sa pann r lastHopMetric da ∧
      r.discards clk sa pann lastHopMetric = false := by
  simp only [acceptsPann, Bool.and_eq_true, decide_eq_true_eq] at h
  obtain ⟨horig, h⟩ := h
  split at h
  next lastHopMetric da hsta hda => exact ⟨lastHopMetric, da, ⟨horig, hsta, hda⟩, by simpa using h⟩
  next => simp at h

/-- The three outcomes of a frame. -/
theorem process_cases (stas : LinkMetrics) (clk : PannClock) (sa : MacAddress)
    (pann : MeshPathFramePANN) (r : Routing) :
    (r.acceptsPann stas clk sa pann = false ∧
      r.hwmpPannFrameProcess stas clk sa pann = (r, [])) ∨
    ∃ lastHopMetric da, Considers stas clk sa pann r lastHopMetric da ∧
      ((r.discards clk sa pann lastHopMetric = true ∧
        r.hwmpPannFrameProcess stas clk sa pann = (r.afterGetMeshPath clk pann, [])) ∨
      (r.discards clk sa pann lastHopMetric = false ∧ ∃ oldHasOrig,
        r.hwmpPannFrameProcess stas clk sa pann = acceptPann clk sa pann lastHopMetric da
          oldHasOrig (r.testedPath clk pann) (r.afterGetMeshPath clk pann))) := by
  by_cases h : ∃ lastHopMetric da, Considers stas clk sa pann r lastHopMetric da
  · obtain ⟨lastHopMetric, da, hc⟩ := h
    refine .inr ⟨lastHopMetric, da, hc, ?_⟩
    rw [process_of_considers hc]
    cases hd : r.discards clk sa pann lastHopMetric with
    | true => exact .inl ⟨rfl, if_pos rfl⟩
    | false => exact .inr ⟨rfl, _, if_neg Bool.false_ne_true⟩
  · refine .inl ⟨?_, process_of_not_considers fun lastHopMetric da hc => h ⟨lastHopMetric, da, hc⟩⟩
    by_contra haccepts
    obtain ⟨lastHopMetric, da, hc, -⟩ := considers_of_acceptsPann (by simpa using haccepts)
    exact h ⟨lastHopMetric, da, hc⟩

/-- The node after an accepted frame. -/
theorem acceptPann_fst (clk : PannClock) (sa : MacAddress) (pann : MeshPathFramePANN)
    (lastHopMetric : UInt32) (da : MacAddress) (oldHasOrig : Bool) (mpath : MeshPath)
    (r : Routing) :
    (acceptPann clk sa pann lastHopMetric da oldHasOrig mpath r).1 =
      { r with
        meshPaths := r.meshPaths.assign pann.origAddr
          (updatePath mpath clk.update r.activePathTimeout sa pann lastHopMetric)
        sn := if pann.replyRequested then r.sn + 1 else r.sn } := by
  cases h : pann.replyRequested <;> simp [acceptPann, replyFrames, h]

/-- The frames sent for an accepted frame: the reply, then the forwarded copy. -/
theorem acceptPann_snd (clk : PannClock) (sa : MacAddress) (pann : MeshPathFramePANN)
    (lastHopMetric : UInt32) (da : MacAddress) (oldHasOrig : Bool) (mpath : MeshPath)
    (r : Routing) :
    (acceptPann clk sa pann lastHopMetric da oldHasOrig mpath r).2 =
      (r.replyFrames sa pann).2 ++
        (acceptPann clk sa pann lastHopMetric da oldHasOrig mpath r).1.forwardFrames clk da pann
          (newMetric pann.metric lastHopMetric) oldHasOrig := by
  cases h : pann.replyRequested <;> simp [acceptPann, replyFrames, h, updatePath]

/-- The copy of a frame that is passed on. -/
def forwardedFrame (da : MacAddress) (pann : MeshPathFramePANN) (metric : UInt32) :
    Transmission :=
  txPannFrame da pann.origAddr pann.origSn (pann.hopCount + 1) (pann.ttl - 1) pann.targetAddr
    metric pann.isGate pann.replyRequested

/-- A node's answer to a frame from `origAddr`, sent to the station it came from. -/
def replyFrame (sa origAddr : MacAddress) (r : Routing) : Transmission :=
  txPannFrame sa r.nodeAddr (r.sn + 1) 0 r.elementTtl.toUInt8 origAddr 0 r.isGate false

/-- The condition under which an accepted frame is passed on. -/
def forwards (clk : PannClock) (pann : MeshPathFramePANN) (oldHasOrig : Bool) (r : Routing) :
    Bool :=
  1 < pann.ttl && pann.targetAddr ≠ r.nodeAddr && (!pann.isGate || oldHasOrig ||
    r.meshPaths.isStationInTopKGates r.isGate clk.topKGatesNew pann.origAddr)

/-- A frame is passed on once or not at all. -/
theorem forwardFrames_eq (clk : PannClock) (da : MacAddress) (pann : MeshPathFramePANN)
    (metric : UInt32) (oldHasOrig : Bool) (r : Routing) :
    r.forwardFrames clk da pann metric oldHasOrig =
      if r.forwards clk pann oldHasOrig then [forwardedFrame da pann metric] else [] := by
  unfold forwardFrames
  by_cases httl : pann.ttl ≤ 1
  · have hno : r.forwards clk pann oldHasOrig = false := by
      simp [forwards, UInt8.not_lt.mpr httl]
    rw [if_pos httl, hno, if_neg Bool.false_ne_true]
  · rw [if_neg httl]
    simp only [forwards, UInt8.not_le.mp httl, decide_true, Bool.true_and]
    rfl

/-- A frame that is passed on had hops left and was not for this node. -/
theorem mem_forwardFrames {metric : UInt32} {oldHasOrig : Bool} {t : Transmission}
    (ht : t ∈ r.forwardFrames clk da pann metric oldHasOrig) :
    1 < pann.ttl ∧ pann.targetAddr ≠ r.nodeAddr ∧ t = forwardedFrame da pann metric := by
  rw [forwardFrames_eq] at ht
  split at ht
  next hforwards =>
    simp only [forwards, Bool.and_eq_true, decide_eq_true_eq] at hforwards
    exact ⟨hforwards.1.1, hforwards.1.2, List.mem_singleton.mp ht⟩
  next => simp at ht

/-- At most one reply with a new sequence number and at most one copy with a smaller hop
limit are sent for an accepted frame. -/
theorem mem_acceptPann_snd {oldHasOrig : Bool} {mpath : MeshPath} {t : Transmission}
    (ht : t ∈ (acceptPann clk sa pann lastHopMetric da oldHasOrig mpath r).2) :
    (pann.replyRequested = true ∧ t = r.replyFrame sa pann.origAddr) ∨
      (1 < pann.ttl ∧ pann.targetAddr ≠ r.nodeAddr ∧
        t = forwardedFrame da pann (newMetric pann.metric lastHopMetric)) := by
  rw [acceptPann_snd, List.mem_append] at ht
  rcases ht with ht | ht
  · left
    unfold replyFrames at ht
    split at ht
    next hreply => exact ⟨hreply, by simpa [replyFrame] using ht⟩
    next => simp at ht
  · right
    have h := mem_forwardFrames ht
    rwa [acceptPann_fst] at h

/-! ## What a frame changes -/

/-- An accepted frame rewrites the entry of its originator. -/
theorem process_of_accepts (hc : Considers stas clk sa pann r lastHopMetric da)
    (hd : r.discards clk sa pann lastHopMetric = false) :
    (r.hwmpPannFrameProcess stas clk sa pann).1 =
      { r with
        meshPaths := (r.meshPaths.withPath pann.origAddr clk.create).assign pann.origAddr
          (updatePath (r.testedPath clk pann) clk.update r.activePathTimeout sa pann
            lastHopMetric)
        sn := if pann.replyRequested then r.sn + 1 else r.sn } := by
  rw [process_of_considers hc, hd, if_neg Bool.false_ne_true, acceptPann_fst]
  rfl

/-- The frames sent for an accepted frame, in order. -/
theorem process_snd_of_accepts (hc : Considers stas clk sa pann r lastHopMetric da)
    (hd : r.discards clk sa pann lastHopMetric = false) :
    ∃ oldHasOrig, (r.hwmpPannFrameProcess stas clk sa pann).2 =
      ((r.afterGetMeshPath clk pann).replyFrames sa pann).2 ++
        (r.hwmpPannFrameProcess stas clk sa pann).1.forwardFrames clk da pann
          (newMetric pann.metric lastHopMetric) oldHasOrig := by
  rw [process_of_considers hc, hd, if_neg Bool.false_ne_true]
  exact ⟨_, acceptPann_snd ..⟩

/-- A discarded frame leaves at most a new entry. -/
theorem process_of_discards (hc : Considers stas clk sa pann r lastHopMetric da)
    (hd : r.discards clk sa pann lastHopMetric = true) :
    r.hwmpPannFrameProcess stas clk sa pann = (r.afterGetMeshPath clk pann, []) := by
  rw [process_of_considers hc, hd, if_pos rfl]

/-- A frame leaves the node's parameters and roles alone. -/
theorem process_fields (stas : LinkMetrics) (clk : PannClock) (sa : MacAddress)
    (pann : MeshPathFramePANN) (r : Routing) :
    (r.hwmpPannFrameProcess stas clk sa pann).1 =
      { r with
        meshPaths := (r.hwmpPannFrameProcess stas clk sa pann).1.meshPaths
        sn := (r.hwmpPannFrameProcess stas clk sa pann).1.sn } := by
  obtain ⟨-, h⟩ | ⟨l, da, hc, ⟨hd, h⟩ | ⟨hd, -⟩⟩ := process_cases stas clk sa pann r
  · rw [h]
  · rw [h]
    rfl
  · rw [process_of_accepts hc hd]

/-- A frame touches no entry but its originator's. -/
theorem process_find_of_ne (stas : LinkMetrics) (clk : PannClock) (sa : MacAddress)
    (r : Routing) {a : MacAddress} (ha : a ≠ pann.origAddr) :
    (r.hwmpPannFrameProcess stas clk sa pann).1.meshPaths.find a = r.meshPaths.find a := by
  obtain ⟨-, h⟩ | ⟨l, da, hc, ⟨hd, h⟩ | ⟨hd, -⟩⟩ := process_cases stas clk sa pann r
  · rw [h]
  · rw [h]
    exact MeshPaths.find_withPath_of_ne ha
  · rw [process_of_accepts hc hd]
    exact (MeshPaths.find_assign_of_ne ha).trans (MeshPaths.find_withPath_of_ne ha)

/-- An accepted frame updates the path to its originator. -/
theorem process_find_of_accepts (hc : Considers stas clk sa pann r lastHopMetric da)
    (hd : r.discards clk sa pann lastHopMetric = false) :
    (r.hwmpPannFrameProcess stas clk sa pann).1.meshPaths.find pann.origAddr =
      some (updatePath (r.testedPath clk pann) clk.update r.activePathTimeout sa pann
        lastHopMetric) := by
  rw [process_of_accepts hc hd]
  exact MeshPaths.find_assign_self

/-- A discarded frame leaves the path it was tested against. -/
theorem process_find_of_discards (hc : Considers stas clk sa pann r lastHopMetric da)
    (hd : r.discards clk sa pann lastHopMetric = true) :
    (r.hwmpPannFrameProcess stas clk sa pann).1.meshPaths.find pann.origAddr =
      some (r.testedPath clk pann) := by
  rw [process_of_discards hc hd]
  exact MeshPaths.find_withPath_self

/-- A frame passes the first rule when the path is expired, or when it is not older and
comes from the next hop or with a better metric. -/
theorem ignores_eq_false {mpath : MeshPath} {now : ℤ} {origSn : UInt64} {metric : UInt32} :
    ignores mpath now sa origSn metric = false ↔
      mpath.expired now = true ∨
        mpath.sn ≤ origSn ∧ (mpath.nextHop = sa ∨ metric < mpath.metric) := by
  cases h : mpath.expired now with
  | true => simp [ignores, h]
  | false =>
    simp only [ignores, h, Bool.not_false, Bool.true_and, Bool.or_eq_false_iff,
      decide_eq_false_iff_not, UInt64.not_lt, Bool.and_eq_false_iff, not_not, UInt32.not_le,
      Bool.false_eq_true, false_or, ne_eq]

/-- Of a path that is not expired, a frame never lowers the sequence number, and it changes
the next hop only for a better metric. -/
theorem process_path_stable (stas : LinkMetrics) {clk : PannClock} (sa : MacAddress)
    (pann : MeshPathFramePANN) {a : MacAddress} {p : MeshPath}
    (hp : r.meshPaths.find a = some p) (hlive : p.expired clk.test = false) :
    ∃ p', (r.hwmpPannFrameProcess stas clk sa pann).1.meshPaths.find a = some p' ∧
      p.sn ≤ p'.sn ∧ (p'.nextHop ≠ p.nextHop → p'.metric < p.metric) := by
  by_cases ha : a = pann.origAddr
  · subst ha
    have htested : r.testedPath clk pann = p := MeshPaths.pathOrNew_of_find hp
    obtain ⟨-, h⟩ | ⟨l, da, hc, ⟨hd, -⟩ | ⟨hd, -⟩⟩ := process_cases stas clk sa pann r
    · exact ⟨p, by rw [h, hp], UInt64.le_refl _, by simp⟩
    · exact ⟨p, by rw [process_find_of_discards hc hd, htested], UInt64.le_refl _, by simp⟩
    · refine ⟨_, process_find_of_accepts hc hd, ?_⟩
      simp only [discards, htested, Bool.or_eq_false_iff, ignores_eq_false, hlive] at hd
      obtain hdead | ⟨hsn, hhop⟩ := hd.1
      · simp at hdead
      · exact ⟨hsn, fun hne => hhop.resolve_left (Ne.symm hne)⟩
  · exact ⟨p, by rw [process_find_of_ne stas clk sa r ha, hp], UInt64.le_refl _, by simp⟩

end Routing

end Fbmeshd
