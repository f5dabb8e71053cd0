import Fbmeshd.Routing.Process
import Mathlib.Logic.Function.Basic

/-!
# Runs of one node

A node receives frames, which may be forged, and runs its timers, while its clock does not
go back. The run also records, for each stored path, the frame it was last updated from.
-/

namespace Fbmeshd

/-- The callbacks a node runs on its own, with their clock readings. A timer may expire at
any moment here, also when it is not scheduled. -/
inductive InternalEvent where
  | housekeeping (entryNow : MacAddress → ℤ) (now : ℤ)
  | meshPathRootTimer (now : ℤ)
  | noLongerAGateTimer
  | setGatewayStatus (isGate : Bool) (now : ℤ)

namespace InternalEvent

/-- The node after a callback and the frames sent. -/
def apply : InternalEvent → Routing → Routing × List Transmission
  | housekeeping entryNow now, r => (r.doMeshHousekeeping entryNow now, [])
  | meshPathRootTimer now, r => r.fireMeshPathRootTimer now
  | noLongerAGateTimer, r => (r.noLongerAGate, [])
  | setGatewayStatus isGate now, r => r.setGatewayStatus isGate now

/-- The readings of a callback lie between `start` and `finish`. -/
def Timed (start finish : ℤ) : InternalEvent → Prop
  | housekeeping entryNow now => (∀ a, start ≤ entryNow a ∧ entryNow a ≤ now) ∧
      start ≤ now ∧ now ≤ finish
  | meshPathRootTimer now => start ≤ now ∧ now ≤ finish
  | noLongerAGateTimer => start ≤ finish
  | setGatewayStatus _ now => start ≤ now ∧ now ≤ finish

/-- The path is not expired when the callback tests it. -/
def Unexpired (p : MeshPath) : InternalEvent → Prop
  | housekeeping entryNow _ => p.expired (entryNow p.dst) = false
  | _ => True

/-- Time does not go back. -/
theorem Timed.le {start finish : ℤ} {e : InternalEvent} (h : e.Timed start finish) :
    start ≤ finish := by
  cases e with
  | housekeeping entryNow now => exact h.2.1.trans h.2.2
  | noLongerAGateTimer => exact h
  | meshPathRootTimer now | setGatewayStatus isGate now => exact h.1.trans h.2

/-- A callback keeps the node's parameters. -/
theorem apply_fields (e : InternalEvent) (r : Routing) :
    (e.apply r).1.nodeAddr = r.nodeAddr ∧ (e.apply r).1.elementTtl = r.elementTtl ∧
      (e.apply r).1.activePathTimeout = r.activePathTimeout := by
  cases e with
  | housekeeping entryNow now => exact ⟨rfl, rfl, rfl⟩
  | meshPathRootTimer now =>
    rw [apply, Routing.fireMeshPathRootTimer, Routing.doMeshPathRoot_fields]
    exact ⟨rfl, rfl, rfl⟩
  | noLongerAGateTimer => exact ⟨rfl, rfl, rfl⟩
  | setGatewayStatus isGate now =>
    rw [apply, Routing.setGatewayStatus_fields]
    exact ⟨rfl, rfl, rfl⟩

/-- What a callback leaves of the table: only housekeeping removes entries. -/
def purge (paths : MeshPaths) : InternalEvent → MeshPaths
  | housekeeping entryNow _ => paths.meshPathExpire entryNow
  | _ => paths

/-- The node's own events only remove paths. -/
theorem apply_meshPaths (e : InternalEvent) (r : Routing) :
    (e.apply r).1.meshPaths = e.purge r.meshPaths := by
  cases e with
  | housekeeping entryNow now => rfl
  | meshPathRootTimer now =>
    rw [apply, Routing.fireMeshPathRootTimer, Routing.doMeshPathRoot_fields]
    rfl
  | noLongerAGateTimer => rfl
  | setGatewayStatus isGate now =>
    rw [apply, Routing.setGatewayStatus_fields]
    rfl

variable {e : InternalEvent} {paths : MeshPaths} {a : MacAddress} {p : MeshPath}

/-- A path that is left was there. -/
theorem find_of_find_purge (h : (e.purge paths).find a = some p) : paths.find a = some p := by
  cases e with
  | housekeeping entryNow now => exact MeshPaths.find_of_find_meshPathExpire h
  | meshPathRootTimer now | noLongerAGateTimer | setGatewayStatus isGate now => exact h

/-- A callback removes no entry that is not expired when it tests it. -/
theorem find_purge_of_unexpired (h : paths.find a = some p) (hdst : p.dst = a)
    (hlive : e.Unexpired p) : (e.purge paths).find a = some p := by
  cases e with
  | housekeeping entryNow now =>
    refine MeshPaths.find_meshPathExpire_of_unexpired h ?_
    rwa [Unexpired, hdst] at hlive
  | meshPathRootTimer now | noLongerAGateTimer | setGatewayStatus isGate now => exact h

/-- A callback removes no entry that lives until it is finished. -/
theorem find_purge_of_live {start finish : ℤ} (htimed : e.Timed start finish)
    (h : paths.find a = some p) (hlive : finish ≤ p.expTime) :
    (e.purge paths).find a = some p := by
  cases e with
  | housekeeping entryNow now =>
    refine MeshPaths.find_meshPathExpire_of_unexpired h ?_
    rw [MeshPath.expired_eq_false]
    have hentry := (htimed.1 a).2
    have hnow := htimed.2.2
    omega
  | meshPathRootTimer now | noLongerAGateTimer | setGatewayStatus isGate now => exact h

end InternalEvent

/-- The events of a node: a frame with the sender, stations and readings it is processed
with, or a callback of its own. -/
inductive NodeEvent where
  | receive (stas : LinkMetrics) (clk : PannClock) (sa : MacAddress) (pann : MeshPathFramePANN)
  | internal (e : InternalEvent)

namespace NodeEvent

/-- The node after an event and the frames sent. -/
def apply : NodeEvent → Routing → Routing × List Transmission
  | receive stas clk sa pann, r => r.hwmpPannFrameProcess stas clk sa pann
  | internal e, r => e.apply r

/-- The readings of an event do not decrease and lie between `start` and `finish`. -/
def Timed (start finish : ℤ) : NodeEvent → Prop
  | receive _ clk _ _ => clk.Nondecreasing start finish
  | internal e => e.Timed start finish

/-- The path is not expired at the reading the event tests it with. -/
def Unexpired (p : MeshPath) : NodeEvent → Prop
  | receive _ clk _ _ => p.expired clk.test = false
  | internal e => e.Unexpired p

end NodeEvent

/-- A frame that was accepted, with its sender and the stations at that moment. -/
structure Acceptance where
  stas : LinkMetrics
  sa : MacAddress
  pann : MeshPathFramePANN

/-- A node with the latest instant of its clock and the acceptance behind each entry. -/
structure TracedNode where
  clock : ℤ
  node : Routing
  accepted : MacAddress → Option Acceptance

namespace TracedNode

/-- The acceptances recorded after an event: an accepted frame is recorded for its
originator, and purged entries lose theirs. -/
def trace (s : TracedNode) : NodeEvent → MacAddress → Option Acceptance
  | .receive stas clk sa pann =>
    if s.node.acceptsPann stas clk sa pann then
      Function.update s.accepted pann.origAddr (some ⟨stas, sa, pann⟩)
    else s.accepted
  | .internal (.housekeeping entryNow _) => fun a =>
    if ((s.node.meshPaths.meshPathExpire entryNow).find a).isSome then s.accepted a else none
  | _ => s.accepted

/-- The states of a node that starts with an empty table. -/
inductive Reachable : TracedNode → Prop
  | init (start : ℤ) (r : Routing) (hempty : r.meshPaths = ∅) :
      Reachable ⟨start, r, fun _ => none⟩
  | step {s : TracedNode} {e : NodeEvent} {finish : ℤ} (hreach : Reachable s)
      (htimed : e.Timed s.clock finish) :
      Reachable ⟨finish, (e.apply s.node).1, s.trace e⟩

/-- The invariant of the table. An entry that no frame was accepted for is as created. -/
structure TableInvariant (s : TracedNode) : Prop where
  key_eq : ∀ a p, s.node.meshPaths.find a = some p → p.dst = a
  own_none : s.node.meshPaths.find s.node.nodeAddr = none
  created : ∀ a p, s.node.meshPaths.find a = some p → s.accepted a = none →
    p = MeshPath.create a p.expTime
  updated : ∀ a p f, s.node.meshPaths.find a = some p → s.accepted a = some f →
    f.pann.origAddr = a ∧ f.sa = p.nextHop ∧ f.stas p.nextHop = some p.nextHopMetric ∧
      p.metric = newMetric f.pann.metric p.nextHopMetric
  absent : ∀ a, s.node.meshPaths.find a = none → s.accepted a = none

namespace TableInvariant

variable {s : TracedNode} {finish : ℤ}

/-- An event that keeps the table and the address keeps the invariant. -/
theorem of_eq (h : TableInvariant s) {r : Routing} (hpaths : r.meshPaths = s.node.meshPaths)
    (haddr : r.nodeAddr = s.node.nodeAddr) : TableInvariant ⟨finish, r, s.accepted⟩ := by
  refine ⟨?_, ?_, ?_, ?_, ?_⟩ <;> simp only [hpaths, haddr]
  exacts [h.key_eq, h.own_none, h.created, h.updated, h.absent]

/-- The entry a frame is tested against belongs to the frame's originator. -/
theorem testedPath_dst (h : TableInvariant s) (clk : PannClock) (pann : MeshPathFramePANN) :
    (s.node.testedPath clk pann).dst = pann.origAddr := by
  unfold Routing.testedPath
  cases hold : s.node.meshPaths.find pann.origAddr with
  | none =>
    rw [MeshPaths.pathOrNew_of_find_eq_none hold]
    rfl
  | some p =>
    rw [MeshPaths.pathOrNew_of_find hold]
    exact h.key_eq _ _ hold

/-- `getMeshPath` may insert a new entry, which no frame was accepted for. -/
theorem getMeshPath (h : TableInvariant s) {clk : PannClock} {pann : MeshPathFramePANN}
    (horig : pann.origAddr ≠ s.node.nodeAddr) :
    TableInvariant ⟨finish, s.node.afterGetMeshPath clk pann, s.accepted⟩ := by
  cases hold : s.node.meshPaths.find pann.origAddr with
  | some p =>
    have hsame : (s.node.afterGetMeshPath clk pann).meshPaths = s.node.meshPaths := by
      simp [Routing.afterGetMeshPath, MeshPaths.withPath, hold]
    exact h.of_eq hsame rfl
  | none =>
    have hself : (s.node.afterGetMeshPath clk pann).meshPaths.find pann.origAddr =
        some (MeshPath.create pann.origAddr clk.create) := by
      rw [← MeshPaths.pathOrNew_of_find_eq_none hold]
      exact MeshPaths.find_withPath_self
    have hne {a : MacAddress} (ha : a ≠ pann.origAddr) :
        (s.node.afterGetMeshPath clk pann).meshPaths.find a = s.node.meshPaths.find a :=
      MeshPaths.find_withPath_of_ne ha
    have hnone := h.absent _ hold
    refine ⟨?_, (hne (Ne.symm horig)).trans h.own_none, ?_, ?_, ?_⟩
    · intro a p hp
      by_cases ha : a = pann.origAddr
      · subst ha
        obtain rfl : MeshPath.create pann.origAddr clk.create = p := by simpa [hself] using hp
        rfl
      · exact h.key_eq a p ((hne ha).symm.trans hp)
    · intro a p hp hacc
      by_cases ha : a = pann.origAddr
      · subst ha
        obtain rfl : MeshPath.create pann.origAddr clk.create = p := by simpa [hself] using hp
        rfl
      · exact h.created a p ((hne ha).symm.trans hp) hacc
    · intro a p f hp hacc
      by_cases ha : a = pann.origAddr
      · subst ha
        simp [hnone] at hacc
      · exact h.updated a p f ((hne ha).symm.trans hp) hacc
    · intro a ha
      by_cases haddr : a = pann.origAddr
      · exact haddr ▸ hnone
      · exact h.absent a ((hne haddr).symm.trans ha)

/-- An accepted frame rewrites one entry and is recorded for it. -/
theorem accept (h : TableInvariant s) {stas : LinkMetrics} {clk : PannClock} {sa : MacAddress}
    {pann : MeshPathFramePANN} {lastHopMetric : UInt32} {da : MacAddress}
    (hc : Routing.Considers stas clk sa pann s.node lastHopMetric da)
    (hd : s.node.discards clk sa pann lastHopMetric = false) :
    TableInvariant ⟨finish, (s.node.hwmpPannFrameProcess stas clk sa pann).1,
      Function.update s.accepted pann.origAddr (some ⟨stas, sa, pann⟩)⟩ := by
  have hself := Routing.process_find_of_accepts hc hd
  have hne {a : MacAddress} (ha : a ≠ pann.origAddr) :=
    Routing.process_find_of_ne stas clk sa s.node ha
  have haddr : (s.node.hwmpPannFrameProcess stas clk sa pann).1.nodeAddr = s.node.nodeAddr := by
    rw [Routing.process_of_accepts hc hd]
  refine ⟨?_, ?_, ?_, ?_, ?_⟩
  · intro a p hp
    by_cases ha : a = pann.origAddr
    · subst ha
      obtain rfl := Option.some.inj (hself.symm.trans hp)
      exact h.testedPath_dst clk pann
    · exact h.key_eq a p ((hne ha).symm.trans hp)
  · dsimp only
    rw [haddr, hne (Ne.symm hc.orig_ne)]
    exact h.own_none
  · intro a p hp hacc
    by_cases ha : a = pann.origAddr
    · subst ha
      simp at hacc
    · exact h.created a p ((hne ha).symm.trans hp) (by simpa [ha] using hacc)
  · intro a p f hp hacc
    by_cases ha : a = pann.origAddr
    · subst ha
      obtain rfl : (⟨stas, sa, pann⟩ : Acceptance) = f := by simpa using hacc
      obtain rfl := Option.some.inj (hself.symm.trans hp)
      exact ⟨rfl, rfl, hc.station, rfl⟩
    · exact h.updated a p f ((hne ha).symm.trans hp) (by simpa [ha] using hacc)
  · intro a hp
    by_cases ha : a = pann.origAddr
    · subst ha
      simp [hself] at hp
    · simpa [ha] using h.absent a ((hne ha).symm.trans hp)

private theorem receive (h : TableInvariant s) (stas : LinkMetrics) (clk : PannClock)
    (sa : MacAddress) (pann : MeshPathFramePANN) :
    TableInvariant ⟨finish, (s.node.hwmpPannFrameProcess stas clk sa pann).1,
      s.trace (.receive stas clk sa pann)⟩ := by
  obtain ⟨hno, hsame⟩ | ⟨l, da, hc, ⟨hd, hsame⟩ | ⟨hd, -⟩⟩ :=
    Routing.process_cases stas clk sa pann s.node
  · rw [hsame]
    simpa [trace, hno] using h.of_eq rfl rfl
  · have hno := Routing.acceptsPann_of_considers hc
    rw [hsame]
    simpa [trace, hno, hd] using h.getMeshPath hc.orig_ne
  · have hyes := Routing.acceptsPann_of_considers hc
    simpa [trace, hyes, hd] using h.accept hc hd

private theorem housekeeping (h : TableInvariant s) (entryNow : MacAddress → ℤ) (now : ℤ) :
    TableInvariant ⟨finish, s.node.doMeshHousekeeping entryNow now,
      s.trace (.internal (.housekeeping entryNow now))⟩ := by
  have hold {a : MacAddress} {p : MeshPath}
      (hp : (s.node.meshPaths.meshPathExpire entryNow).find a = some p) :=
    MeshPaths.find_of_find_meshPathExpire hp
  refine ⟨fun a p hp => h.key_eq a p (hold hp), ?_, ?_, ?_, ?_⟩
  · cases hown : (s.node.meshPaths.meshPathExpire entryNow).find s.node.nodeAddr with
    | none => exact hown
    | some p => exact absurd (hold hown) (by simp [h.own_none])
  · intro a p hp hacc
    have hkept : (s.node.meshPaths.meshPathExpire entryNow).find a = some p := hp
    exact h.created a p (hold hp) (by simpa [trace, hkept] using hacc)
  · intro a p f hp hacc
    have hkept : (s.node.meshPaths.meshPathExpire entryNow).find a = some p := hp
    exact h.updated a p f (hold hp) (by simpa [trace, hkept] using hacc)
  · intro a hp
    have hgone : (s.node.meshPaths.meshPathExpire entryNow).find a = none := hp
    simp [trace, hgone]

/-- Every event keeps the invariant. -/
theorem step (h : TableInvariant s) (e : NodeEvent) :
    TableInvariant ⟨finish, (e.apply s.node).1, s.trace e⟩ := by
  cases e with
  | receive stas clk sa pann => exact h.receive stas clk sa pann
  | internal e =>
    have hpaths := e.apply_meshPaths s.node
    have haddr := (e.apply_fields s.node).1
    cases e with
    | housekeeping entryNow now => exact h.housekeeping entryNow now
    | meshPathRootTimer now | noLongerAGateTimer | setGatewayStatus isGate now =>
      exact h.of_eq hpaths haddr

/-- The invariant holds in every run. -/
theorem of_reachable (hreach : Reachable s) : TableInvariant s := by
  induction hreach with
  | init start r hempty =>
    refine ⟨?_, ?_, ?_, ?_, ?_⟩ <;> simp [hempty]
  | step _ _ ih => exact ih.step _

end TableInvariant

/-- Across any event a path that is not expired stays, its sequence number does not
decrease, and its next hop changes only together with a better metric. -/
theorem path_stable {s : TracedNode} (h : TableInvariant s) {e : NodeEvent} {a : MacAddress}
    {p : MeshPath} (hp : s.node.meshPaths.find a = some p) (hlive : e.Unexpired p) :
    ∃ p', (e.apply s.node).1.meshPaths.find a = some p' ∧ p.sn ≤ p'.sn ∧
      (p'.nextHop ≠ p.nextHop → p'.metric < p.metric) := by
  have hkept (hsame : (e.apply s.node).1.meshPaths.find a = some p) :
      ∃ p', (e.apply s.node).1.meshPaths.find a = some p' ∧ p.sn ≤ p'.sn ∧
        (p'.nextHop ≠ p.nextHop → p'.metric < p.metric) :=
    ⟨p, hsame, UInt64.le_refl _, by simp⟩
  cases e with
  | receive stas clk sa pann => exact Routing.process_path_stable stas sa pann hp hlive
  | internal e =>
    apply hkept
    rw [NodeEvent.apply, e.apply_meshPaths]
    exact InternalEvent.find_purge_of_unexpired hp (h.key_eq a p hp) hlive

/-- In every run of a node: entries are stored under their own destination and never under
the node's address; an accepted entry holds the saturated sum of the advertised metric and
its next hop's metric at that moment; a path that is not expired through an event is stable
in the sense of `path_stable`; and housekeeping removes no unexpired entry. -/
theorem meshPaths_consistent {s : TracedNode} (hreach : Reachable s) :
    (∀ a p, s.node.meshPaths.find a = some p → p.dst = a) ∧
    s.node.meshPaths.find s.node.nodeAddr = none ∧
    (∀ a p f, s.node.meshPaths.find a = some p → s.accepted a = some f →
      f.pann.origAddr = a ∧ f.sa = p.nextHop ∧ f.stas p.nextHop = some p.nextHopMetric ∧
        p.metric.toNat = min (2 ^ 32 - 1) (f.pann.metric.toNat + p.nextHopMetric.toNat)) ∧
    (∀ (e : NodeEvent) finish a p, e.Timed s.clock finish → s.node.meshPaths.find a = some p →
      e.Unexpired p →
      ∃ p', (e.apply s.node).1.meshPaths.find a = some p' ∧ p.sn ≤ p'.sn ∧
        (p'.nextHop ≠ p.nextHop → p'.metric < p.metric)) ∧
    (∀ entryNow now a p, s.node.meshPaths.find a = some p → p.expired (entryNow a) = false →
      (s.node.doMeshHousekeeping entryNow now).meshPaths.find a = some p) := by
  have h := TableInvariant.of_reachable hreach
  refine ⟨h.key_eq, h.own_none, ?_, fun _ _ _ _ _ hp hlive => path_stable h hp hlive,
    fun _ _ _ _ hp hlive => MeshPaths.find_meshPathExpire_of_unexpired hp hlive⟩
  intro a p f hp hf
  obtain ⟨horig, hsa, hsta, hmetric⟩ := h.updated a p f hp hf
  exact ⟨horig, hsa, hsta, by rw [hmetric, newMetric_toNat]⟩

/-- One accepted announcement: the entry for station 2 holds the sum of the two metrics. -/
theorem first_announcement_consistent :
    ∃ s : TracedNode, Reachable s ∧ ∃ p f, s.node.meshPaths.find 2 = some p ∧
      s.accepted 2 = some f ∧ p.metric = 30 ∧
      p.metric.toNat = min (2 ^ 32 - 1) (f.pann.metric.toNat + p.nextHopMetric.toNat) := by
  let r : Routing :=
    { nodeAddr := 1, elementTtl := 32, activePathTimeout := 30000, rootPannInterval := 5000 }
  let stas : LinkMetrics := fun a => if a = 3 then some 10 else none
  let pann : MeshPathFramePANN := ⟨2, 1, 1, 31, .BROADCAST, 20, false, true⟩
  let clk := Routing.clockAt 4 5
  have hclk : clk.Nondecreasing 0 5 := Routing.clockAt_nondecreasing (by decide) (by decide)
  have hreach := Reachable.step (e := .receive stas clk 3 pann) (.init 0 r rfl) hclk
  have h := (meshPaths_consistent hreach).2.2.1
  let p := Routing.updatePath (.create 2 4) 5 30000 3 pann 10
  have hp : (r.hwmpPannFrameProcess stas clk 3 pann).1.meshPaths.find 2 = some p := by decide
  have hf : TracedNode.trace ⟨0, r, fun _ => none⟩ (.receive stas clk 3 pann) 2 =
      some ⟨stas, 3, pann⟩ := by
    have haccepts : r.acceptsPann stas clk 3 pann = true := by decide
    rw [trace, if_pos haccepts]
    exact Function.update_self ..
  exact ⟨_, hreach, p, ⟨stas, 3, pann⟩, hp, hf, by decide, (h 2 p _ hp hf).2.2.2⟩

end TracedNode

end Fbmeshd
