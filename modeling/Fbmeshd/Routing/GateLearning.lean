import Fbmeshd.Lib.TopK
import Fbmeshd.Routing.Gates
import Fbmeshd.Routing.NewOriginators

/-!
# Learning gates

Announcements of gates arrive one after another, and which of them are admitted depends on the
order. A run over a list of arrivals is shown to admit what `TopK.admitAll` admits, so that what
does not depend on the order follows from the facts about `TopK`.
-/

namespace Fbmeshd

/-- A frame received from the station `sa`, with the stations known and the readings made then. -/
structure Arrival where
  stas : LinkMetrics
  clk : PannClock
  sa : MacAddress
  pann : MeshPathFramePANN

namespace Arrival

/-- The node after the frame was processed. -/
def process (r : Routing) (x : Arrival) : Routing :=
  (r.hwmpPannFrameProcess x.stas x.clk x.sa x.pann).1

/-- The metric of the path through the station, which is that of the announcement if the station
is not known. -/
def metric (x : Arrival) : UInt32 := newMetric x.pann.metric ((x.stas x.sa).getD 0)

/-- A broadcast announcement of a gate other than the node that has no entry yet. It comes from a
known station, within the lifetime of a path from `start` on, and the clock moves between the
creation of the entry and its test. -/
structure AnnouncesNewGate (start : ℤ) (r : Routing) (x : Arrival) : Prop where
  gate : x.pann.isGate = true
  broadcast : x.pann.targetAddr = .BROADCAST
  orig_ne : x.pann.origAddr ≠ r.nodeAddr
  unknown : r.meshPaths.find x.pann.origAddr = none
  station : (x.stas x.sa).isSome = true
  readings : x.clk.Nondecreasing start (start + milliseconds r.activePathTimeout)
  moved : x.clk.create < x.clk.test

variable {start : ℤ} {r : Routing} {x : Arrival}

/-- The readings of the count of gates are within the lifetime. -/
theorem AnnouncesNewGate.gateCount_between (h : x.AnnouncesNewGate start r) (a : MacAddress) :
    start ≤ x.clk.gateCount a ∧
      x.clk.gateCount a ≤ start + milliseconds r.activePathTimeout := by
  have htest : start ≤ x.clk.test :=
    (h.readings.start_le_target.trans h.readings.target_le_create).trans h.readings.create_le_test
  have hfinish : x.clk.update ≤ start + milliseconds r.activePathTimeout :=
    (h.readings.update_le_topKGatesNew a).trans (h.readings.topKGatesNew_le_finish a)
  constructor
  · exact htest.trans ((h.readings.test_le_topKGatesOld a).trans
      (h.readings.topKGatesOld_le_gateCount a a))
  · exact (h.readings.gateCount_le_update a).trans hfinish

end Arrival

namespace Routing

variable {r : Routing} {start now : ℤ} {admitted xs : List Arrival} {x : Arrival}

/-- The admitted gates of a node whose parameters are those of `r₀`: each has a live entry with
its metric, and no other gate of the table is live at `start` or later. -/
structure Learned (r₀ : Routing) (start : ℤ) (admitted : List Arrival) (r : Routing) : Prop where
  nodeAddr_eq : r.nodeAddr = r₀.nodeAddr
  isGate_eq : r.isGate = r₀.isGate
  timeout_eq : r.activePathTimeout = r₀.activePathTimeout
  nodup : (admitted.map (·.pann.origAddr)).Nodup
  entry : ∀ x ∈ admitted, ∃ p, r.meshPaths.find x.pann.origAddr = some p ∧
    p.dst = x.pann.origAddr ∧ p.isGate = true ∧ p.metric = x.metric ∧
    start + milliseconds r₀.activePathTimeout ≤ p.expTime
  only : ∀ a p, r.meshPaths.find a = some p → p.isGate = true → start ≤ p.expTime →
    ∃ x ∈ admitted, x.pann.origAddr = a

namespace Learned

variable {r₀ : Routing}

/-- The live gates of the table are the admitted ones, at every reading within the lifetime. -/
theorem live_gate_iff (h : Learned r₀ start admitted r) {a : MacAddress} (hstart : start ≤ now)
    (hnow : now ≤ start + milliseconds r₀.activePathTimeout) {P : MacAddress → UInt32 → Prop} :
    (∃ p, r.meshPaths.find a = some p ∧ p.isGate = true ∧ p.expired now = false ∧
        P p.dst p.metric) ↔
      ∃ x ∈ admitted, x.pann.origAddr = a ∧ P a x.metric := by
  constructor
  · rintro ⟨p, hp, hgate, hlive, hmetric⟩
    rw [MeshPath.expired_eq_false] at hlive
    obtain ⟨x, hx, rfl⟩ := h.only a p hp hgate (hstart.trans hlive)
    obtain ⟨q, hq, hdst, -, hxmetric, -⟩ := h.entry x hx
    obtain rfl : p = q := Option.some.inj (hp.symm.trans hq)
    exact ⟨x, hx, rfl, hdst ▸ hxmetric ▸ hmetric⟩
  · rintro ⟨x, hx, rfl, hmetric⟩
    obtain ⟨p, hp, hdst, hgate, hxmetric, hexp⟩ := h.entry x hx
    refine ⟨p, hp, hgate, MeshPath.expired_eq_false.mpr (hnow.trans hexp), ?_⟩
    rwa [hdst, hxmetric]

/-- The count of other gates is a count of admitted ones. -/
theorem betterGates_eq (h : Learned r₀ start admitted r) {readings : MacAddress → ℤ}
    (hreadings : ∀ a, start ≤ readings a ∧
      readings a ≤ start + milliseconds r₀.activePathTimeout)
    {origAddr : MacAddress} (hnew : ∀ x ∈ admitted, x.pann.origAddr ≠ origAddr)
    (metric : UInt32) :
    r.meshPaths.betterGates readings origAddr metric =
      admitted.countP fun x => x.metric ≤ metric := by
  refine AList.countP_entries_eq h.nodup fun a => ?_
  have hiff := h.live_gate_iff (hreadings a).1 (hreadings a).2 (a := a)
    (P := fun dst m => dst ≠ origAddr ∧ m ≤ metric)
  constructor
  · rintro ⟨p, hp, hcounted⟩
    simp only [Bool.and_eq_true, decide_eq_true_eq, Bool.not_eq_true'] at hcounted
    obtain ⟨⟨⟨hdst, hlive⟩, hgate⟩, hmetric⟩ := hcounted
    obtain ⟨x, hx, hkey, -, hle⟩ := hiff.mp ⟨p, hp, hgate, hlive, hdst, hmetric⟩
    exact ⟨x, hx, hkey, decide_eq_true hle⟩
  · rintro ⟨x, hx, hkey, hle⟩
    have hne : a ≠ origAddr := hkey ▸ hnew x hx
    obtain ⟨p, hp, hgate, hlive, hdst, hmetric⟩ :=
      hiff.mpr ⟨x, hx, hkey, hne, of_decide_eq_true hle⟩
    exact ⟨p, hp, by simp [hdst, hlive, hgate, hmetric]⟩

private theorem orig_ne_of_find_eq_none (h : Learned r₀ start admitted r) {a : MacAddress}
    (hnone : r.meshPaths.find a = none) : ∀ y ∈ admitted, y.pann.origAddr ≠ a := by
  rintro y hy rfl
  obtain ⟨p, hp, -⟩ := h.entry y hy
  rw [hnone] at hp
  cases hp

/-- A new entry that is not a gate changes nothing. -/
theorem afterGetMeshPath (h : Learned r₀ start admitted r)
    (hnone : r.meshPaths.find x.pann.origAddr = none) :
    Learned r₀ start admitted (r.afterGetMeshPath x.clk x.pann) := by
  have hother : ∀ b, b ≠ x.pann.origAddr →
      (r.afterGetMeshPath x.clk x.pann).meshPaths.find b = r.meshPaths.find b :=
    fun b hb => MeshPaths.find_withPath_of_ne hb
  refine { h with entry := fun y hy => ?_, only := fun a p hp hgate hexp => ?_ }
  · rw [hother _ (h.orig_ne_of_find_eq_none hnone y hy)]
    exact h.entry y hy
  · by_cases ha : a = x.pann.origAddr
    · subst ha
      have hself : (r.afterGetMeshPath x.clk x.pann).meshPaths.find x.pann.origAddr =
          some (.create x.pann.origAddr x.clk.create) := by
        rw [← MeshPaths.pathOrNew_of_find_eq_none hnone]
        exact MeshPaths.find_withPath_self
      obtain rfl := Option.some.inj (hp.symm.trans hself)
      cases hgate
    · exact h.only a p (hother a ha ▸ hp) hgate hexp

/-- An accepted gate joins the admitted ones. -/
theorem accept (h : Learned r₀ start admitted r) (hx : x.AnnouncesNewGate start r₀)
    (hnone : r.meshPaths.find x.pann.origAddr = none) {lastHopMetric : UInt32} {da : MacAddress}
    (hc : Considers x.stas x.clk x.sa x.pann r lastHopMetric da)
    (hd : r.discards x.clk x.sa x.pann lastHopMetric = false) :
    Learned r₀ start (x :: admitted) (x.process r) := by
  have hfresh := h.orig_ne_of_find_eq_none hnone
  have hother : ∀ b, b ≠ x.pann.origAddr → (x.process r).meshPaths.find b = r.meshPaths.find b :=
    fun b hb => process_find_of_ne x.stas x.clk x.sa r hb
  have hfields : x.process r = { r with meshPaths := _, sn := _ } := process_fields ..
  refine ⟨?_, ?_, ?_, ?_, ?_, ?_⟩
  · rw [hfields]
    exact h.nodeAddr_eq
  · rw [hfields]
    exact h.isGate_eq
  · rw [hfields]
    exact h.timeout_eq
  · rw [List.map_cons, List.nodup_cons]
    refine ⟨fun hmem => ?_, h.nodup⟩
    obtain ⟨y, hy, heq⟩ := List.mem_map.mp hmem
    exact hfresh y hy heq
  · intro y hy
    rcases List.mem_cons.mp hy with rfl | hy
    · refine ⟨_, process_find_of_accepts hc hd, ?_, hx.gate, ?_, ?_⟩
      · rw [updatePath, testedPath, MeshPaths.pathOrNew_of_find_eq_none hnone]
        rfl
      · rw [Arrival.metric, hc.station]
        rfl
      · have hupdate : start ≤ y.clk.update :=
          (hx.gateCount_between 0).1.trans (hx.readings.gateCount_le_update 0)
        simp only [updatePath, h.timeout_eq]
        omega
    · rw [hother _ (hfresh y hy)]
      exact h.entry y hy
  · intro a p hp hgate hexp
    by_cases ha : a = x.pann.origAddr
    · exact ⟨x, List.mem_cons_self, ha.symm⟩
    · obtain ⟨y, hy, hkey⟩ := h.only a p (hother a ha ▸ hp) hgate hexp
      exact ⟨y, List.mem_cons_of_mem _ hy, hkey⟩

/-- One arrival is admitted as `TopK.consider` says. -/
theorem step (h : Learned r₀ start admitted r) (hx : x.AnnouncesNewGate start r₀)
    (hnone : r.meshPaths.find x.pann.origAddr = none) :
    Learned r₀ start
      (TopK.consider (fun y => y.metric.toNat) (MeshPaths.maxNoGates r₀.isGate) admitted x)
      (x.process r) := by
  obtain ⟨lastHopMetric, hsta⟩ := Option.isSome_iff_exists.mp hx.station
  have hc := considers_of_broadcast x.clk (h.nodeAddr_eq ▸ hx.orig_ne) hsta hx.broadcast
  have hlearned : Learned r₀ start admitted (r.afterGetMeshPath x.clk x.pann) :=
    h.afterGetMeshPath hnone
  have hmetric : x.metric = newMetric x.pann.metric lastHopMetric := by
    rw [Arrival.metric, hsta, Option.getD_some]
  have hcount : (r.afterGetMeshPath x.clk x.pann).meshPaths.betterGates x.clk.gateCount
      x.pann.origAddr (newMetric x.pann.metric lastHopMetric) =
        admitted.countP fun y => y.metric.toNat ≤ x.metric.toNat := by
    rw [← hmetric]
    exact hlearned.betterGates_eq hx.gateCount_between (h.orig_ne_of_find_eq_none hnone) x.metric
  -- The entry is new, so only the count of gates decides.
  have hdiscards : r.discards x.clk x.sa x.pann lastHopMetric = decide
      (MeshPaths.maxNoGates r₀.isGate ≤
        admitted.countP fun y => y.metric.toNat ≤ x.metric.toNat) := by
    have hrule : ignores (.create x.pann.origAddr x.clk.create) x.clk.test x.sa x.pann.origSn
        (newMetric x.pann.metric lastHopMetric) = false := ignores_create.mpr (.inl hx.moved)
    rw [discards, testedPath, MeshPaths.pathOrNew_of_find_eq_none hnone, hrule, Bool.false_or,
      redundantGate, hx.gate, Bool.true_and, hcount, h.isGate_eq]
  unfold TopK.consider
  split
  next hlt =>
    have hd : r.discards x.clk x.sa x.pann lastHopMetric = false := by
      rw [hdiscards, decide_eq_false_iff_not, Nat.not_le]
      exact hlt
    exact h.accept hx hnone hc hd
  next hge =>
    have hd : r.discards x.clk x.sa x.pann lastHopMetric = true := by
      rw [hdiscards, decide_eq_true_eq, ← Nat.not_lt]
      exact hge
    rw [Arrival.process, process_of_discards hc hd]
    exact hlearned

end Learned

/-- Arrivals of other originators leave an originator without an entry. -/
theorem find_foldl_process_eq_none {a : MacAddress} (hnone : r.meshPaths.find a = none)
    (hne : ∀ x ∈ xs, x.pann.origAddr ≠ a) :
    (xs.foldl Arrival.process r).meshPaths.find a = none := by
  induction xs generalizing r with
  | nil => exact hnone
  | cons x xs ih =>
    obtain ⟨hx, hxs⟩ := List.forall_mem_cons.mp hne
    exact ih ((process_find_of_ne x.stas x.clk x.sa r hx.symm).trans hnone) hxs

/-- A run over announcements of new gates admits what `TopK.admitAll` admits. -/
theorem learned_foldl (hxs : ∀ x ∈ xs, x.AnnouncesNewGate start r)
    (hdistinct : (xs.map (·.pann.origAddr)).Nodup)
    (hexpired : ∀ a p, r.meshPaths.find a = some p → p.isGate = true → p.expired start = true) :
    Learned r start
      (TopK.admitAll (fun y => y.metric.toNat) (MeshPaths.maxNoGates r.isGate) xs)
      (xs.foldl Arrival.process r) := by
  induction xs using List.reverseRecOn with
  | nil =>
    refine ⟨rfl, rfl, rfl, List.nodup_nil, by simp [TopK.admitAll], fun a p hp hgate hexp => ?_⟩
    have hdead := hexpired a p hp hgate
    rw [MeshPath.expired_eq_true] at hdead
    omega
  | append_singleton xs x ih =>
    have hx := hxs x (List.mem_append_right _ List.mem_cons_self)
    rw [List.map_append, List.map_singleton, List.nodup_append] at hdistinct
    obtain ⟨hrest, -, hlast⟩ := hdistinct
    have hlearned := ih (fun y hy => hxs y (List.mem_append_left _ hy)) hrest
    have hnone : (xs.foldl Arrival.process r).meshPaths.find x.pann.origAddr = none :=
      find_foldl_process_eq_none hx.unknown fun y hy =>
        hlast _ (List.mem_map_of_mem hy) _ List.mem_cons_self
    rw [TopK.admitAll_concat, List.foldl_append]
    exact hlearned.step hx hnone

/-- Announcements of new gates that arrive in any order, within the lifetime of a path, at a node
without a live gate. Afterwards every gate with fewer than `maxNoGates` others of the list at its
metric or a better one is live with its metric, and the best metric of the live gates is the best
one of the list. -/
theorem gates_learned_in_any_order (hxs : ∀ x ∈ xs, x.AnnouncesNewGate start r)
    (hdistinct : (xs.map (·.pann.origAddr)).Nodup)
    (hexpired : ∀ a p, r.meshPaths.find a = some p → p.isGate = true → p.expired start = true)
    (hstart : start ≤ now) (hnow : now ≤ start + milliseconds r.activePathTimeout) :
    let paths := (xs.foldl Arrival.process r).meshPaths
    (∀ x ∈ xs,
      xs.countP (fun y => y.pann.origAddr ≠ x.pann.origAddr ∧ y.metric ≤ x.metric) <
        MeshPaths.maxNoGates r.isGate →
      ∃ p, paths.find x.pann.origAddr = some p ∧ p.isGate = true ∧ p.expired now = false ∧
        p.metric = x.metric) ∧
    ∀ m : ℕ, IsLeast {n | ∃ a p, paths.find a = some p ∧ p.isGate = true ∧
        p.expired now = false ∧ p.metric.toNat = n} m ↔
      IsLeast {n | ∃ x ∈ xs, x.metric.toNat = n} m := by
  intro paths
  have hlearned := learned_foldl hxs hdistinct hexpired
  constructor
  · intro x hx hcount
    obtain ⟨before, after, rfl⟩ := List.append_of_mem hx
    have hbefore : before.countP (fun y => y.metric.toNat ≤ x.metric.toNat) <
        MeshPaths.maxNoGates r.isGate := by
      refine Nat.lt_of_le_of_lt ?_ hcount
      rw [List.countP_append]
      refine Nat.le_trans (List.countP_mono_left fun y hy hle => ?_) (Nat.le_add_right _ _)
      have hne : y.pann.origAddr ≠ x.pann.origAddr := by
        rw [List.map_append, List.map_cons, List.nodup_append] at hdistinct
        exact hdistinct.2.2 _ (List.mem_map_of_mem hy) _ List.mem_cons_self
      exact decide_eq_true ⟨hne, of_decide_eq_true hle⟩
    have hadmitted := TopK.mem_admitAll_of_countP_lt hbefore after
    obtain ⟨p, hp, hgate, hlive, hmetric⟩ := (hlearned.live_gate_iff hstart hnow
      (P := fun _ m => m = x.metric)).mpr ⟨x, hadmitted, rfl, rfl⟩
    exact ⟨p, hp, hgate, hlive, hmetric⟩
  · intro m
    rw [← TopK.isLeast_admitAll_iff (MeshPaths.maxNoGates_pos r.isGate)]
    have hsame : {n | ∃ a p, paths.find a = some p ∧ p.isGate = true ∧ p.expired now = false ∧
        p.metric.toNat = n} = {n | ∃ x ∈ TopK.admitAll (fun y : Arrival => y.metric.toNat)
          (MeshPaths.maxNoGates r.isGate) xs, x.metric.toNat = n} := by
      ext n
      simp only [Set.mem_ofPred_eq, paths,
        hlearned.live_gate_iff hstart hnow (P := fun _ m => m.toNat = n)]
      constructor
      · rintro ⟨a, x, hx, -, hn⟩
        exact ⟨x, hx, hn⟩
      · rintro ⟨x, hx, hn⟩
        exact ⟨_, x, hx, rfl, hn⟩
    rw [hsame]

/-- An announcement of a gate with the given metric through station 3, at `now`. -/
def gateArrival (now : ℤ) (origAddr : MacAddress) (metric : UInt32) : Arrival :=
  ⟨throughStation3, clockAt (now - 1) now, 3, gateAnnouncement origAddr 1 metric⟩

private theorem gateArrival_announcesNewGate {origAddr : MacAddress} {metric : UInt32}
    (horig : origAddr ≠ sampleNode.nodeAddr) (hlow : 1 ≤ now) (hhigh : now ≤ milliseconds 30000) :
    (gateArrival now origAddr metric).AnnouncesNewGate 0 sampleNode := by
  have hcreate : 0 ≤ now - 1 := by omega
  have hclk := clockAt_nondecreasing hcreate (Int.sub_le_self now Int.one_nonneg)
  have hfinish : now ≤ 0 + milliseconds 30000 := by omega
  exact ⟨rfl, rfl, horig, rfl, rfl, { hclk with topKGatesNew_le_finish := fun _ => hfinish },
    Int.sub_one_lt_of_le le_rfl⟩

/-- Three gates arrive, the best one last, and it is learned. -/
theorem last_of_three_gates_learned :
    ∃ p, ([gateArrival 2 10 7, gateArrival 4 11 5, gateArrival 6 12 2].foldl Arrival.process
        sampleNode).meshPaths.find 12 = some p ∧
      p.isGate = true ∧ p.expired 7 = false ∧ p.metric = 3 := by
  have hready : ∀ x ∈ [gateArrival 2 10 7, gateArrival 4 11 5, gateArrival 6 12 2],
      x.AnnouncesNewGate 0 sampleNode := by
    simp only [List.forall_mem_cons]
    refine ⟨?_, ?_, ?_, List.forall_mem_nil _⟩ <;>
      exact gateArrival_announcesNewGate (by decide) (by decide) (by decide)
  have hnow : (7 : ℤ) ≤ 0 + milliseconds sampleNode.activePathTimeout := by decide
  have h := gates_learned_in_any_order hready (by decide) (by simp [sampleNode]) (by decide) hnow
  exact h.1 (gateArrival 6 12 2) (by simp) (by decide)

/-- The node's own announcement comes back to it and is ignored. -/
theorem own_announcement_not_learned :
    sampleNode.meshPaths.find (gateArrival 2 1 7).pann.origAddr = none ∧
      (throughStation3 3).isSome = true ∧ (clockAt 1 2).create < (clockAt 1 2).test ∧
      ([gateArrival 2 1 7].countP fun y => y.pann.origAddr ≠ 1 ∧ y.metric ≤ 8) <
        MeshPaths.maxNoGates sampleNode.isGate ∧
      ([gateArrival 2 1 7].foldl Arrival.process sampleNode).meshPaths.find 1 = none := by
  decide

end Routing

end Fbmeshd
