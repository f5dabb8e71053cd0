import Fbmeshd.Routing.SyncSurvival
import Mathlib.Data.List.Induction
import Mathlib.Data.List.MinMax

/-!
# The selection of a gate

One pass over the mesh paths refreshes the metric of the remembered gate and keeps the best gate
seen so far. The two are merged after the pass. Whatever the order of the paths and whatever gate
was remembered, the result is a live gate of least metric, and the remembered one if it can be.
-/

namespace Fbmeshd

open Fallible

namespace SyncInput

variable (x : SyncInput)

/-- A path that is considered as a gate: reachable, not expired when it is visited, and a gate. -/
def LiveGate (addr : MacAddress) (mpath : MeshPath) : Prop :=
  mpath.isGate ∧ mpath.nextHop ≠ 0 ∧ x.entryNow addr < mpath.expTime

instance (addr : MacAddress) (mpath : MeshPath) : Decidable (x.LiveGate addr mpath) :=
  inferInstanceAs (Decidable (_ ∧ _))

/-- The gates that the loop compares, in the order of the paths. -/
def gatesOf (entries : List (Σ _ : MacAddress, MeshPath)) : List Gate :=
  (entries.filter fun e => x.LiveGate e.1 e.2).map fun e => (e.2.dst, e.2.metric)

variable {x}

private theorem mem_gatesOf {entries : List (Σ _ : MacAddress, MeshPath)} {gate : Gate} :
    gate ∈ x.gatesOf entries ↔
      ∃ e ∈ entries, x.LiveGate e.1 e.2 ∧ (e.2.dst, e.2.metric) = gate := by
  simp [gatesOf, and_assoc]

/-- The local variables after the gates were compared, for the gate remembered before. -/
structure Scan.Compared (previous : Option Gate) (gates : List Gate) (scan : Scan) : Prop where
  best : scan.bestGate = gates.argmin fun gate => gate.2.toNat
  remembered : scan.currentGate.map Prod.fst = previous.map Prod.fst
  alive : scan.isCurrentGateStillAlive ↔ ∃ gate ∈ gates, previous.map Prod.fst = some gate.1
  refreshed : scan.isCurrentGateStillAlive → ∃ gate ∈ gates, scan.currentGate = some gate

/-- Comparing a gate with the remembered and with the best one. -/
theorem compareGate_eq (mpath : MeshPath) (scan : Scan) :
    compareGate mpath scan =
      { scan with
        currentGate :=
          if scan.currentGate.map Prod.fst = some mpath.dst then some (mpath.dst, mpath.metric)
          else scan.currentGate
        bestGate :=
          match scan.bestGate with
          | none => some (mpath.dst, mpath.metric)
          | some gate =>
            if mpath.metric < gate.2 then some (mpath.dst, mpath.metric) else some gate
        isCurrentGateStillAlive :=
          scan.isCurrentGateStillAlive || scan.currentGate.map Prod.fst = some mpath.dst } := by
  obtain ⟨db, current, best, alive⟩ := scan
  unfold compareGate
  cases current with
  | none =>
    cases best with
    | none => simp
    | some gate => by_cases hless : mpath.metric < gate.2 <;> simp [hless]
  | some current =>
    by_cases hcurrent : current.1 = mpath.dst
    · cases best with
      | none => simp [hcurrent]
      | some gate => by_cases hless : mpath.metric < gate.2 <;> simp [hcurrent, hless]
    · cases best with
      | none => simp [hcurrent]
      | some gate => by_cases hless : mpath.metric < gate.2 <;> simp [hcurrent, hless]

private theorem Scan.Compared.compareGate {previous : Option Gate} {gates : List Gate} {scan : Scan}
    (h : Scan.Compared previous gates scan) (mpath : MeshPath) :
    Scan.Compared previous (gates ++ [(mpath.dst, mpath.metric)]) (compareGate mpath scan) := by
  rw [compareGate_eq]
  constructor
  · dsimp only
    rw [h.best, List.argmin_concat]
    cases gates.argmin fun gate => gate.2.toNat with
    | none => rfl
    | some gate => rfl
  · dsimp only
    split
    next heq => exact heq.symm.trans h.remembered
    next => exact h.remembered
  · simp only [Bool.or_eq_true, decide_eq_true_eq, h.alive, h.remembered, List.mem_append,
      List.mem_singleton, or_and_right, exists_or, exists_eq_left]
  · intro halive
    dsimp only at halive ⊢
    split
    next => exact ⟨_, List.mem_append_right _ List.mem_cons_self, rfl⟩
    next hne =>
      have hold : scan.isCurrentGateStillAlive = true := by simpa [hne] using halive
      obtain ⟨gate, hgate, heq⟩ := h.refreshed hold
      exact ⟨gate, List.mem_append_left _ hgate, heq⟩

/-- The routes to the station play no part in the selection. -/
theorem Scan.Compared.withRoutes {previous : Option Gate} {gates : List Gate} {scan : Scan}
    (h : Scan.Compared previous gates scan) (db : NlUnicastRoutes) :
    Scan.Compared previous gates { scan with unicastRouteDb := db } :=
  ⟨h.best, h.remembered, h.alive, h.refreshed⟩

private theorem Scan.Compared.visitPath {previous : Option Gate}
    {entries : List (Σ _ : MacAddress, MeshPath)} {scan : Scan}
    (h : Scan.Compared previous (x.gatesOf entries) scan) (e : Σ _ : MacAddress, MeshPath) :
    Scan.Compared previous (x.gatesOf (entries ++ [e])) (x.visitPath scan e) := by
  by_cases hlive : x.LiveGate e.1 e.2
  · have hgates : x.gatesOf (entries ++ [e]) = x.gatesOf entries ++ [(e.2.dst, e.2.metric)] := by
      simp [gatesOf, hlive]
    obtain ⟨hgate, hhop, htime⟩ := hlive
    simp only [SyncInput.visitPath, if_neg hhop, if_pos (And.intro htime hgate)]
    rw [hgates]
    exact (h.withRoutes _).compareGate e.2
  · have hgates : x.gatesOf (entries ++ [e]) = x.gatesOf entries := by
      simp [gatesOf, hlive]
    rw [hgates]
    unfold SyncInput.visitPath
    dsimp only
    split
    · exact h
    next hhop =>
      rw [if_neg fun hboth => hlive ⟨hboth.2, hhop, hboth.1⟩]
      exact h.withRoutes _

private theorem compared_scanPaths (x : SyncInput) (previous : Option Gate) :
    Scan.Compared previous (x.gatesOf x.meshPaths.entries) (x.scanPaths previous) := by
  unfold scanPaths
  induction x.meshPaths.entries using List.reverseRecOn with
  | nil => exact ⟨rfl, rfl, by simp [gatesOf], by simp⟩
  | append_singleton entries e ih =>
    rw [List.foldl_concat]
    exact ih.visitPath e

/-! ## The merge -/

/-- `*bestGate` is not read from an empty value. -/
theorem Scan.Compared.bestGate_isSome {previous : Option Gate} {gates : List Gate} {scan : Scan}
    (h : Scan.Compared previous gates scan) (halive : scan.isCurrentGateStillAlive = true) :
    scan.bestGate.isSome := by
  obtain ⟨gate, hgate, -⟩ := h.refreshed halive
  rw [h.best, Option.isSome_iff_ne_none]
  exact fun hnone => List.ne_nil_of_mem hgate (List.argmin_eq_none.mp hnone)

private theorem Scan.Compared.bestGate_least {previous : Option Gate} {gates : List Gate}
    {scan : Scan}
    {best : Gate} (h : Scan.Compared previous gates scan) (hbest : scan.bestGate = some best) :
    best ∈ gates ∧ ∀ other ∈ gates, best.2 ≤ other.2 := by
  have hmem : best ∈ gates.argmin fun gate => gate.2.toNat := h.best.symm.trans hbest
  exact ⟨List.argmin_mem hmem, fun other hother => List.le_of_mem_argmin hother hmem⟩

/-- The chosen gate has the least metric of those compared, and there is none only if none was
compared. -/
theorem Scan.Compared.chooseGate_cases {previous : Option Gate} {gates : List Gate} {scan : Scan}
    (h : Scan.Compared previous gates scan) :
    scan.chooseGate = none ∧ gates = [] ∨
      ∃ gate ∈ gates, scan.chooseGate = some gate ∧ ∀ other ∈ gates, gate.2 ≤ other.2 := by
  unfold Scan.chooseGate
  split
  next halive =>
    obtain ⟨current, hcurrent, hrefreshed⟩ := h.refreshed halive
    obtain ⟨best, hbest⟩ := Option.isSome_iff_exists.mp (h.bestGate_isSome halive)
    obtain ⟨hmem, hleast⟩ := h.bestGate_least hbest
    simp only [hrefreshed, hbest]
    split
    next => exact .inr ⟨best, hmem, rfl, hleast⟩
    next hnot =>
      have hle : current.2 ≤ best.2 := UInt32.not_lt.mp hnot
      exact .inr ⟨current, hcurrent, rfl, fun other hother =>
        UInt32.le_trans hle (hleast other hother)⟩
  next =>
    cases hbest : scan.bestGate with
    | none => exact .inl ⟨rfl, List.argmin_eq_none.mp (h.best.symm.trans hbest)⟩
    | some best =>
      obtain ⟨hmem, hleast⟩ := h.bestGate_least hbest
      exact .inr ⟨best, hmem, rfl, hleast⟩

/-- A remembered gate of least metric is kept. -/
theorem Scan.Compared.chooseGate_kept {previous gate : Gate} {gates : List Gate} {scan : Scan}
    (h : Scan.Compared (some previous) gates scan) (hmem : gate ∈ gates)
    (hsame : gate.1 = previous.1) (hunique : ∀ other ∈ gates, other.1 = gate.1 → other = gate)
    (hleast : ∀ other ∈ gates, gate.2 ≤ other.2) : scan.chooseGate = some gate := by
  have halive : scan.isCurrentGateStillAlive = true := h.alive.mpr ⟨gate, hmem, by simp [hsame]⟩
  obtain ⟨current, hcurrent, hrefreshed⟩ := h.refreshed halive
  have hremembered := h.remembered
  rw [hrefreshed] at hremembered
  obtain rfl : current = gate :=
    hunique current hcurrent ((Option.some.inj hremembered).trans hsame.symm)
  obtain ⟨best, hbest⟩ := Option.isSome_iff_exists.mp (h.bestGate_isSome halive)
  have hnot : ¬ best.2 < current.2 := UInt32.not_lt.mpr (hleast best (h.bestGate_least hbest).1)
  simp only [Scan.chooseGate, halive, hrefreshed, hbest, if_neg hnot, if_true]

/-- A live gate of least metric, paired with its metric. -/
def IsBestGate (x : SyncInput) (gate : Gate) : Prop :=
  ∃ mpath, x.meshPaths.find gate.1 = some mpath ∧ x.LiveGate gate.1 mpath ∧
    mpath.metric = gate.2 ∧
    ∀ addr other, x.meshPaths.find addr = some other → x.LiveGate addr other →
      gate.2 ≤ other.metric

/-- With each path stored under its destination, the gates compared are those of the table. -/
theorem mem_gatesOf_entries (hkeyed : x.meshPaths.Keyed) {gate : Gate} :
    gate ∈ x.gatesOf x.meshPaths.entries ↔
      ∃ mpath, x.meshPaths.find gate.1 = some mpath ∧ x.LiveGate gate.1 mpath ∧
        mpath.metric = gate.2 := by
  rw [mem_gatesOf]
  constructor
  · rintro ⟨⟨addr, mpath⟩, he, hlive, rfl⟩
    have hfind : x.meshPaths.find addr = some mpath := AList.mem_lookup_iff.mpr he
    obtain rfl := hkeyed addr mpath hfind
    exact ⟨mpath, hfind, hlive, rfl⟩
  · rintro ⟨mpath, hfind, hlive, hmetric⟩
    refine ⟨⟨gate.1, mpath⟩, AList.mem_lookup_iff.mp hfind, hlive, ?_⟩
    rw [hkeyed _ _ hfind, hmetric]

private theorem isBestGate_iff (hkeyed : x.meshPaths.Keyed) {gate : Gate} :
    x.IsBestGate gate ↔ gate ∈ x.gatesOf x.meshPaths.entries ∧
      ∀ other ∈ x.gatesOf x.meshPaths.entries, gate.2 ≤ other.2 := by
  rw [mem_gatesOf_entries hkeyed]
  constructor
  · rintro ⟨mpath, hfind, hlive, hmetric, hleast⟩
    refine ⟨⟨mpath, hfind, hlive, hmetric⟩, fun other hother => ?_⟩
    obtain ⟨q, hq, hqlive, hqmetric⟩ := (mem_gatesOf_entries hkeyed).mp hother
    exact hqmetric ▸ hleast other.1 q hq hqlive
  · rintro ⟨⟨mpath, hfind, hlive, hmetric⟩, hleast⟩
    refine ⟨mpath, hfind, hlive, hmetric, fun addr other hother hotherlive => ?_⟩
    exact hleast (addr, other.metric)
      ((mem_gatesOf_entries hkeyed).mpr ⟨other, hother, hotherlive, rfl⟩)

end SyncInput

namespace SyncRoutes80211s

variable {κ : Type*} [DecidableEq κ] (nl : NlSock κ) (x : SyncInput) (s : SyncRoutes80211s κ)

/-! ## The callback -/

/-- The futures throw exceptions of the socket only. -/
theorem syncBoth_ne_outOfRange (udb : NlUnicastRoutes) (ldb : NlLinkRoutes) :
    (syncBoth nl x udb ldb s).2 ≠ some .outOfRange := by
  have hsocket (a : Action (NetlinkSocket κ) NlException) (t : SyncRoutes80211s κ) :
      (onSocket a t).2 ≠ some .outOfRange := by
    intro h
    obtain ⟨ex, -, hex⟩ := Option.map_eq_some_iff.mp h
    cases hex
  exact andThen_ne_some (hsocket _ _) (hsocket _ _)

/-- A synchronisation does not change the gate. -/
theorem preserves_currentGate_syncBoth (gate : Option Gate) (udb : NlUnicastRoutes)
    (ldb : NlLinkRoutes) :
    Preserves (fun t : SyncRoutes80211s κ => t.currentGate = gate) (syncBoth nl x udb ldb) := by
  intro t ht
  obtain ⟨socket, hsocket⟩ := syncBoth_fst nl x udb ldb t
  rw [hsocket]
  exact ht

private theorem preserves_currentGate_syncTranslator (gate : Option Gate) (udb : NlUnicastRoutes)
    (ldb : NlLinkRoutes) :
    Preserves (fun t : SyncRoutes80211s κ => t.currentGate = gate)
      (syncTranslator nl x udb ldb) := by
  intro t ht
  unfold syncTranslator
  split
  · exact ht
  · exact preserves_currentGate_syncBoth nl x gate _ _ _ ht

private theorem currentGate_doSyncRoutes :
    (doSyncRoutes nl x s).1.currentGate = (x.scanPaths s.currentGate).chooseGate := by
  rw [doSyncRoutes_eq]
  split
  · exact preserves_currentGate_syncTranslator nl x _ _ _ _ rfl
  · exact (preserves_currentGate_syncBoth nl x _ _ _).andThen
      (preserves_currentGate_syncTranslator nl x _ _ _) _ rfl

variable {x}

private theorem syncTranslator_ne_outOfRange (hkeyed : x.meshPaths.Keyed) {previous : Option Gate}
    (hgate : s.currentGate = (x.scanPaths previous).chooseGate) (udb : NlUnicastRoutes)
    (ldb : NlLinkRoutes) : (syncTranslator nl x udb ldb s).2 ≠ some .outOfRange := by
  obtain ⟨dbs, hdbs⟩ :=
    Option.isSome_iff_exists.mp (SyncInput.withTranslator_isSome hkeyed previous udb ldb)
  simp only [syncTranslator, hgate, hdbs, andThen_modify]
  exact syncBoth_ne_outOfRange nl x _ _ _

private theorem doSyncRoutes_ne_outOfRange (hkeyed : x.meshPaths.Keyed) :
    (doSyncRoutes nl x s).2 ≠ some .outOfRange := by
  rw [doSyncRoutes_eq]
  split
  · exact syncTranslator_ne_outOfRange nl _ hkeyed rfl _ _
  · refine andThen_ne_some (syncBoth_ne_outOfRange nl x _ _ _) ?_
    exact syncTranslator_ne_outOfRange nl _ hkeyed
      (preserves_currentGate_syncBoth nl x _ _ _ _ rfl) _ _

/-- The gate that `doSyncRoutes` selects, for every gate remembered and every order of the
paths. -/
theorem currentGate_isBestGate (hkeyed : x.meshPaths.Keyed) :
    let scan := x.scanPaths s.currentGate
    let current := (doSyncRoutes nl x s).1.currentGate
    (current = none ↔
      ∀ addr mpath, x.meshPaths.find addr = some mpath → ¬ x.LiveGate addr mpath) ∧
    (∀ gate, current = some gate → x.IsBestGate gate) ∧
    (∀ old metric, s.currentGate = some old → x.IsBestGate (old.1, metric) →
      current = some (old.1, metric)) ∧
    (scan.isCurrentGateStillAlive → scan.bestGate.isSome) ∧
    (doSyncRoutes nl x s).2 ≠ some .outOfRange := by
  intro scan current
  have hcompared : SyncInput.Scan.Compared s.currentGate _ scan :=
    SyncInput.compared_scanPaths x s.currentGate
  have hcurrent : current = scan.chooseGate := currentGate_doSyncRoutes nl x s
  refine ⟨?_, ?_, ?_, hcompared.bestGate_isSome, doSyncRoutes_ne_outOfRange nl s hkeyed⟩
  · rw [hcurrent]
    obtain ⟨hnone, hgates⟩ | ⟨gate, hgate, hsome, -⟩ := hcompared.chooseGate_cases
    · refine iff_of_true hnone fun addr mpath hfind hlive => ?_
      have hmem : (addr, mpath.metric) ∈ x.gatesOf x.meshPaths.entries :=
        (SyncInput.mem_gatesOf_entries hkeyed).mpr ⟨mpath, hfind, hlive, rfl⟩
      simp [hgates] at hmem
    · obtain ⟨mpath, hfind, hlive, -⟩ := (SyncInput.mem_gatesOf_entries hkeyed).mp hgate
      exact iff_of_false (by simp [hsome]) fun hall => hall gate.1 mpath hfind hlive
  · intro gate hgate
    rw [hcurrent] at hgate
    obtain ⟨hnone, -⟩ | ⟨best, hmem, hsome, hleast⟩ := hcompared.chooseGate_cases
    · simp [hnone] at hgate
    · obtain rfl : best = gate := Option.some.inj (hsome.symm.trans hgate)
      exact (SyncInput.isBestGate_iff hkeyed).mpr ⟨hmem, hleast⟩
  · intro old metric hold hbest
    obtain ⟨hmem, hleast⟩ := (SyncInput.isBestGate_iff hkeyed).mp hbest
    rw [hold] at hcompared
    rw [hcurrent]
    refine hcompared.chooseGate_kept hmem rfl (fun other hother hsame => ?_) hleast
    -- A station has one entry, so the gate is compared with one metric.
    obtain ⟨mpath, hfind, -, hmetric⟩ := (SyncInput.mem_gatesOf_entries hkeyed).mp hother
    obtain ⟨mpath', hfind', -, hmetric'⟩ := (SyncInput.mem_gatesOf_entries hkeyed).mp hmem
    rw [hsame, hfind'] at hfind
    cases hfind
    exact Prod.ext hsame (hmetric.symm.trans hmetric')

/-- A call of `doSyncRoutes` at a node with two gates that are equally good, and with a station
behind the first one that is nearer than both. -/
def betweenGates : SyncInput :=
  { besideGate false with
    meshPaths := MeshPaths.assign
      (MeshPaths.assign
        (MeshPaths.assign ∅ 4 { dst := 4, nextHop := 1, metric := 5, expTime := 1 })
        3 { dst := 3, nextHop := 3, metric := 20, expTime := 1, isGate := true })
      1 { dst := 1, nextHop := 1, metric := 20, expTime := 1, isGate := true } }

/-- Its paths are kept under their destinations. -/
theorem keyed_betweenGates : betweenGates.meshPaths.Keyed := by
  have hempty : MeshPaths.Keyed ∅ := by simp [MeshPaths.Keyed]
  exact .assign (.assign (.assign hempty rfl) rfl) rfl

/-- Of two gates that are equally good, the remembered one is kept and gets its present metric,
although the other one comes first. -/
theorem remembered_gate_refreshed :
    betweenGates.IsBestGate (1, 20) ∧ betweenGates.IsBestGate (3, 20) ∧
      (doSyncRoutes (answering (fun _ => 0) fun _ => false) betweenGates
        { freshNode with currentGate := some (3, 900) }).1.currentGate = some (3, 20) := by
  have hgates : betweenGates.gatesOf betweenGates.meshPaths.entries = [(1, 20), (3, 20)] := by
    decide +kernel
  have hbest {gate : Gate} (hgate : gate ∈ [(1, 20), (3, 20)]) : betweenGates.IsBestGate gate := by
    rw [SyncInput.isBestGate_iff keyed_betweenGates, hgates]
    refine ⟨hgate, fun other hother => ?_⟩
    simp only [List.mem_cons, List.not_mem_nil, or_false] at hgate hother
    rcases hgate with rfl | rfl <;> rcases hother with rfl | rfl <;> exact UInt32.le_refl 20
  have hkept := (currentGate_isBestGate (answering (fun _ => 0) fun _ => false)
    { freshNode with currentGate := some (3, 900) } keyed_betweenGates).2.2.1
  exact ⟨hbest (by simp), hbest (by simp), hkept (3, 900) 20 rfl (hbest (by simp))⟩

end SyncRoutes80211s

end Fbmeshd
