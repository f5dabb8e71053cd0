import Fbmeshd.Rnl.SyncInvariants
import Fbmeshd.Routing.SyncRoutes

/-!
# What ends the synchronisation of routes

A request that fails is thrown by the netlink socket, out of the future, out of `doSyncRoutes` and
out of the callback of the timer, which is `noexcept`. So the loop goes on exactly as long as every
request is accepted or fails with an error that its call takes for success, and no route is to be
deleted that is refused by its check.
-/

namespace Fbmeshd

open Fallible

/-- The `n`-th request is sent and answered in time, with no error or one that it ignores. -/
def NlSock.Absorbs {κ : Type*} (nl : NlSock κ) (n : ℕ) (request : RouteRequest) : Prop :=
  nl.encode request = .SUCCESS ∧ nl.timesOut n = false ∧
    (nl.reply n = 0 ∨ nl.reply n ∈ request.ignoredErrors)

namespace NetlinkSocket

variable {κ : Type*} [DecidableEq κ] {nl : NlSock κ} {s : NetlinkSocket κ}

omit [DecidableEq κ] in
private theorem status_attempt (req : RouteRequest) (s : NetlinkSocket κ) :
    (s.attempt nl req).status = .SUCCESS ↔ nl.Absorbs s.attempts.length req := by
  unfold NlSock.Absorbs
  by_cases hencode : nl.encode req = .SUCCESS
  · cases htime : nl.timesOut s.attempts.length with
    | false => simp [Attempt.status, attempt, hencode, htime, or_iff_not_imp_left]
    | true => simp [Attempt.status, attempt, hencode, htime]
  · simp [Attempt.status, attempt, hencode]

/-- The log says of each request what came of it. -/
def Recorded (nl : NlSock κ) (s : NetlinkSocket κ) : Prop :=
  ∀ i x, s.attempts[i]? = some x → (x.status = .SUCCESS ↔ nl.Absorbs i x.request)

private theorem Recorded.request (h : Recorded nl s) (fail : ResultCode → NlException)
    (req : RouteRequest) : Recorded nl (request nl fail req s).1 := by
  intro i x hi
  rw [request_eq] at hi
  rcases Nat.lt_or_ge i s.attempts.length with hlt | hge
  · rw [List.getElem?_append_left hlt] at hi
    exact h i x hi
  · rw [List.getElem?_append_right hge, List.getElem?_singleton] at hi
    split at hi
    next hzero =>
      cases hi
      obtain rfl : i = s.attempts.length := by omega
      exact status_attempt req s
    next => simp at hi

private theorem requestInvariant_recorded : RequestInvariant nl (fun _ => True) (Recorded nl) where
  add _ _ _ _ h := h.request _ _
  delete _ _ _ h := h.request _ _

private theorem unicastInvariant_recorded : UnicastInvariant nl (fun _ => True) (Recorded nl) where
  toRequestInvariant := requestInvariant_recorded
  erase _ _ _ h := h
  emplace _ _ _ h := h

/-- The unicast routes in the cache are ones that `checkUnicastRoute` lets pass. -/
def CachePasses (s : NetlinkSocket κ) : Prop :=
  ∀ d r, (s.unicastRoutesCache syncProtocolId).lookup d = some r → checkUnicastRoute r = none

/-- The unicast routes in the cache are kept under their destinations. -/
def CacheKeyed (s : NetlinkSocket κ) : Prop :=
  ∀ d r, (s.unicastRoutesCache syncProtocolId).lookup d = some r → r.dst = d

/-- The deletion of a cached route leaves the other ones. -/
theorem CacheKeyed.deleteCached (h : CacheKeyed s) {d dest : CIDRNetwork} {r : Route}
    (hne : d ≠ dest) (hd : (s.unicastRoutesCache syncProtocolId).lookup d = some r) :
    CacheKeyed (deleteCached nl syncProtocolId dest s).1 ∧
      ((deleteCached nl syncProtocolId dest s).1.unicastRoutesCache syncProtocolId).lookup d =
        some r := by
  unfold NetlinkSocket.deleteCached
  cases hdest : (s.unicastRoutesCache syncProtocolId).lookup dest with
  | none => exact ⟨h, hd⟩
  | some r' =>
    dsimp only
    obtain ⟨ex, -, heq⟩ | ⟨-, ⟨-, heq⟩ | heq⟩ := doDeleteUnicastRoute_cases nl r' s
    all_goals rw [heq]
    · exact ⟨h, hd⟩
    · exact ⟨h, hd⟩
    · refine Preserves.andThen (I := fun t => CacheKeyed t ∧
        (t.unicastRoutesCache syncProtocolId).lookup d = some r) (fun t ht => ?_) (fun t ht => ?_)
        s ⟨h, hd⟩
      · rw [request_eq]
        exact ht
      · refine ⟨forall_lookup_eraseUnicast (Q := fun d r => r.dst = d) ht.1 _ _, ?_⟩
        have hother : ¬ (syncProtocolId = r'.protocolId ∧ d = r'.dst) :=
          fun heq => hne (heq.2.trans (h dest r' hdest))
        exact (lookup_eraseUnicast ..).trans ((if_neg hother).trans ht.2)

/-- A synchronisation that lacks a cached route which `checkUnicastRoute` refuses throws. -/
theorem CacheKeyed.passes_of_doSyncUnicastRoutes (h : CacheKeyed s)
    {order : IterationOrder CIDRNetwork} {db : NlUnicastRoutes}
    (hdb : ∀ d r, db.lookup d = some r → r.dst = d ∧ checkUnicastRoute r = none)
    (hdone : (doSyncUnicastRoutes nl order syncProtocolId db s).2 = none) : CachePasses s := by
  intro d r hd
  by_contra hcheck
  have hlacks : db.lookup d = none := by
    by_contra hnew
    obtain ⟨r', hr'⟩ := Option.ne_none_iff_exists'.mp hnew
    obtain ⟨hdst, hpasses⟩ := hdb d r' hr'
    rw [checkUnicastRoute_eq_none_iff] at hcheck hpasses
    rw [h d r hd, ← hdst] at hcheck
    exact hcheck hpasses
  have hmem := (mem_visit_stale order (s.unicastRoutesCache syncProtocolId) db d).mpr
    ⟨by simp [hd], hlacks⟩
  -- the route stays in the cache until it is its turn, and then the deletion throws
  have hloop := forEach_of_none (Q := fun rest t => d ∈ rest ∧ CacheKeyed t ∧
    (t.unicastRoutesCache syncProtocolId).lookup d = some r) (fun dest rest t hQ hround => ?_)
    ⟨hmem, h, hd⟩ (andThen_eq_none hdone).1
  · exact absurd hloop.1 List.not_mem_nil
  · obtain ⟨hrest, ht, htd⟩ := hQ
    have hne : d ≠ dest := by
      rintro rfl
      obtain ⟨ex, hex⟩ := Option.ne_none_iff_exists'.mp hcheck
      simp only [NetlinkSocket.deleteCached, htd, doDeleteUnicastRoute, hex, reduceCtorEq] at hround
    exact ⟨(List.mem_cons.mp hrest).resolve_left hne, ht.deleteCached hne htd⟩

private theorem requestInvariant_cachePasses (nl : NlSock κ) :
    RequestInvariant nl (fun _ => True) CachePasses where
  add _ _ _ _ h := by
    rw [request_eq]
    exact h
  delete _ _ _ h := by
    rw [request_eq]
    exact h

private theorem unicastInvariant_cachePasses (nl : NlSock κ) :
    UnicastInvariant nl (fun r => checkUnicastRoute r = none) CachePasses where
  add fail r _ := (requestInvariant_cachePasses nl).add fail r trivial
  delete := (requestInvariant_cachePasses nl).delete
  erase p d _ h := forall_lookup_eraseUnicast (Q := fun _ r => checkUnicastRoute r = none) h p d
  emplace _ _ hcheck h :=
    forall_lookup_emplaceUnicast (Q := fun _ r => checkUnicastRoute r = none) h hcheck

/-!
## The socket throws what fails
-/

/-- The action throws nothing exactly if the status of each request it makes is `SUCCESS`. -/
abbrev Honest (a : Action (NetlinkSocket κ) NlException) (s : NetlinkSocket κ) : Prop :=
  Reports attempts (fun x => x.status = .SUCCESS) a s

private theorem honest_request (fail : ResultCode → NlException) (req : RouteRequest)
    (s : NetlinkSocket κ) : Honest (request nl fail req) s :=
  ⟨[s.attempt nl req], by rw [request_eq], by rw [request_result, List.forall_mem_singleton]⟩

private theorem honest_replaceUnicast (r : Route) (s : NetlinkSocket κ) :
    Honest (replaceUnicast nl r) s :=
  .andThen (.of_unlogged rfl rfl) fun _ =>
    (honest_request _ _ _).andThen fun _ => .of_unlogged rfl rfl

private theorem honest_doAddUpdateUnicastRoute {r : Route} (hcheck : checkUnicastRoute r = none)
    (s : NetlinkSocket κ) : Honest (doAddUpdateUnicastRoute nl r) s := by
  unfold Honest Reports
  obtain ⟨ex, hex, -⟩ | ⟨-, ⟨-, heq⟩ | ⟨-, heq⟩ | ⟨old, -, heq⟩⟩ :=
    doAddUpdateUnicastRoute_cases nl r s
  · simp [hcheck] at hex
  all_goals rw [heq]
  · exact ⟨[], by simp⟩
  · exact honest_replaceUnicast _ s
  · exact (honest_request _ _ s).andThen fun _ => honest_replaceUnicast _ _

private theorem honest_deleteCached (h : CachePasses s) (dest : CIDRNetwork) :
    Honest (deleteCached nl syncProtocolId dest) s := by
  unfold Honest Reports deleteCached
  cases hr : (s.unicastRoutesCache syncProtocolId).lookup dest with
  | none => exact ⟨[], by simp⟩
  | some r =>
    dsimp only
    obtain ⟨ex, hex, -⟩ | ⟨-, ⟨-, heq⟩ | heq⟩ := doDeleteUnicastRoute_cases nl r s
    · simp [h dest r hr] at hex
    all_goals rw [heq]
    · exact ⟨[], by simp⟩
    · exact (honest_request _ _ s).andThen fun _ => .of_unlogged rfl rfl

private theorem honest_doSyncUnicastRoutes (h : CachePasses s) {order : IterationOrder CIDRNetwork}
    {db : NlUnicastRoutes} (hdb : ∀ d r, db.lookup d = some r → checkUnicastRoute r = none) :
    Honest (doSyncUnicastRoutes nl order syncProtocolId db) s := by
  have hdelete (dest : CIDRNetwork) : Preserves CachePasses (deleteCached nl syncProtocolId dest) :=
    (unicastInvariant_cachePasses nl).deleteCached _ _
  refine Reports.andThen (a := forEach (deleteCached nl syncProtocolId) _)
    (.forEach (fun dest _ => hdelete dest) (fun dest _ t ht => honest_deleteCached ht dest) h)
    fun _ => .forEach (I := CachePasses) (fun e he => ?_) (fun e he t _ => ?_)
      (Preserves.forEach (fun dest _ => hdelete dest) s h)
  · refine (unicastInvariant_cachePasses nl).doAddUpdateUnicastRoute ?_
    rw [checkUnicastRoute_withDefaultPriority]
    exact hdb _ _ (AList.mem_lookup_iff.mpr he)
  · exact honest_doAddUpdateUnicastRoute (hdb _ _ (AList.mem_lookup_iff.mpr he)) t

private theorem honest_doSyncLinkRoutes (db : NlLinkRoutes) (s : NetlinkSocket κ) :
    Honest (doSyncLinkRoutes nl syncProtocolId db) s := by
  have hkeep {α : Type} (f : α → Action (NetlinkSocket κ) NlException) (x : α) :
      Preserves (fun _ => True) (f x) := fun _ _ => trivial
  refine Reports.andThen (a := forEach (deleteStaleLink nl (s.linkRoutesCache syncProtocolId)) _)
    (.forEach (fun k _ => hkeep _ k) (fun k _ t _ => ?_) trivial) fun _ =>
      .andThen (.forEach (fun e _ => hkeep _ e) (fun e _ t _ => ?_) trivial)
        fun _ => .of_unlogged rfl rfl
  · unfold Reports deleteStaleLink
    split
    · exact ⟨[], by simp⟩
    · exact honest_request _ _ t
  · unfold Reports addNewLink
    split
    · exact ⟨[], by simp⟩
    · exact honest_request _ _ t

end NetlinkSocket

namespace SyncInput

/-- How a live gate changes the local variables. -/
theorem compareGate_cases (mpath : MeshPath) (scan : Scan) :
    ((compareGate mpath scan).bestGate = scan.bestGate ∨
        (compareGate mpath scan).bestGate = some (mpath.dst, mpath.metric)) ∧
      ((compareGate mpath scan).currentGate = scan.currentGate ∧
          (compareGate mpath scan).isCurrentGateStillAlive = scan.isCurrentGateStillAlive ∨
        (compareGate mpath scan).currentGate = some (mpath.dst, mpath.metric)) := by
  obtain ⟨db, current, best, alive⟩ := scan
  cases current <;> cases best <;> simp only [compareGate]
  all_goals repeat' split
  all_goals simp_all

variable {x : SyncInput}

/-- The gates of the local variables are in the table, the current one if it was seen alive. -/
structure Scan.Known (x : SyncInput) (scan : Scan) : Prop where
  best : ∀ gate, scan.bestGate = some gate → (x.meshPaths.find gate.1).isSome
  current : scan.isCurrentGateStillAlive → ∀ gate, scan.currentGate = some gate →
    (x.meshPaths.find gate.1).isSome

private theorem Scan.Known.compareGate {mpath : MeshPath} {scan : Scan} (h : Scan.Known x scan)
    (hdst : (x.meshPaths.find mpath.dst).isSome) :
    Scan.Known x (compareGate mpath scan) := by
  obtain ⟨hbest, hcurrent⟩ := compareGate_cases mpath scan
  constructor
  · intro gate hgate
    rcases hbest with heq | heq <;> rw [heq] at hgate
    · exact h.best gate hgate
    · cases hgate
      exact hdst
  · intro halive gate hgate
    rcases hcurrent with ⟨heq, halive'⟩ | heq <;> rw [heq] at hgate
    · exact h.current (halive' ▸ halive) gate hgate
    · cases hgate
      exact hdst

private theorem known_scanPaths (hkeyed : x.meshPaths.Keyed) (currentGate : Option Gate) :
    Scan.Known x (x.scanPaths currentGate) := by
  refine List.foldlRecOn (motive := Scan.Known x) _ _ ⟨by simp, by simp⟩ fun scan h e he => ?_
  have hfind : x.meshPaths.find e.1 = some e.2 := AList.mem_lookup_iff.mpr he
  unfold visitPath
  dsimp only
  split
  · exact h
  · split
    · refine Scan.Known.compareGate ⟨h.best, h.current⟩ ?_
      rw [hkeyed e.1 e.2 hfind, hfind]
      rfl
    · exact ⟨h.best, h.current⟩

/-- The gate that is chosen is in the table, so `meshPaths.at` does not throw. -/
theorem find_chooseGate (hkeyed : x.meshPaths.Keyed) {currentGate : Option Gate} {gate : Gate}
    (h : (x.scanPaths currentGate).chooseGate = some gate) :
    (x.meshPaths.find gate.1).isSome := by
  have hknown := known_scanPaths hkeyed currentGate
  unfold Scan.chooseGate at h
  split at h
  next halive =>
    split at h
    next hcurrent hbest =>
      split at h <;> cases h
      · exact hknown.best _ hbest
      · exact hknown.current halive _ hcurrent
    next => exact hknown.best gate h
  next => exact hknown.best gate h

/-- The gate that is chosen has a path, so the second databases can be made. -/
theorem withTranslator_isSome (hkeyed : x.meshPaths.Keyed) (currentGate : Option Gate)
    (udb : NlUnicastRoutes) (ldb : NlLinkRoutes) :
    (x.withTranslator (x.scanPaths currentGate).chooseGate udb ldb).isSome := by
  unfold withTranslator
  split
  · split
    · rfl
    · cases hgate : (x.scanPaths currentGate).chooseGate with
      | none => rfl
      | some gate =>
        rw [Option.isSome_map]
        exact find_chooseGate hkeyed hgate
  · rfl

end SyncInput

namespace SyncRoutes80211s

open NetlinkSocket hiding Honest

variable {κ : Type*} [DecidableEq κ] {nl : NlSock κ} {s : SyncRoutes80211s κ} {x : SyncInput}
  {udb : NlUnicastRoutes} {ldb : NlLinkRoutes}

/-!
## Rounds
-/

/-- A round throws nothing exactly if the status of each request it makes is `SUCCESS`. -/
abbrev Honest (a : Action (SyncRoutes80211s κ) SyncException) (s : SyncRoutes80211s κ) : Prop :=
  Reports (fun s => s.netlinkSocket.attempts) (fun x => x.status = .SUCCESS) a s

omit [DecidableEq κ] in
private theorem honest_onSocket {a : Action (NetlinkSocket κ) NlException}
    (h : NetlinkSocket.Honest a s.netlinkSocket) : Honest (onSocket a) s := by
  obtain ⟨new, hlog, hok⟩ := h
  exact ⟨new, hlog, onSocket_eq_none.trans hok⟩

section Invariant

variable {A : Route → Prop} {J : NetlinkSocket κ → Prop}
  (hunicast : UnicastInvariant nl A J) (hrequest : RequestInvariant nl (fun _ => True) J)
  (hset : ∀ db s, J s → J (setLinkRoutes syncProtocolId db s))
  (hA : ∀ d r, IsMeshEntry d r → A r.withDefaultPriority)

include hunicast hrequest hset hA

private theorem preserves_syncBoth (hdb : IsSyncDatabase udb ldb) :
    Preserves (fun s => J s.netlinkSocket) (syncBoth nl x udb ldb) :=
  .andThen
    (preserves_onSocket (hunicast.doSyncUnicastRoutes fun d r hr =>
      hA d r ((hdb.reorder x).mesh d r hr)))
    (preserves_onSocket (hrequest.doSyncLinkRoutes (fun _ _ _ => trivial) (hset _)))

/-- What the synchronisations of the socket keep is kept by the callback. -/
theorem preserves_syncRoutesCallback :
    Preserves (fun s => J s.netlinkSocket) (syncRoutesCallback nl x) := by
  refine .andThen (fun _ h => h) (.andThen (fun s h => ?_) fun _ h => h)
  have hdb := x.isSyncDatabase_first s.currentGate s.nodeAddr
  have hsecond : Preserves (fun t : SyncRoutes80211s κ => J t.netlinkSocket)
      (syncTranslator nl x (x.scanPaths s.currentGate).unicastRouteDb
        (x.linkRouteDb s.nodeAddr)) := by
    intro t h
    unfold syncTranslator
    split
    next => exact h
    next dbs hdbs =>
      have hdb' := (SyncInput.withTranslator_spec hdb (x.scanPaths_lookup_translator _)
        (x.linkRouteDb_lookup_translator _) hdbs).1
      exact preserves_syncBoth hunicast hrequest hset hA hdb' _ h
  rw [doSyncRoutes_eq]
  split
  · exact hsecond _ h
  · exact (preserves_syncBoth hunicast hrequest hset hA hdb).andThen hsecond _ h

end Invariant

private theorem checkUnicastRoute_of_isMeshEntry {d : CIDRNetwork} {r : Route}
    (h : IsMeshEntry d r) :
    checkUnicastRoute r = none := by
  obtain ⟨⟨_, _, rfl⟩, hmulti, hlocal⟩ := h
  exact checkUnicastRoute_eq_none_iff.mpr ⟨hmulti, hlocal⟩

private theorem preserves_cachePasses_syncBoth (hdb : IsSyncDatabase udb ldb) :
    Preserves (fun s : SyncRoutes80211s κ => CachePasses s.netlinkSocket)
      (syncBoth nl x udb ldb) :=
  preserves_syncBoth (unicastInvariant_cachePasses nl) (requestInvariant_cachePasses nl)
    (fun _ _ h => h)
    (fun _ _ h => (checkUnicastRoute_withDefaultPriority _).trans
      (checkUnicastRoute_of_isMeshEntry h)) hdb

private theorem preserves_cachePasses :
    Preserves (fun s : SyncRoutes80211s κ => CachePasses s.netlinkSocket)
      (syncRoutesCallback nl x) :=
  preserves_syncRoutesCallback (unicastInvariant_cachePasses nl) (requestInvariant_cachePasses nl)
    (fun _ _ h => h) fun _ _ h => (checkUnicastRoute_withDefaultPriority _).trans
      (checkUnicastRoute_of_isMeshEntry h)

private theorem preserves_recorded :
    Preserves (fun s : SyncRoutes80211s κ => Recorded nl s.netlinkSocket)
      (syncRoutesCallback nl x) :=
  preserves_syncRoutesCallback unicastInvariant_recorded requestInvariant_recorded
    (fun _ _ h => h) fun _ _ _ => trivial

private theorem honest_syncBoth (h : CachePasses s.netlinkSocket) (hdb : IsSyncDatabase udb ldb) :
    Honest (syncBoth nl x udb ldb) s :=
  .andThen
    (honest_onSocket (honest_doSyncUnicastRoutes h fun d r hr =>
      checkUnicastRoute_of_isMeshEntry ((hdb.reorder x).mesh d r hr)))
    fun _ => honest_onSocket (honest_doSyncLinkRoutes _ _)

private theorem honest_syncTranslator (h : CachePasses s.netlinkSocket) (hkeyed : x.meshPaths.Keyed)
    (currentGate : Option Gate) (hgate : s.currentGate = (x.scanPaths currentGate).chooseGate)
    (hdb : IsSyncDatabase udb ldb) (hudb : udb.lookup translatorNetwork = none)
    (hldb : ∀ ifName, ldb.lookup (translatorNetwork, ifName) = none) :
    Honest (syncTranslator nl x udb ldb) s := by
  obtain ⟨dbs, hdbs⟩ := Option.isSome_iff_exists.mp
    (SyncInput.withTranslator_isSome hkeyed currentGate udb ldb)
  rw [← hgate] at hdbs
  have hdb' := (SyncInput.withTranslator_spec hdb hudb hldb hdbs).1
  unfold Honest Reports syncTranslator
  rw [hdbs]
  exact Reports.andThen (.of_unlogged rfl rfl) fun _ => honest_syncBoth h hdb'

/-- `doSyncRoutes` throws what fails, and nothing else. -/
theorem honest_doSyncRoutes (h : CachePasses s.netlinkSocket) (hkeyed : x.meshPaths.Keyed) :
    Honest (doSyncRoutes nl x) s := by
  have hdb := x.isSyncDatabase_first s.currentGate s.nodeAddr
  have hudb := x.scanPaths_lookup_translator s.currentGate
  have hldb := x.linkRouteDb_lookup_translator s.nodeAddr
  unfold Honest Reports
  rw [doSyncRoutes_eq]
  split
  · exact honest_syncTranslator h hkeyed s.currentGate rfl hdb hudb hldb
  · refine Reports.andThen
      (honest_syncBoth (s := { s with currentGate := (x.scanPaths s.currentGate).chooseGate })
        h hdb) fun _ => honest_syncTranslator ?_ hkeyed s.currentGate ?_ hdb hudb hldb
    · exact preserves_cachePasses_syncBoth hdb _ h
    · obtain ⟨socket, heq⟩ := syncBoth_fst nl x (x.scanPaths s.currentGate).unicastRouteDb
        (x.linkRouteDb s.nodeAddr) { s with currentGate := (x.scanPaths s.currentGate).chooseGate }
      rw [heq]

/-- One run of the callback. -/
theorem honest_syncRoutesCallback (h : CachePasses s.netlinkSocket) (hkeyed : x.meshPaths.Keyed) :
    Honest (syncRoutesCallback nl x) s :=
  .andThen (.of_unlogged rfl rfl) fun _ =>
    .andThen (honest_doSyncRoutes h hkeyed) fun _ => .of_unlogged rfl rfl

/-- A synchronisation that throws nothing started from a cache that passes. -/
theorem cachePasses_of_syncBoth (h : CacheKeyed s.netlinkSocket) (hdb : IsSyncDatabase udb ldb)
    (hdone : (syncBoth nl x udb ldb s).2 = none) : CachePasses s.netlinkSocket := by
  refine h.passes_of_doSyncUnicastRoutes (fun d r hr => ?_)
    (onSocket_eq_none.mp (andThen_eq_none hdone).1)
  have hentry := (hdb.reorder x).mesh d r hr
  refine ⟨?_, checkUnicastRoute_of_isMeshEntry hentry⟩
  obtain ⟨⟨_, _, rfl⟩, -⟩ := hentry
  rfl

/-- A callback that throws nothing started from a cache that passes. -/
theorem cachePasses_of_syncRoutesCallback (h : CacheKeyed s.netlinkSocket)
    (hdone : (syncRoutesCallback nl x s).2 = none) : CachePasses s.netlinkSocket := by
  have hdb := x.isSyncDatabase_first s.currentGate s.nodeAddr
  rw [syncRoutesCallback, andThen_modify] at hdone
  replace hdone := (andThen_eq_none hdone).1
  rw [doSyncRoutes_eq] at hdone
  split at hdone
  · unfold syncTranslator at hdone
    split at hdone
    · simp at hdone
    · next dbs hdbs =>
      rw [andThen_modify] at hdone
      exact cachePasses_of_syncBoth (s := { s with
        syncRoutesTimer := none
        currentGate := (x.scanPaths s.currentGate).chooseGate
        isGateBeforeRouteSync := x.isGate }) h
        (SyncInput.withTranslator_spec hdb (x.scanPaths_lookup_translator _)
          (x.linkRouteDb_lookup_translator _) hdbs).1 hdone
  · exact cachePasses_of_syncBoth (s := { s with
      syncRoutesTimer := none
      currentGate := (x.scanPaths s.currentGate).chooseGate }) h hdb (andThen_eq_none hdone).1

/-- The callback schedules its timer again, unless it throws. -/
theorem syncRoutesTimer_syncRoutesCallback (hdone : (syncRoutesCallback nl x s).2 = none) :
    (syncRoutesCallback nl x s).1.syncRoutesTimer =
      .scheduleTimeout x.now kSyncRoutesInterval := by
  unfold syncRoutesCallback at hdone ⊢
  rw [andThen_modify] at hdone ⊢
  rw [(andThen_eq_none hdone).2]
  rfl

/-- From a cache that passes, the loop goes on as long as every request is absorbed. -/
theorem syncLoop_eq_none_iff (hcache : CachePasses s.netlinkSocket)
    (hlog : s.netlinkSocket.attempts = []) {xs : List SyncInput}
    (hkeyed : ∀ x ∈ xs, x.meshPaths.Keyed) :
    (syncLoop nl xs s).2 = none ↔
      ∀ i x, (syncLoop nl xs s).1.netlinkSocket.attempts[i]? = some x →
        nl.Absorbs i x.request := by
  have hrecorded : Recorded nl (syncLoop nl xs s).1.netlinkSocket := by
    refine Preserves.forEach (fun x _ => preserves_recorded) s fun i x hi => ?_
    simp [hlog] at hi
  obtain ⟨new, hnew, hok⟩ : Honest (syncLoop nl xs) s :=
    .forEach (fun x _ => preserves_cachePasses)
      (fun x hx t ht => honest_syncRoutesCallback ht (hkeyed x hx)) hcache
  dsimp only at hnew
  rw [hlog, List.nil_append] at hnew
  rw [hok, ← hnew]
  constructor
  · exact fun hall i x hi => (hrecorded i x hi).mp (hall x (List.mem_of_getElem? hi))
  · intro hall x hx
    obtain ⟨i, hi⟩ := List.mem_iff_getElem?.mp hx
    exact (hrecorded i x hi).mpr (hall i x hi)

/-- A loop of at least one callback that throws nothing started from a cache that passes. -/
theorem cachePasses_of_syncLoop (h : CacheKeyed s.netlinkSocket) {xs : List SyncInput}
    (hdone : (syncLoop nl xs s).2 = none) (hne : xs ≠ []) : CachePasses s.netlinkSocket := by
  obtain ⟨x, rest, rfl⟩ := List.exists_cons_of_ne_nil hne
  exact cachePasses_of_syncRoutesCallback h (andThen_eq_none hdone).1

/-- The loop goes on exactly if no cached route is refused by `checkUnicastRoute` and every request
is answered in time, with no error or one that it ignores. Here the cached routes are kept under
their destinations, or none is refused. -/
theorem sync_survives_iff
    (hcache : CacheKeyed s.netlinkSocket ∨ CachePasses s.netlinkSocket)
    (hlog : s.netlinkSocket.attempts = []) {xs : List SyncInput}
    (hkeyed : ∀ x ∈ xs, x.meshPaths.Keyed) :
    ((syncLoop nl xs s).2 = none ↔
        (xs ≠ [] → CachePasses s.netlinkSocket) ∧
          ∀ i x, (syncLoop nl xs s).1.netlinkSocket.attempts[i]? = some x →
            nl.Absorbs i x.request) ∧
      ((syncLoop nl xs s).2 = none → ∀ x ∈ xs.getLast?,
        (syncLoop nl xs s).1.syncRoutesTimer = .scheduleTimeout x.now kSyncRoutesInterval) := by
  constructor
  · constructor
    · intro hdone
      have hpasses (hne : xs ≠ []) : CachePasses s.netlinkSocket :=
        hcache.elim (cachePasses_of_syncLoop · hdone hne) id
      refine ⟨hpasses, ?_⟩
      by_cases hne : xs = []
      · subst hne
        simp [syncLoop, forEach, hlog]
      · exact (syncLoop_eq_none_iff (hpasses hne) hlog hkeyed).mp hdone
    · rintro ⟨hpasses, habsorbed⟩
      by_cases hne : xs = []
      · subst hne
        rfl
      · exact (syncLoop_eq_none_iff (hpasses hne) hlog hkeyed).mpr habsorbed
  · intro hdone
    -- `xs` is what is done and what remains, and the last callback that is done set the timer
    have hloop := forEach_of_none (Q := fun rest t => ∃ done, xs = done ++ rest ∧
      ∀ x ∈ done.getLast?, t.syncRoutesTimer = .scheduleTimeout x.now kSyncRoutesInterval)
      (fun x rest t hQ hround => ?_) ⟨[], rfl, by simp⟩ hdone
    · obtain ⟨done, hsplit, htimer⟩ := hloop
      obtain rfl : done = xs := by simpa using hsplit.symm
      exact htimer
    · obtain ⟨done, hsplit, -⟩ := hQ
      refine ⟨done ++ [x], by rw [hsplit, List.append_assoc]; rfl, fun y hy => ?_⟩
      obtain rfl : x = y := by simpa using hy
      exact syncRoutesTimer_syncRoutesCallback hround

private theorem keyed_besideGate (isGate : Bool) : (besideGate isGate).meshPaths.Keyed := by
  intro a p hp
  obtain ⟨rfl, rfl⟩ := AList.lookup_singleton_eq_some.mp hp
  rfl

/-- A kernel that sends these answers. -/
def answering (reply : ℕ → ℕ) (timesOut : ℕ → Bool) : NlSock CIDRNetwork :=
  { encode := fun _ => .SUCCESS, key := Route.dst, reply, timesOut }

/-- All routes exist already. The errors are ignored, and the timer is set again. -/
theorem existing_routes_survived :
    let run := syncLoop (answering (fun _ => EEXIST) fun _ => false)
      [besideGate false, besideGate true] freshNode
    run.1.netlinkSocket.attempts.length = 9 ∧ run.2 = none ∧
      run.1.syncRoutesTimer = .scheduleTimeout 0 kSyncRoutesInterval := by
  have hkeyed : ∀ x ∈ [besideGate false, besideGate true], x.meshPaths.Keyed := by
    simp [keyed_besideGate]
  have hdone : (syncLoop (answering (fun _ => EEXIST) fun _ => false)
      [besideGate false, besideGate true] freshNode).2 = none := by
    decide +kernel
  exact ⟨by decide +kernel, hdone,
    (sync_survives_iff (.inl fun _ _ h => by simp [freshNode] at h) rfl hkeyed).2 hdone _ rfl⟩

/-- The first request is rejected with `EPERM`, or not answered in time. The exception leaves the
callback, and the timer is not set again. -/
theorem failed_request_ends_process :
    let route := (meshRoute translatorNetwork 1 2).withDefaultPriority
    let rejected := syncRoutesCallback (answering (fun _ => 1) fun _ => false) (besideGate false)
      freshNode
    let late := syncRoutesCallback (answering (fun _ => 0) fun _ => true) (besideGate false)
      freshNode
    rejected.2 = some (.netlink (.couldNotAdd route .SYSERR)) ∧
      rejected.1.syncRoutesTimer = none ∧
      late.2 = some (.netlink (.couldNotAdd route .TIMEOUT)) ∧ late.1.syncRoutesTimer = none := by
  decide +kernel

end SyncRoutes80211s

end Fbmeshd
