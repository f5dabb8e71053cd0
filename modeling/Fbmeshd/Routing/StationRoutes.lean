import Fbmeshd.Routing.RouteDatabase

/-!
# The routes that the kernel is left with

`doSyncRoutes` against a kernel that accepts every request. For a destination that no route through
`tayga` has, the kernel is left with the route of the last database, whatever was there before.
-/

namespace Fbmeshd

open Fallible

/-- The kernel keeps routes by their destination and accepts every request. -/
structure NlSock.Obliging (nl : NlSock CIDRNetwork) : Prop where
  key : nl.key = Route.dst
  encodes : ∀ req, nl.encode req = .SUCCESS
  accepts : nl.AcceptsAll

namespace NetlinkSocket

variable {nl : NlSock CIDRNetwork} {s s' s'' : NetlinkSocket CIDRNetwork} {c : RouteCell}
  {v : Option Route} {C : RouteCell → Option Route} {protocol : UInt8}

private theorem request_of_obliging (hnl : nl.Obliging) (fail : ResultCode → NlException)
    (req : RouteRequest) (s : NetlinkSocket CIDRNetwork) :
    ∃ log, request nl fail req s =
      ({ s with kernel := s.kernel.accept Route.dst req, attempts := log }, none) := by
  have haccepted : (s.attempt nl req).outcome = .answered 0 := by
    simp [attempt, hnl.encodes, (hnl.accepts _).1, (hnl.accepts _).2]
  refine ⟨s.attempts ++ [s.attempt nl req], ?_⟩
  simp [request, Attempt.status, Attempt.Accepted, haccepted, hnl.key]

/-- The cell `c` gets the value `v`, in the kernel and in the cache. -/
structure Writes (c : RouteCell) (v : Option Route) (s s' : NetlinkSocket CIDRNetwork) : Prop where
  kernel : s'.kernel.at = Function.update s.kernel.at c v
  cacheAt : s'.cacheAt = Function.update s.cacheAt c v
  linkRoutes : s'.linkRoutesCache = s.linkRoutesCache

/-- The unicast and label caches become `C`, and where the kernel agreed with the cache it agrees
again. -/
structure Rewrites (C : RouteCell → Option Route) (s s' : NetlinkSocket CIDRNetwork) : Prop where
  cacheAt : s'.cacheAt = C
  mirrored : ∀ c, s.kernel.at c = s.cacheAt c → s'.kernel.at c = s'.cacheAt c
  linkRoutes : s'.linkRoutesCache = s.linkRoutesCache

namespace Rewrites

private theorem trans {C' : RouteCell → Option Route} (h : Rewrites C s s')
    (h' : Rewrites C' s' s'') : Rewrites C' s s'' :=
  ⟨h'.cacheAt, fun c hc => h'.mirrored c (h.mirrored c hc), h'.linkRoutes.trans h.linkRoutes⟩

/-- There is nothing to do. -/
theorem unchanged (h : s.cacheAt c = v) : Rewrites (Function.update s.cacheAt c v) s s :=
  ⟨by rw [← h, Function.update_eq_self], fun _ hc => hc, rfl⟩

private theorem of_writes (h : Writes c v s s') :
    Rewrites (Function.update s.cacheAt c v) s s' := by
  refine ⟨h.cacheAt, fun c' hc' => ?_, h.linkRoutes⟩
  rw [h.kernel, h.cacheAt]
  by_cases hc : c' = c
  · subst hc
    simp
  · simp [hc, hc']

end Rewrites

section Bodies

variable (hnl : nl.Obliging)

include hnl

private theorem writes_removeUnicast (r : Route) (s : NetlinkSocket CIDRNetwork) :
    (removeUnicast nl r s).2 = none ∧
      Writes (.ip r.protocolId r.dst) none s (removeUnicast nl r s).1 := by
  obtain ⟨log, heq⟩ := request_of_obliging hnl (.failedToDelete r.dst) (.deleteRoute r) s
  rw [removeUnicast, andThen_of_none (by rw [heq]), heq, modify_apply]
  refine ⟨rfl, ?_, cacheAt_eraseUnicast .., rfl⟩
  exact s.kernel.accept_at (show (RouteRequest.deleteRoute r).cell = some _ from rfl)

private theorem writes_replaceUnicast (r : Route) (s : NetlinkSocket CIDRNetwork) :
    (replaceUnicast nl r s).2 = none ∧
      Writes (.ip r.protocolId r.dst) (some r) s (replaceUnicast nl r s).1 := by
  obtain ⟨log, heq⟩ := request_of_obliging hnl (.couldNotAdd r) (.addRoute r)
    (eraseUnicast r.protocolId r.dst s)
  rw [replaceUnicast, andThen_modify, andThen_of_none (by rw [heq]), heq, modify_apply]
  refine ⟨rfl, ?_, ?_, rfl⟩
  · exact s.kernel.accept_at (show (RouteRequest.addRoute r).cell = some _ from rfl)
  · rw [cacheAt_emplaceUnicast]
    exact (congrArg (Function.update · _ _) (cacheAt_eraseUnicast ..)).trans
      (Function.update_idem ..)

/-- The body of the first loop of `doSyncUnicastRoutes`. -/
theorem rewrites_deleteCached (hkeyed : ∀ d r, s.cacheAt (.ip protocol d) = some r →
      r.FitsIn (.ip protocol d)) (d : CIDRNetwork) :
    (deleteCached nl protocol d s).2 = none ∧
      Rewrites (Function.update s.cacheAt (.ip protocol d) none) s
        (deleteCached nl protocol d s).1 := by
  unfold deleteCached
  cases hr : (s.unicastRoutesCache protocol).lookup d with
  | none => exact ⟨rfl, .unchanged hr⟩
  | some r =>
    obtain ⟨rfl, rfl, hcheck⟩ := hkeyed d r hr
    obtain ⟨ex, hex, -⟩ | ⟨-, ⟨hnone, -⟩ | heq⟩ := doDeleteUnicastRoute_cases nl r s
    · rw [hcheck] at hex
      cases hex
    · rw [hr] at hnone
      cases hnone
    · obtain ⟨hdone, hwrites⟩ := writes_removeUnicast hnl r s
      dsimp only
      rw [heq]
      exact ⟨hdone, .of_writes hwrites⟩

/-- The body of the second loop. -/
theorem rewrites_doAddUpdateUnicastRoute {r : Route} (hcheck : checkUnicastRoute r = none)
    (hkeyed : ∀ old, s.cacheAt (.ip r.protocolId r.dst) = some old →
      old.FitsIn (.ip r.protocolId r.dst)) :
    (doAddUpdateUnicastRoute nl r s).2 = none ∧
      Rewrites (Function.update s.cacheAt (.ip r.protocolId r.dst) (some r.withDefaultPriority)) s
        (doAddUpdateUnicastRoute nl r s).1 := by
  have hreplace := writes_replaceUnicast hnl r.withDefaultPriority
  simp only [Route.withDefaultPriority_protocolId, Route.withDefaultPriority_dst] at hreplace
  obtain ⟨ex, hex, -⟩ | ⟨-, ⟨hcached, heq⟩ | ⟨-, heq⟩ | ⟨old, hold, heq⟩⟩ :=
    doAddUpdateUnicastRoute_cases nl r s
  · rw [hcheck] at hex
    cases hex
  · rw [heq]
    exact ⟨rfl, .unchanged hcached⟩
  · rw [heq]
    exact ⟨(hreplace s).1, .of_writes (hreplace s).2⟩
  · -- The old route is deleted first. The new one is written to the same cell.
    obtain ⟨hprotocol, hdst, -⟩ := hkeyed old hold
    obtain ⟨log, hdel⟩ := request_of_obliging hnl (.failedToDeleteOld old) (.deleteRoute old) s
    have hcell : (RouteRequest.deleteRoute old).cell = some (.ip r.protocolId r.dst) := by
      rw [← hprotocol, ← hdst]
      rfl
    rw [heq, andThen_of_none (by rw [hdel]), hdel]
    obtain ⟨hdone, hwrites⟩ := hreplace
      { s with kernel := s.kernel.accept Route.dst (.deleteRoute old), attempts := log }
    refine ⟨hdone, .of_writes ⟨?_, hwrites.cacheAt, hwrites.linkRoutes⟩⟩
    rw [hwrites.kernel]
    exact (congrArg (Function.update · _ _) (s.kernel.accept_at hcell)).trans
      (Function.update_idem ..)

end Bodies

/-- A cached route is in the cell that its fields name. -/
def Keyed (s : NetlinkSocket CIDRNetwork) : Prop := ∀ c r, s.cacheAt c = some r → r.FitsIn c

/-- The cells `cells` hold what `g` says, the others what they held in `C`. -/
def overwrite (g C : RouteCell → Option Route) (cells : List RouteCell) (c : RouteCell) :
    Option Route :=
  if c ∈ cells then g c else C c

@[simp] private theorem overwrite_nil (g C : RouteCell → Option Route) : overwrite g C [] = C := by
  funext c
  simp [overwrite]

private theorem overwrite_update (g C : RouteCell → Option Route) (c : RouteCell)
    (cells : List RouteCell) :
    overwrite g (Function.update C c (g c)) cells = overwrite g C (c :: cells) := by
  funext c'
  by_cases hc : c' = c
  · subst hc
    simp [overwrite]
  · simp [overwrite, hc]

section Loops

variable {α : Type*} {f : α → Action (NetlinkSocket CIDRNetwork) NlException}
  {g : RouteCell → Option Route}

private theorem Keyed.rewrites {cells : List RouteCell} (hkeyed : s.Keyed)
    (hg : ∀ c r, g c = some r → r.FitsIn c) (h : Rewrites (overwrite g s.cacheAt cells) s s') :
    s'.Keyed := by
  intro c r hr
  rw [h.cacheAt, overwrite] at hr
  split at hr
  · exact hg c r hr
  · exact hkeyed c r hr

/-- A loop whose rounds write cells, each the value that `g` has for it. -/
theorem rewrites_forEach (cell : α → RouteCell) (hg : ∀ c r, g c = some r → r.FitsIn c)
    (xs : List α)
    (hf : ∀ x ∈ xs, ∀ s : NetlinkSocket CIDRNetwork, s.Keyed → (f x s).2 = none ∧
      Rewrites (Function.update s.cacheAt (cell x) (g (cell x))) s (f x s).1) (hkeyed : s.Keyed) :
    (forEach f xs s).2 = none ∧
      Rewrites (overwrite g s.cacheAt (xs.map cell)) s (forEach f xs s).1 := by
  induction xs generalizing s with
  | nil => exact ⟨rfl, (overwrite_nil ..).symm, fun _ hc => hc, rfl⟩
  | cons x xs ih =>
    obtain ⟨hnone, hround⟩ := hf x List.mem_cons_self s hkeyed
    have hfirst : Rewrites (overwrite g s.cacheAt [cell x]) s (f x s).1 := by
      rwa [← overwrite_update, overwrite_nil]
    obtain ⟨hrest, hrewrites⟩ := ih (fun y hy => hf y (List.mem_cons_of_mem x hy))
      (hkeyed.rewrites hg hfirst)
    rw [forEach, andThen_of_none hnone]
    refine ⟨hrest, ?_⟩
    rw [List.map_cons, ← overwrite_update, ← hround.cacheAt]
    exact hround.trans hrewrites

end Loops

/-- What `doSyncUnicastRoutes` puts into a cell. -/
def databaseAt (protocol : UInt8) (db : NlUnicastRoutes) : RouteCell → Option Route
  | .ip p d => if p = protocol then (db.lookup d).map Route.withDefaultPriority else none
  | .label _ _ => none

private theorem databaseAt_fits {db : NlUnicastRoutes} (hdb : UnicastDatabase protocol db)
    (c : RouteCell) (r : Route) (h : databaseAt protocol db c = some r) : r.FitsIn c := by
  cases c with
  | label _ _ => cases h
  | ip p d =>
    obtain ⟨rfl, hlookup⟩ := Option.ite_none_right_eq_some.mp h
    obtain ⟨r', hr', rfl⟩ := Option.map_eq_some_iff.mp hlookup
    simpa [Route.FitsIn, checkUnicastRoute_withDefaultPriority] using hdb.fits d r' hr'

/-- After `doSyncUnicastRoutes` the cache holds the database, and so does the kernel wherever it
agreed with the cache before. -/
theorem doSyncUnicastRoutes_of_obliging (hnl : nl.Obliging) (order : IterationOrder CIDRNetwork)
    {db : NlUnicastRoutes} (hdb : UnicastDatabase protocol db) (hkeyed : s.Keyed) :
    (doSyncUnicastRoutes nl order protocol db s).2 = none ∧
      (doSyncUnicastRoutes nl order protocol db s).1.Keyed ∧
      (∀ d, (doSyncUnicastRoutes nl order protocol db s).1.cacheAt (.ip protocol d) =
        (db.lookup d).map Route.withDefaultPriority) ∧
      (∀ c, s.kernel.at c = s.cacheAt c →
        (doSyncUnicastRoutes nl order protocol db s).1.kernel.at c =
          (doSyncUnicastRoutes nl order protocol db s).1.cacheAt c) ∧
      (doSyncUnicastRoutes nl order protocol db s).1.linkRoutesCache = s.linkRoutesCache := by
  unfold doSyncUnicastRoutes
  dsimp only
  have hstale := mem_visit_stale order (s.unicastRoutesCache protocol) db
  generalize order.visit ((s.unicastRoutesCache protocol).keys.filter
    fun dest => (db.lookup dest).isNone) = toDelete at hstale
  obtain ⟨hdeleted, hdelete⟩ := rewrites_forEach (f := deleteCached nl protocol)
    (g := fun _ => none) (.ip protocol) (by simp) toDelete
    (fun d _ t ht => rewrites_deleteCached hnl (fun d r => ht (.ip protocol d) r) d) hkeyed
  have hkeyed' := hkeyed.rewrites (by simp) hdelete
  have hentry (kv : Σ _ : CIDRNetwork, Route) (hkv : kv ∈ db.entries) :
      db.lookup kv.1 = some kv.2 := AList.mem_lookup_iff.mpr hkv
  obtain ⟨hadded, hadd⟩ := rewrites_forEach (f := fun kv : Σ _ : CIDRNetwork, Route =>
      doAddUpdateUnicastRoute nl kv.2) (fun kv => .ip protocol kv.1)
    (databaseAt_fits hdb) db.entries (fun kv hkv t ht => by
      obtain ⟨hprotocol, hdst, hcheck⟩ := hdb.fits _ _ (hentry kv hkv)
      have hround := rewrites_doAddUpdateUnicastRoute hnl hcheck fun old => ht _ old
      rw [hprotocol, hdst] at hround
      simpa [databaseAt, hentry kv hkv] using hround) hkeyed'
  rw [andThen_of_none hdeleted]
  refine ⟨hadded, hkeyed'.rewrites (databaseAt_fits hdb) hadd, fun d => ?_,
    (hdelete.trans hadd).mirrored, (hdelete.trans hadd).linkRoutes⟩
  rw [hadd.cacheAt, overwrite, hdelete.cacheAt]
  split
  next hmem => simp [databaseAt]
  next hmem =>
    -- A destination that is not in the database was deleted, or not cached.
    have hlookup : db.lookup d = none := by
      by_contra hne
      obtain ⟨r, hr⟩ := Option.ne_none_iff_exists'.mp hne
      exact hmem (List.mem_map.mpr ⟨⟨d, r⟩, AList.mem_lookup_iff.mp hr, rfl⟩)
    rw [hlookup, overwrite]
    split
    next => rfl
    next hkept =>
      by_contra hne
      have hcached : ((s.unicastRoutesCache protocol).lookup d).isSome :=
        Option.isSome_iff_ne_none.mpr hne
      exact hkept (List.mem_map_of_mem ((hstale d).mpr ⟨hcached, hlookup⟩))

/-- The cache is the same, and so is the kernel for the destinations in `P`. -/
structure LeavesAlone (P : CIDRNetwork → Prop) (s s' : NetlinkSocket CIDRNetwork) : Prop where
  kernel : ∀ p d, P d → s'.kernel.at (.ip p d) = s.kernel.at (.ip p d)
  cacheAt : s'.cacheAt = s.cacheAt

section LinkRoutes

variable {P : CIDRNetwork → Prop}

/-- A request about another destination. -/
theorem LeavesAlone.request (hnl : nl.Obliging) (h : LeavesAlone P s s') {r : Route}
    (hr : ¬ P r.dst) {req : RouteRequest} (hreq : req = .addRoute r ∨ req = .deleteRoute r)
    (fail : ResultCode → NlException) :
    (request nl fail req s').2 = none ∧ LeavesAlone P s (request nl fail req s').1 := by
  obtain ⟨log, heq⟩ := request_of_obliging hnl fail req s'
  have hcell : req.cell = some (.ip r.protocolId r.dst) := by
    rcases hreq with rfl | rfl <;> rfl
  rw [heq]
  refine ⟨rfl, fun p d hd => ?_, h.cacheAt⟩
  have hne : RouteCell.ip p d ≠ .ip r.protocolId r.dst := by
    rintro ⟨⟩
    exact hr hd
  calc (s'.kernel.accept Route.dst req).at (.ip p d)
      = s'.kernel.at (.ip p d) := by rw [s'.kernel.accept_at hcell, Function.update_of_ne hne]
    _ = s.kernel.at (.ip p d) := h.kernel p d hd

/-- `doSyncLinkRoutes` with routes to other destinations, before and after. -/
theorem doSyncLinkRoutes_of_obliging (hnl : nl.Obliging) {db : NlLinkRoutes}
    (hold : ∀ k r, (s.linkRoutesCache protocol).lookup k = some r → ¬ P r.dst)
    (hnew : ∀ k r, db.lookup k = some r → ¬ P r.dst) :
    (doSyncLinkRoutes nl protocol db s).2 = none ∧
      LeavesAlone P s (doSyncLinkRoutes nl protocol db s).1 ∧
      (doSyncLinkRoutes nl protocol db s).1.linkRoutesCache protocol = db := by
  unfold doSyncLinkRoutes
  dsimp only
  generalize (s.linkRoutesCache protocol).keys.filter (fun k => (db.lookup k).isNone) = toDel
  obtain ⟨hdeleted, hdelete⟩ := forEach_total (I := LeavesAlone P s)
    (f := deleteStaleLink nl (s.linkRoutesCache protocol)) toDel
    (fun k _ t ht => by
      unfold deleteStaleLink
      cases hk : (s.linkRoutesCache protocol).lookup k with
      | none => exact ⟨rfl, ht⟩
      | some r => exact ht.request hnl (hold k r hk) (.inr rfl) _) ⟨fun _ _ _ => rfl, rfl⟩
  obtain ⟨hadded, hadd⟩ := forEach_total (I := LeavesAlone P s)
    (f := addNewLink nl (s.linkRoutesCache protocol)) db.entries
    (fun kv hkv t ht => by
      unfold addNewLink
      split
      · exact ⟨rfl, ht⟩
      · exact ht.request hnl (hnew _ _ (AList.mem_lookup_iff.mpr hkv)) (.inl rfl) _) hdelete
  rw [andThen_of_none hdeleted, andThen_of_none hadded, modify_apply]
  exact ⟨rfl, ⟨hadd.kernel, hadd.cacheAt⟩, Function.update_self ..⟩

end LinkRoutes

end NetlinkSocket

/-- The destination of the routes to a station through the mesh. -/
def meshNetwork (a : MacAddress) : CIDRNetwork := (getMeshIPV6FromMacAddress a, 128)

/-- The routes through `tayga` have other destinations. -/
def OffMesh (ldb : NlLinkRoutes) : Prop :=
  ∀ k r, ldb.lookup k = some r → r.dst = k.1 ∧ ∀ a, k.1 ≠ meshNetwork a

/-- Cache and kernel agree on the destinations of the mesh, and the link cache has none of them. -/
structure NetlinkSocket.TracksStations (s : NetlinkSocket CIDRNetwork) : Prop where
  keyed : s.Keyed
  mirrored : ∀ a, s.kernel.at (.ip syncProtocolId (meshNetwork a)) =
    s.cacheAt (.ip syncProtocolId (meshNetwork a))
  offMesh : OffMesh (s.linkRoutesCache syncProtocolId)

namespace SyncInput

variable {x : SyncInput}

private theorem offMesh_emplace {ldb : NlLinkRoutes} (h : OffMesh ldb) {d : CIDRNetwork}
    (hd : ∀ a, d ≠ meshNetwork a) (ifIndex : UInt32) :
    OffMesh (ldb.emplace (d, kTaygaIfName) (taygaRoute d ifIndex)) :=
  AList.forall_lookup_emplace
    (P := fun (k : CIDRNetwork × String) (r : Route) => r.dst = k.1 ∧ ∀ a, k.1 ≠ meshNetwork a)
    h ⟨rfl, hd⟩

private theorem ne_meshNetwork_of_length {d : CIDRNetwork} (h : d.2 ≠ 128) (a : MacAddress) :
    d ≠ meshNetwork a := by
  rintro rfl
  exact h rfl

private theorem offMesh_linkRouteDb (nodeAddr : MacAddress) : OffMesh (x.linkRouteDb nodeAddr) := by
  unfold linkRouteDb
  split
  · refine offMesh_emplace (offMesh_emplace (by simp [OffMesh]) (fun a h => ?_) _)
      (ne_meshNetwork_of_length (by decide)) _
    exact getMeshIPV6FromMacAddress_ne_tayga a nodeAddr (congrArg Prod.fst h).symm
  · simp [OffMesh]

private theorem offMesh_withTranslator {currentGate : Option Gate} {udb : NlUnicastRoutes}
    {ldb : NlLinkRoutes} (hldb : OffMesh ldb) {dbs : NlUnicastRoutes × NlLinkRoutes}
    (h : x.withTranslator currentGate udb ldb = some dbs) : OffMesh dbs.2 := by
  unfold withTranslator at h
  split at h
  · split at h
    · cases h
      exact offMesh_emplace hldb (ne_meshNetwork_of_length (by decide)) _
    · cases currentGate with
      | none =>
        cases h
        exact hldb
      | some gate =>
        obtain ⟨mpath, -, rfl⟩ := Option.map_eq_some_iff.mp h
        exact offMesh_emplace hldb (ne_meshNetwork_of_length (by decide)) _
  · cases h
    exact hldb

/-- The unicast database of the second synchronisation has the routes to the stations. -/
theorem lookup_meshNetwork (hkeyed : x.meshPaths.Keyed) {currentGate chosen : Option Gate}
    {ldb : NlLinkRoutes} {dbs : NlUnicastRoutes × NlLinkRoutes}
    (hdbs : x.withTranslator chosen (x.scanPaths currentGate).unicastRouteDb ldb = some dbs)
    (a : MacAddress) (r : Route) :
    dbs.1.lookup (meshNetwork a) = some r ↔ ∃ mpath, x.meshPaths.find a = some mpath ∧
      mpath.nextHop ≠ 0 ∧ r = meshRoute (meshNetwork a) mpath.nextHop x.meshIfIndex := by
  rw [lookup_withTranslator (x.scanPaths_lookup_translator _) hdbs,
    routed_scanPaths hkeyed currentGate]
  constructor
  · rintro (⟨e, he, hhop, hstation, rfl⟩ | ⟨-, -, -, -, -, -, htranslator, -⟩)
    · have hfind : x.meshPaths.find e.1 = some e.2 := AList.mem_lookup_iff.mpr he
      have hdst : e.2.dst = a := hstation.unique (.inl rfl)
      rw [hkeyed _ _ hfind] at hdst
      exact ⟨e.2, hdst ▸ hfind, hhop, rfl⟩
    · exact absurd htranslator.symm (ne_meshNetwork_of_length (by decide) a)
  · rintro ⟨mpath, hfind, hhop, rfl⟩
    refine .inl ⟨⟨a, mpath⟩, AList.mem_lookup_iff.mp hfind, hhop, .inl ?_, rfl⟩
    rw [hkeyed _ _ hfind]
    rfl

end SyncInput

namespace SyncRoutes80211s

variable {nl : NlSock CIDRNetwork} (hnl : nl.Obliging) {x : SyncInput}
  {s : SyncRoutes80211s CIDRNetwork}

include hnl

private theorem syncBoth_of_obliging {udb : NlUnicastRoutes} {ldb : NlLinkRoutes}
    (hdb : IsSyncDatabase udb ldb) (hoff : OffMesh ldb) (h : s.netlinkSocket.TracksStations) :
    (syncBoth nl x udb ldb s).2 = none ∧
      (syncBoth nl x udb ldb s).1.netlinkSocket.TracksStations ∧
      ∀ a, (syncBoth nl x udb ldb s).1.netlinkSocket.kernel.routes syncProtocolId (meshNetwork a) =
        (udb.lookup (meshNetwork a)).map Route.withDefaultPriority := by
  obtain ⟨hdone, hkeyed, hcache, hmirror, hlinks⟩ :=
    NetlinkSocket.doSyncUnicastRoutes_of_obliging hnl x.deleteOrder
      (hdb.reorder x).unicastDatabase h.keyed
  unfold syncBoth
  rw [andThen_of_none (onSocket_eq_none.mpr hdone)]
  have hother {ldb : NlLinkRoutes} (hldb : OffMesh ldb) (k : CIDRNetwork × String) (r : Route)
      (hr : ldb.lookup k = some r) : ¬ ∃ a, r.dst = meshNetwork a := by
    obtain ⟨hdst, hne⟩ := hldb k r hr
    rintro ⟨a, ha⟩
    exact hne a (hdst.symm.trans ha)
  have hoff' : OffMesh (x.linkOrder.reorder ldb) := fun k r hr =>
    hoff k r (by rwa [IterationOrder.lookup_reorder] at hr)
  have hcached := h.offMesh
  rw [← hlinks] at hcached
  obtain ⟨hlinked, hleaves, hnew⟩ := NetlinkSocket.doSyncLinkRoutes_of_obliging hnl
    (P := fun d => ∃ a, d = meshNetwork a) (hother hcached) (hother hoff')
  refine ⟨onSocket_eq_none.mpr hlinked, ⟨?_, fun a => ?_, ?_⟩, fun a => ?_⟩
  · intro c r hr
    exact hkeyed c r ((congrFun hleaves.cacheAt c).symm.trans hr)
  · exact (hleaves.kernel _ _ ⟨a, rfl⟩).trans
      ((hmirror _ (h.mirrored a)).trans (congrFun hleaves.cacheAt _).symm)
  · exact hnew.symm ▸ hoff'
  · refine (hleaves.kernel syncProtocolId _ ⟨a, rfl⟩).trans ((hmirror _ (h.mirrored a)).trans ?_)
    rw [hcache, IterationOrder.lookup_reorder]

/-- After a call of `doSyncRoutes` the kernel has a route to a station through the mesh if and only
if the node has a path to it with a next hop, and the route is through that next hop. -/
theorem doSyncRoutes_of_obliging (hkeyed : x.meshPaths.Keyed)
    (h : s.netlinkSocket.TracksStations) :
    (doSyncRoutes nl x s).2 = none ∧ (doSyncRoutes nl x s).1.netlinkSocket.TracksStations ∧
      ∀ a r, (doSyncRoutes nl x s).1.netlinkSocket.kernel.routes syncProtocolId (meshNetwork a) =
        some r ↔ ∃ mpath, x.meshPaths.find a = some mpath ∧ mpath.nextHop ≠ 0 ∧
          r = (meshRoute (meshNetwork a) mpath.nextHop x.meshIfIndex).withDefaultPriority := by
  obtain ⟨dbs, hdbs⟩ := Option.isSome_iff_exists.mp (SyncInput.withTranslator_isSome hkeyed
    s.currentGate (x.scanPaths s.currentGate).unicastRouteDb (x.linkRouteDb s.nodeAddr))
  have hfirst := x.isSyncDatabase_first s.currentGate s.nodeAddr
  have hoff := x.offMesh_linkRouteDb s.nodeAddr
  have hsecond := (SyncInput.withTranslator_spec hfirst (x.scanPaths_lookup_translator _)
    (x.linkRouteDb_lookup_translator s.nodeAddr) hdbs).1
  obtain ⟨t, heq, htracks⟩ : ∃ t : SyncRoutes80211s CIDRNetwork,
      (if s.isGateBeforeRouteSync ≠ x.isGate then
          syncBoth nl x (x.scanPaths s.currentGate).unicastRouteDb (x.linkRouteDb s.nodeAddr)
        else modify id) { s with currentGate := (x.scanPaths s.currentGate).chooseGate } =
        (t, none) ∧ t.netlinkSocket.TracksStations := by
    split
    · obtain ⟨hdone, htracks, -⟩ := syncBoth_of_obliging (x := x)
        (s := { s with currentGate := (x.scanPaths s.currentGate).chooseGate }) hnl hfirst hoff h
      exact ⟨_, Prod.ext rfl hdone, htracks⟩
    · exact ⟨_, rfl, h⟩
  rw [doSyncRoutes_final nl s hdbs, andThen_of_none (by rw [heq]), heq, andThen_modify]
  obtain ⟨hnone, htracks', hroutes⟩ := syncBoth_of_obliging (x := x)
    (s := { t with isGateBeforeRouteSync := x.isGate }) hnl hsecond
    (x.offMesh_withTranslator hoff hdbs) htracks
  refine ⟨hnone, htracks', fun a r => ?_⟩
  rw [hroutes, Option.map_eq_some_iff]
  simp only [SyncInput.lookup_meshNetwork hkeyed hdbs]
  constructor
  · rintro ⟨_, ⟨mpath, hfind, hhop, rfl⟩, rfl⟩
    exact ⟨mpath, hfind, hhop, rfl⟩
  · rintro ⟨mpath, hfind, hhop, rfl⟩
    exact ⟨_, ⟨mpath, hfind, hhop, rfl⟩, rfl⟩

end SyncRoutes80211s

end Fbmeshd
