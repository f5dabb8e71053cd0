import Fbmeshd.Routing.GateSelection

/-!
# The contents of the route database

`doSyncRoutes` enters its routes with `emplace`, which leaves a key alone that is already there.
No route is lost: the addresses of a station in the two networks show the station, and the
translator's network has another length.
-/

namespace Fbmeshd

open Fallible

private theorem getMeshIPV6FromMacAddress_inj {a b : MacAddress}
    (h : getMeshIPV6FromMacAddress a = getMeshIPV6FromMacAddress b) : a = b :=
  (IPAddress.eui64_inj (IPAddress.v6.inj h).1).2

private theorem getTaygaIPV6FromMacAddress_inj {a b : MacAddress}
    (h : getTaygaIPV6FromMacAddress a = getTaygaIPV6FromMacAddress b) : a = b :=
  (IPAddress.eui64_inj (IPAddress.v6.inj h).1).2

/-- A station's address is not one behind the translator. -/
theorem getMeshIPV6FromMacAddress_ne_tayga (a b : MacAddress) :
    getMeshIPV6FromMacAddress a ≠ getTaygaIPV6FromMacAddress b := by
  intro h
  have hnet := (IPAddress.eui64_inj (IPAddress.v6.inj h).1).1
  have hfirst : (0xfc : UInt8) = 0xfd := congrArg List.Vector.head hnet
  exact absurd hfirst (by decide)

namespace SyncInput

/-- A destination of the routes to a station. -/
def IsStationPrefix (x : SyncInput) (station : MacAddress) (d : CIDRNetwork) : Prop :=
  d = (getMeshIPV6FromMacAddress station, 128) ∨
    x.taygaReady = true ∧ d = (getTaygaIPV6FromMacAddress station, 128)

/-- A route to the station of a path, through its next hop. -/
def IsPathRoute (x : SyncInput) (mpath : MeshPath) (d : CIDRNetwork) (r : Route) : Prop :=
  mpath.nextHop ≠ 0 ∧ x.IsStationPrefix mpath.dst d ∧
    r = meshRoute d mpath.nextHop x.meshIfIndex

variable {x : SyncInput}

/-- The prefixes of different stations are different. -/
theorem IsStationPrefix.unique {a b : MacAddress} {d : CIDRNetwork} (ha : x.IsStationPrefix a d)
    (hb : x.IsStationPrefix b d) : a = b := by
  rcases ha with rfl | ⟨-, rfl⟩ <;> rcases hb with hb | ⟨-, hb⟩
  · exact getMeshIPV6FromMacAddress_inj (congrArg Prod.fst hb)
  · exact absurd (congrArg Prod.fst hb) (getMeshIPV6FromMacAddress_ne_tayga a b)
  · exact absurd (congrArg Prod.fst hb).symm (getMeshIPV6FromMacAddress_ne_tayga b a)
  · exact getTaygaIPV6FromMacAddress_inj (congrArg Prod.fst hb)

private theorem IsStationPrefix.ne_translator {a : MacAddress} {d : CIDRNetwork}
    (h : x.IsStationPrefix a d) : d ≠ translatorNetwork := by
  intro heq
  have hlength : d.2 = 128 := by
    rcases h with rfl | ⟨-, rfl⟩ <;> rfl
  rw [heq] at hlength
  exact absurd hlength (by decide)

/-- Both routes of a path are entered where there is none to its station. -/
theorem lookup_emplaceRoutes {mpath : MeshPath} {db : NlUnicastRoutes}
    (hhop : mpath.nextHop ≠ 0) (hnew : ∀ d, x.IsStationPrefix mpath.dst d → db.lookup d = none)
    {d : CIDRNetwork} {r : Route} :
    (x.emplaceRoutes mpath db).lookup d = some r ↔
      db.lookup d = some r ∨ x.IsPathRoute mpath d r := by
  have hmesh := hnew _ (.inl rfl)
  unfold emplaceRoutes
  dsimp only
  cases hready : x.taygaReady with
  | false =>
    rw [if_neg Bool.false_ne_true, AList.lookup_emplace_eq_some hmesh, IsPathRoute,
      IsStationPrefix, hready]
    refine or_congr_right ⟨?_, ?_⟩
    · rintro ⟨rfl, rfl⟩
      exact ⟨hhop, .inl rfl, rfl⟩
    · rintro ⟨-, rfl | ⟨hfalse, -⟩, rfl⟩
      · exact ⟨rfl, rfl⟩
      · exact absurd hfalse Bool.false_ne_true
  | true =>
    have htayga := hnew _ (.inr ⟨hready, rfl⟩)
    have hne : ((getMeshIPV6FromMacAddress mpath.dst, 128) : CIDRNetwork) ≠
        (getTaygaIPV6FromMacAddress mpath.dst, 128) := fun h =>
      getMeshIPV6FromMacAddress_ne_tayga _ _ (congrArg Prod.fst h)
    rw [if_pos rfl, AList.lookup_emplace_eq_some ((AList.lookup_emplace_of_ne hne).trans hmesh),
      AList.lookup_emplace_eq_some htayga, IsPathRoute, IsStationPrefix, hready, or_assoc]
    refine or_congr_right ⟨?_, ?_⟩
    · rintro (⟨rfl, rfl⟩ | ⟨rfl, rfl⟩)
      · exact ⟨hhop, .inr ⟨rfl, rfl⟩, rfl⟩
      · exact ⟨hhop, .inl rfl, rfl⟩
    · rintro ⟨-, rfl | ⟨-, rfl⟩, rfl⟩
      · exact .inr ⟨rfl, rfl⟩
      · exact .inl ⟨rfl, rfl⟩

/-- The database holds the routes of the paths that were visited. -/
def Routed (x : SyncInput) (entries : List (Σ _ : MacAddress, MeshPath)) (db : NlUnicastRoutes) :
    Prop :=
  ∀ d r, db.lookup d = some r ↔ ∃ e ∈ entries, x.IsPathRoute e.2 d r

/-- One round of the loop. -/
theorem Routed.visitPath {entries : List (Σ _ : MacAddress, MeshPath)} {scan : Scan}
    (h : x.Routed entries scan.unicastRouteDb) (e : Σ _ : MacAddress, MeshPath)
    (hnew : ∀ e' ∈ entries, e'.2.dst ≠ e.2.dst) :
    x.Routed (entries ++ [e]) (x.visitPath scan e).unicastRouteDb := by
  intro d r
  have hsplit : (∃ e' ∈ entries ++ [e], x.IsPathRoute e'.2 d r) ↔
      scan.unicastRouteDb.lookup d = some r ∨ x.IsPathRoute e.2 d r := by
    rw [h d r]
    simp [or_and_right, exists_or]
  rw [hsplit]
  unfold SyncInput.visitPath
  dsimp only
  split
  next hzero =>
    exact (or_iff_left fun hroute => hroute.1 hzero).symm
  next hhop =>
    have hfree : ∀ d, x.IsStationPrefix e.2.dst d → scan.unicastRouteDb.lookup d = none := by
      intro d hd
      cases hlookup : scan.unicastRouteDb.lookup d with
      | none => rfl
      | some r =>
        obtain ⟨e', he', hroute⟩ := (h d r).mp hlookup
        exact absurd (hroute.2.1.unique hd) (hnew e' he')
    split
    · rw [compareGate_unicastRouteDb]
      exact lookup_emplaceRoutes hhop hfree
    · exact lookup_emplaceRoutes hhop hfree

/-- The whole loop. -/
theorem routed_scanPaths (hkeyed : x.meshPaths.Keyed) (currentGate : Option Gate) :
    x.Routed x.meshPaths.entries (x.scanPaths currentGate).unicastRouteDb := by
  have hdst : ∀ e ∈ x.meshPaths.entries, e.2.dst = e.1 := fun e he =>
    hkeyed e.1 e.2 (AList.mem_lookup_iff.mpr he)
  have hnodup : (x.meshPaths.entries.map Sigma.fst).Nodup := x.meshPaths.nodupKeys
  unfold scanPaths
  generalize x.meshPaths.entries = entries at hdst hnodup
  induction entries using List.reverseRecOn with
  | nil =>
    intro d r
    simp
  | append_singleton entries e ih =>
    rw [List.foldl_append]
    rw [List.map_append, List.nodup_append] at hnodup
    have hbefore : ∀ e' ∈ entries, e'.2.dst = e'.1 := fun e' he' =>
      hdst e' (List.mem_append_left _ he')
    refine (ih hbefore hnodup.1).visitPath e fun e' he' => ?_
    rw [hbefore e' he', hdst e (by simp)]
    exact hnodup.2.2 _ (List.mem_map_of_mem he') _ (by simp)

/-- The route to the translator, through the next hop of the path to the current gate. -/
def IsGatewayRoute (x : SyncInput) (currentGate : Option Gate) (d : CIDRNetwork) (r : Route) :
    Prop :=
  x.taygaReady = true ∧ x.isGate = false ∧ ∃ gate mpath, currentGate = some gate ∧
    x.meshPaths.find gate.1 = some mpath ∧ d = translatorNetwork ∧
      r = meshRoute d mpath.nextHop x.meshIfIndex

/-- The second unicast database has one route more, to the translator through the gate. -/
theorem lookup_withTranslator {currentGate : Option Gate} {udb : NlUnicastRoutes}
    {ldb : NlLinkRoutes} (hudb : udb.lookup translatorNetwork = none)
    {dbs : NlUnicastRoutes × NlLinkRoutes}
    (h : x.withTranslator currentGate udb ldb = some dbs) (d : CIDRNetwork) (r : Route) :
    dbs.1.lookup d = some r ↔ udb.lookup d = some r ∨ x.IsGatewayRoute currentGate d r := by
  unfold withTranslator at h
  unfold IsGatewayRoute
  split at h
  next hready =>
    split at h
    next hgate =>
      cases h
      simp [hgate]
    next hgate =>
      cases currentGate with
      | none =>
        cases h
        simp
      | some gate =>
        obtain ⟨mpath, hfind, rfl⟩ := Option.map_eq_some_iff.mp h
        rw [AList.lookup_emplace_eq_some hudb]
        refine or_congr_right ⟨?_, ?_⟩
        · rintro ⟨rfl, rfl⟩
          exact ⟨hready, by simpa using hgate, gate, mpath, rfl, hfind, rfl, rfl⟩
        · rintro ⟨-, -, gate', mpath', hcurrent, hfind', rfl, rfl⟩
          obtain rfl := Option.some.inj hcurrent
          obtain rfl := Option.some.inj (hfind.symm.trans hfind')
          exact ⟨rfl, rfl⟩
  next hready =>
    cases h
    simp [hready]

end SyncInput

namespace SyncRoutes80211s

variable {κ : Type*} [DecidableEq κ] (nl : NlSock κ) {x : SyncInput} (s : SyncRoutes80211s κ)

/-- The last thing `doSyncRoutes` does is a synchronisation with the databases of
`withTranslator`. -/
theorem doSyncRoutes_final {dbs : NlUnicastRoutes × NlLinkRoutes}
    (hdbs : x.withTranslator (x.scanPaths s.currentGate).chooseGate
      (x.scanPaths s.currentGate).unicastRouteDb (x.linkRouteDb s.nodeAddr) = some dbs) :
    doSyncRoutes nl x s =
      andThen
        (if s.isGateBeforeRouteSync ≠ x.isGate then
          syncBoth nl x (x.scanPaths s.currentGate).unicastRouteDb (x.linkRouteDb s.nodeAddr)
        else modify id)
        (andThen (modify fun s => { s with isGateBeforeRouteSync := x.isGate })
          (syncBoth nl x dbs.1 dbs.2))
        { s with currentGate := (x.scanPaths s.currentGate).chooseGate } := by
  have hkeeps : Preserves
      (fun t : SyncRoutes80211s κ => t.currentGate = (x.scanPaths s.currentGate).chooseGate)
      (if s.isGateBeforeRouteSync ≠ x.isGate then
        syncBoth nl x (x.scanPaths s.currentGate).unicastRouteDb (x.linkRouteDb s.nodeAddr)
      else modify id) := by
    split
    · exact preserves_currentGate_syncBoth nl x _ _ _
    · exact fun _ h => h
  refine hkeeps.andThen_congr (fun t ht => ?_) rfl
  rw [syncTranslator, ht, hdbs]

/-- The addresses of stations are different from each other and from the translator's network, and
the unicast routes of the last synchronisation are those of the paths with a next hop, each through
its own, and the route to the translator where it applies. -/
theorem unicast_database_exact (hkeyed : x.meshPaths.Keyed) :
    (∀ a b, getMeshIPV6FromMacAddress a = getMeshIPV6FromMacAddress b → a = b) ∧
    (∀ a b, getTaygaIPV6FromMacAddress a = getTaygaIPV6FromMacAddress b → a = b) ∧
    (∀ a b, getMeshIPV6FromMacAddress a ≠ getTaygaIPV6FromMacAddress b) ∧
    (∀ a d, x.IsStationPrefix a d → d ≠ translatorNetwork) ∧
    ∃ dbs : NlUnicastRoutes × NlLinkRoutes,
      doSyncRoutes nl x s =
        andThen
          (if s.isGateBeforeRouteSync ≠ x.isGate then
            syncBoth nl x (x.scanPaths s.currentGate).unicastRouteDb (x.linkRouteDb s.nodeAddr)
          else modify id)
          (andThen (modify fun s => { s with isGateBeforeRouteSync := x.isGate })
            (syncBoth nl x dbs.1 dbs.2))
          { s with currentGate := (x.scanPaths s.currentGate).chooseGate } ∧
      ∀ d r, dbs.1.lookup d = some r ↔
        (∃ addr mpath, x.meshPaths.find addr = some mpath ∧ x.IsPathRoute mpath d r) ∨
          x.IsGatewayRoute (x.scanPaths s.currentGate).chooseGate d r := by
  obtain ⟨dbs, hdbs⟩ := Option.isSome_iff_exists.mp (SyncInput.withTranslator_isSome hkeyed
    s.currentGate (x.scanPaths s.currentGate).unicastRouteDb (x.linkRouteDb s.nodeAddr))
  refine ⟨fun _ _ => getMeshIPV6FromMacAddress_inj, fun _ _ => getTaygaIPV6FromMacAddress_inj,
    getMeshIPV6FromMacAddress_ne_tayga, fun _ _ h => h.ne_translator, dbs,
    doSyncRoutes_final nl s hdbs, fun d r => ?_⟩
  rw [SyncInput.lookup_withTranslator (x.scanPaths_lookup_translator _) hdbs,
    SyncInput.routed_scanPaths hkeyed s.currentGate d r]
  refine or_congr_left ⟨?_, ?_⟩
  · rintro ⟨e, he, hroute⟩
    exact ⟨e.1, e.2, AList.mem_lookup_iff.mpr he, hroute⟩
  · rintro ⟨addr, mpath, hfind, hroute⟩
    exact ⟨⟨addr, mpath⟩, AList.mem_lookup_iff.mp hfind, hroute⟩

/-- The routes to a station behind one gate and to the other gate, and the one to the translator
through the gate that is remembered. -/
theorem gate_routes_entered :
    ∃ dbs : NlUnicastRoutes × NlLinkRoutes,
      dbs.1.lookup (getMeshIPV6FromMacAddress 4, 128) =
        some (meshRoute (getMeshIPV6FromMacAddress 4, 128) 1 2) ∧
      dbs.1.lookup (getMeshIPV6FromMacAddress 3, 128) =
        some (meshRoute (getMeshIPV6FromMacAddress 3, 128) 3 2) ∧
      dbs.1.lookup translatorNetwork = some (meshRoute translatorNetwork 3 2) := by
  obtain ⟨-, -, -, -, dbs, -, hdbs⟩ := unicast_database_exact
    (answering (fun _ => 0) fun _ => false) { freshNode with currentGate := some (3, 900) }
    keyed_betweenGates
  refine ⟨dbs, (hdbs _ _).mpr (.inl ⟨4, _, rfl, by decide, .inl rfl, rfl⟩),
    (hdbs _ _).mpr (.inl ⟨3, _, rfl, by decide, .inl rfl, rfl⟩),
    (hdbs _ _).mpr (.inr ⟨rfl, rfl, (3, 20), _, ?_, rfl, rfl, rfl⟩)⟩
  decide +kernel

/-- A path that was created and never updated has no next hop, and no route is entered for it. -/
theorem path_without_next_hop_skipped :
    let x := { besideGate false with meshPaths := AList.singleton 5 (MeshPath.create 5 1) }
    x.meshPaths.Keyed ∧ x.meshPaths.find 5 = some (MeshPath.create 5 1) ∧
      ∃ dbs, x.withTranslator (x.scanPaths none).chooseGate (x.scanPaths none).unicastRouteDb
          (x.linkRouteDb 2) = some dbs ∧
        dbs.1.lookup (getMeshIPV6FromMacAddress 5, 128) = none := by
  refine ⟨?_, rfl, _, rfl, rfl⟩
  intro a p hp
  obtain ⟨rfl, rfl⟩ := AList.lookup_singleton_eq_some.mp hp
  rfl

end SyncRoutes80211s

end Fbmeshd
