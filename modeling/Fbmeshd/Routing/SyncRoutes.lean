import Fbmeshd.Rnl.RouteBuilder
import Fbmeshd.Rnl.RouteSync
import Fbmeshd.Routing.Gates
import Fbmeshd.Routing.PacketTransport

/-!
# Installing the mesh paths as routes

`SyncRoutes80211s` turns the mesh paths into kernel routes, once a second. Through the mesh there
is a route to each station; addresses of the IPv4 network are translated by the interface `tayga`,
on this node if it is a gate and else on the gate that was chosen. Each round is given what it
reads: the paths, the gate status, the state of the interfaces and the clock.
-/

namespace Fbmeshd

open Fallible

/-- A table with its entries in the order in which they are visited. -/
def IterationOrder.reorder {α : Type*} {β : α → Type*} (order : IterationOrder (Sigma β))
    (t : AList β) : AList β :=
  ⟨order.visit t.entries, (List.perm_nodupKeys (order.perm t.entries)).mpr t.nodupKeys⟩

/-- A table is the same in every order. -/
@[simp] theorem IterationOrder.lookup_reorder {α : Type*} {β : α → Type*} [DecidableEq α]
    (order : IterationOrder (Sigma β)) (t : AList β) (a : α) :
    (order.reorder t).lookup a = t.lookup a :=
  AList.perm_lookup (order.perm t.entries)

/-- `kSyncRoutesInterval`. -/
def kSyncRoutesInterval : ℤ := seconds 1

/-- `kTaygaIfName`. -/
def kTaygaIfName : String := "tayga"

/-- The protocol id of the routes. -/
def syncProtocolId : UInt8 := 98

/-- `getTaygaIPV6FromMacAddress`. -/
def getTaygaIPV6FromMacAddress (macAddress : MacAddress) : IPAddress :=
  .v6 (IPAddress.eui64 ⟨[0xfd, 0, 0, 0, 0, 0, 0, 0], rfl⟩ macAddress) 0

/-- `getMeshIPV6FromMacAddress`. -/
def getMeshIPV6FromMacAddress (macAddress : MacAddress) : IPAddress :=
  .v6 (IPAddress.eui64 ⟨[0xfc, 0, 0, 0, 0, 0, 0, 0], rfl⟩ macAddress) 0

/-- The network fd00:ffff::/96 of the translator. -/
def translatorNetwork : CIDRNetwork :=
  (.v6 ⟨[0xfd, 0, 0xff, 0xff, 0, 0, 0, 0, 0, 0, 0, 0, 0, 0, 0, 0], rfl⟩ 0, 96)

/-- The network 172.16.0.0/16 of the translated addresses. -/
def taygaNetwork : CIDRNetwork := (.v4 ⟨[172, 16, 0, 0], rfl⟩, 16)

/-- `defaultV4Prefix`. -/
def defaultV4Prefix : CIDRNetwork := (.v4 ⟨[0, 0, 0, 0], rfl⟩, 0)

/-- A route through the station `nextHop`. -/
def meshRoute (destination : CIDRNetwork) (nextHop : MacAddress) (meshIfIndex : UInt32) : Route :=
  { dst := destination
    family := destination.1.family
    protocolId := syncProtocolId
    nextHops := {{ ifIndex := some meshIfIndex
                   gateway := some (.v6 (IPAddress.linkLocal nextHop) 0) }} }

/-- `buildLinkRoute` with the interface `tayga`. It has no place for an MTU and an MSS. -/
def taygaRoute (destination : CIDRNetwork) (taygaIfIndex : UInt32) : Route :=
  { dst := destination
    family := destination.1.family
    protocolId := syncProtocolId
    scope := RT_SCOPE_LINK
    routeIfName := some kTaygaIfName
    nextHops := {{ ifIndex := some taygaIfIndex }} }

/-- The routes through `tayga` are built by `buildLinkRoute`, whatever else was set. -/
theorem buildLinkRoute_eq_taygaRoute {builder : RouteBuilder} {taygaIfIndex : UInt32}
    (hprotocol : builder.protocolId = syncProtocolId)
    (hindex : builder.routeIfIndex = some taygaIfIndex) (hzero : taygaIfIndex ≠ 0)
    (hname : builder.routeIfName = some kTaygaIfName) :
    builder.buildLinkRoute = .ok (taygaRoute builder.dst taygaIfIndex) := by
  rw [RouteBuilder.buildLinkRoute, RouteBuilder.buildIfRoute_of_interface hindex hzero hname,
    RouteBuilder.overInterface, hprotocol]
  rfl

/-- What one call of `doSyncRoutes` reads, with the order in which it visits its databases. -/
structure SyncInput where
  meshIfIndex : UInt32
  isGate : Bool
  meshPaths : MeshPaths
  taygaIfIndex : UInt32
  taygaIfUp : Bool
  entryNow : MacAddress → ℤ
  now : ℤ
  deleteOrder : IterationOrder CIDRNetwork
  unicastOrder : IterationOrder (Σ _ : CIDRNetwork, Route)
  linkOrder : IterationOrder (Σ _ : CIDRNetwork × String, Route)

/-- The exceptions of `doSyncRoutes`: those of a future, and that of `meshPaths.at`. -/
inductive SyncException where
  | netlink (ex : NlException)
  | outOfRange
  deriving DecidableEq

/-- A gate with its metric. -/
abbrev Gate := MacAddress × UInt32

namespace SyncInput

variable (x : SyncInput)

/-- The interface `tayga` is present and up. -/
def taygaReady : Bool := x.taygaIfIndex ≠ 0 && x.taygaIfUp

/-- The local variables of the loop over the mesh paths. -/
structure Scan where
  unicastRouteDb : NlUnicastRoutes := ∅
  currentGate : Option Gate
  bestGate : Option Gate := none
  isCurrentGateStillAlive : Bool := false

/-- The routes to a station. -/
def emplaceRoutes (mpath : MeshPath) (db : NlUnicastRoutes) : NlUnicastRoutes :=
  let tayga := (getTaygaIPV6FromMacAddress mpath.dst, 128)
  let mesh := (getMeshIPV6FromMacAddress mpath.dst, 128)
  let db := if x.taygaReady then db.emplace tayga (meshRoute tayga mpath.nextHop x.meshIfIndex)
    else db
  db.emplace mesh (meshRoute mesh mpath.nextHop x.meshIfIndex)

/-- Compare a live gate with the current and with the best one. -/
def compareGate (mpath : MeshPath) (scan : Scan) : Scan :=
  let scan := match scan.currentGate with
    | some gate =>
      if gate.1 = mpath.dst then
        { scan with isCurrentGateStillAlive := true, currentGate := some (gate.1, mpath.metric) }
      else scan
    | none => scan
  match scan.bestGate with
  | some gate =>
    if mpath.metric < gate.2 then { scan with bestGate := some (mpath.dst, mpath.metric) }
    else scan
  | none => { scan with bestGate := some (mpath.dst, mpath.metric) }

/-- The body of the loop. -/
def visitPath (scan : Scan) (e : Σ _ : MacAddress, MeshPath) : Scan :=
  let mpath := e.2
  if mpath.nextHop = 0 then scan
  else
    let scan := { scan with unicastRouteDb := x.emplaceRoutes mpath scan.unicastRouteDb }
    if x.entryNow e.1 < mpath.expTime ∧ mpath.isGate then compareGate mpath scan else scan

/-- The loop. -/
def scanPaths (currentGate : Option Gate) : Scan :=
  x.meshPaths.entries.foldl x.visitPath { currentGate }

/-- The gate that is current after the loop. -/
def Scan.chooseGate (scan : Scan) : Option Gate :=
  if scan.isCurrentGateStillAlive then
    match scan.currentGate, scan.bestGate with
    | some current, some best => if best.2 < current.2 then some best else some current
    | _, best => best
  else scan.bestGate

/-- The link routes before the translator's. -/
def linkRouteDb (nodeAddr : MacAddress) : NlLinkRoutes :=
  let destination := (getTaygaIPV6FromMacAddress nodeAddr, 128)
  if x.taygaReady then
    (AList.emplace (destination, kTaygaIfName) (taygaRoute destination x.taygaIfIndex) ∅).emplace
      (taygaNetwork, kTaygaIfName) (taygaRoute taygaNetwork x.taygaIfIndex)
  else ∅

/-- The databases of the second synchronisation, with the route to the translator. There are none
if `meshPaths.at` throws. -/
def withTranslator (currentGate : Option Gate) (unicastRouteDb : NlUnicastRoutes)
    (linkRouteDb : NlLinkRoutes) : Option (NlUnicastRoutes × NlLinkRoutes) :=
  if x.taygaReady then
    if x.isGate then
      some (unicastRouteDb, linkRouteDb.emplace (translatorNetwork, kTaygaIfName)
        (taygaRoute translatorNetwork x.taygaIfIndex))
    else
      match currentGate with
      | some gate =>
        (x.meshPaths.find gate.1).map fun mpath =>
          (unicastRouteDb.emplace translatorNetwork
              (meshRoute translatorNetwork mpath.nextHop x.meshIfIndex),
            linkRouteDb.emplace (defaultV4Prefix, kTaygaIfName)
              (taygaRoute defaultV4Prefix x.taygaIfIndex))
      | none => some (unicastRouteDb, linkRouteDb)
  else some (unicastRouteDb, linkRouteDb)

end SyncInput

/-- A route through the mesh under its destination, to which unicast routes are allowed. -/
def IsMeshEntry (destination : CIDRNetwork) (r : Route) : Prop :=
  (∃ nextHop meshIfIndex, r = meshRoute destination nextHop meshIfIndex) ∧
    destination.1.isMulticast = some false ∧ destination.1.isLinkLocal = some false

/-- A route through `tayga` under its destination. -/
def IsTaygaEntry (k : CIDRNetwork × String) (r : Route) : Prop :=
  ∃ taygaIfIndex, r = taygaRoute k.1 taygaIfIndex

/-- The databases of a synchronisation. -/
structure IsSyncDatabase (unicastRouteDb : NlUnicastRoutes) (linkRouteDb : NlLinkRoutes) :
    Prop where
  mesh : ∀ d r, unicastRouteDb.lookup d = some r → IsMeshEntry d r
  tayga : ∀ k r, linkRouteDb.lookup k = some r → IsTaygaEntry k r

/-- The unicast database of `doSyncRoutes` is one the socket can be given. -/
theorem IsSyncDatabase.unicastDatabase {udb : NlUnicastRoutes} {ldb : NlLinkRoutes}
    (h : IsSyncDatabase udb ldb) : NetlinkSocket.UnicastDatabase syncProtocolId udb := by
  intro d r hr
  obtain ⟨⟨_, _, rfl⟩, hmulti, hlocal⟩ := h.mesh d r hr
  exact ⟨rfl, rfl, hmulti, hlocal⟩

/-- The order of iteration does not matter. -/
theorem IsSyncDatabase.reorder {udb : NlUnicastRoutes} {ldb : NlLinkRoutes}
    (h : IsSyncDatabase udb ldb) (x : SyncInput) :
    IsSyncDatabase (x.unicastOrder.reorder udb) (x.linkOrder.reorder ldb) := by
  constructor
  · intro d r hr
    rw [IterationOrder.lookup_reorder] at hr
    exact h.mesh d r hr
  · intro k r hr
    rw [IterationOrder.lookup_reorder] at hr
    exact h.tayga k r hr

namespace SyncInput

variable (x : SyncInput)

private theorem emplaceRoutes_spec (mpath : MeshPath) {db : NlUnicastRoutes}
    (h : ∀ d r, db.lookup d = some r → IsMeshEntry d r ∧ d.2 = 128) :
    ∀ d r, (x.emplaceRoutes mpath db).lookup d = some r → IsMeshEntry d r ∧ d.2 = 128 := by
  unfold emplaceRoutes
  refine AList.forall_lookup_emplace (P := fun d r => IsMeshEntry d r ∧ d.2 = 128) ?_
    ⟨⟨⟨_, _, rfl⟩, rfl, rfl⟩, rfl⟩
  split
  · exact AList.forall_lookup_emplace (P := fun d r => IsMeshEntry d r ∧ d.2 = 128) h
      ⟨⟨⟨_, _, rfl⟩, rfl, rfl⟩, rfl⟩
  · exact h

/-- The comparison of gates enters no route. -/
@[simp] theorem compareGate_unicastRouteDb (mpath : MeshPath) (scan : Scan) :
    (compareGate mpath scan).unicastRouteDb = scan.unicastRouteDb := by
  obtain ⟨db, current, best, alive⟩ := scan
  cases current <;> cases best <;> simp only [compareGate]
  all_goals repeat' split
  all_goals rfl

/-- The loop enters routes to stations, and nothing else. -/
theorem scanPaths_spec (currentGate : Option Gate) :
    ∀ d r, (x.scanPaths currentGate).unicastRouteDb.lookup d = some r →
      IsMeshEntry d r ∧ d.2 = 128 := by
  refine List.foldlRecOn (motive := fun scan : Scan => ∀ d r,
    scan.unicastRouteDb.lookup d = some r → IsMeshEntry d r ∧ d.2 = 128) _ _ (by simp)
    fun scan h e _ => ?_
  unfold visitPath
  dsimp only
  split
  · exact h
  · split
    · rw [compareGate_unicastRouteDb]
      exact x.emplaceRoutes_spec e.2 h
    · exact x.emplaceRoutes_spec e.2 h

private theorem linkRouteDb_spec (nodeAddr : MacAddress) :
    ∀ k r, (x.linkRouteDb nodeAddr).lookup k = some r →
      IsTaygaEntry k r ∧ k.1 ≠ translatorNetwork := by
  unfold linkRouteDb
  split
  · refine AList.forall_lookup_emplace (P := fun k r => IsTaygaEntry k r ∧ k.1 ≠ translatorNetwork)
      (AList.forall_lookup_emplace (P := fun k r => IsTaygaEntry k r ∧ k.1 ≠ translatorNetwork)
        (by simp) ⟨⟨_, rfl⟩, ?_⟩) ⟨⟨_, rfl⟩, ?_⟩
    · intro h
      have hlength : (128 : UInt8) = 96 := congrArg Prod.snd h
      exact absurd hlength (by decide)
    · decide
  · simp

/-- No path leads to the translator. -/
theorem scanPaths_lookup_translator (currentGate : Option Gate) :
    (x.scanPaths currentGate).unicastRouteDb.lookup translatorNetwork = none := by
  cases h : (x.scanPaths currentGate).unicastRouteDb.lookup translatorNetwork with
  | none => rfl
  | some r => exact absurd (x.scanPaths_spec currentGate _ r h).2 (by decide)

/-- Nor does a link route of the first database. -/
theorem linkRouteDb_lookup_translator (nodeAddr : MacAddress) (ifName : String) :
    (x.linkRouteDb nodeAddr).lookup (translatorNetwork, ifName) = none := by
  cases h : (x.linkRouteDb nodeAddr).lookup (translatorNetwork, ifName) with
  | none => rfl
  | some r => exact absurd rfl (x.linkRouteDb_spec nodeAddr _ r h).2

/-- The databases of the first synchronisation. -/
theorem isSyncDatabase_first (currentGate : Option Gate) (nodeAddr : MacAddress) :
    IsSyncDatabase (x.scanPaths currentGate).unicastRouteDb (x.linkRouteDb nodeAddr) :=
  ⟨fun d r h => (x.scanPaths_spec currentGate d r h).1,
    fun k r h => (x.linkRouteDb_spec nodeAddr k r h).1⟩

variable {x}

/-- The databases of the second synchronisation. The translator is in one of them at most, by the
gate status. -/
theorem withTranslator_spec {currentGate : Option Gate} {udb : NlUnicastRoutes}
    {ldb : NlLinkRoutes} (hdb : IsSyncDatabase udb ldb)
    (hudb : udb.lookup translatorNetwork = none)
    (hldb : ∀ ifName, ldb.lookup (translatorNetwork, ifName) = none)
    {dbs : NlUnicastRoutes × NlLinkRoutes}
    (h : x.withTranslator currentGate udb ldb = some dbs) :
    IsSyncDatabase dbs.1 dbs.2 ∧ if x.isGate then dbs.1.lookup translatorNetwork = none
      else ∀ ifName, dbs.2.lookup (translatorNetwork, ifName) = none := by
  unfold withTranslator at h
  cases hgate : x.isGate with
  | true =>
    rw [if_pos rfl]
    simp only [hgate, if_true] at h
    split at h <;> cases h
    · exact ⟨⟨hdb.mesh, AList.forall_lookup_emplace hdb.tayga ⟨_, rfl⟩⟩, hudb⟩
    · exact ⟨hdb, hudb⟩
  | false =>
    rw [if_neg (by decide)]
    simp only [hgate, Bool.false_eq_true, if_false] at h
    split at h
    · cases currentGate with
      | none =>
        cases h
        exact ⟨hdb, hldb⟩
      | some gate =>
        obtain ⟨mpath, -, rfl⟩ := Option.map_eq_some_iff.mp h
        refine ⟨⟨AList.forall_lookup_emplace hdb.mesh ⟨⟨_, _, rfl⟩, rfl, rfl⟩,
          AList.forall_lookup_emplace hdb.tayga ⟨_, rfl⟩⟩, fun ifName => ?_⟩
        rw [AList.lookup_emplace_of_ne
          fun h => absurd (congrArg Prod.fst h : translatorNetwork = defaultV4Prefix) (by decide)]
        exact hldb ifName
    · cases h
      exact ⟨hdb, hldb⟩

end SyncInput

/-- `SyncRoutes80211s`, with the netlink socket. -/
structure SyncRoutes80211s (κ : Type*) where
  nodeAddr : MacAddress
  currentGate : Option Gate := none
  isGateBeforeRouteSync : Bool := false
  syncRoutesTimer : AsyncTimeout := none
  netlinkSocket : NetlinkSocket κ

namespace SyncRoutes80211s

variable {κ : Type*} [DecidableEq κ] (nl : NlSock κ)

/-- A call on the netlink socket, and `get` of its future, which throws what the call throws. -/
def onSocket (a : Action (NetlinkSocket κ) NlException) :
    Action (SyncRoutes80211s κ) SyncException := fun s =>
  ({ s with netlinkSocket := (a s.netlinkSocket).1 }, (a s.netlinkSocket).2.map .netlink)

omit [DecidableEq κ] in
/-- An exception of the socket is an exception of the call. -/
theorem onSocket_eq_none {a : Action (NetlinkSocket κ) NlException} {s : SyncRoutes80211s κ} :
    (onSocket a s).2 = none ↔ (a s.netlinkSocket).2 = none :=
  Option.map_eq_none_iff

omit [DecidableEq κ] in
/-- What an action preserves of the socket, it preserves of the state around it. -/
theorem preserves_onSocket {J : NetlinkSocket κ → Prop} {a : Action (NetlinkSocket κ) NlException}
    (h : Preserves J a) : Preserves (fun s => J s.netlinkSocket) (onSocket a) :=
  fun s hJ => h s.netlinkSocket hJ

/-- `syncUnicastRoutes` and then `syncLinkRoutes`. -/
def syncBoth (x : SyncInput) (unicastRouteDb : NlUnicastRoutes) (linkRouteDb : NlLinkRoutes) :
    Action (SyncRoutes80211s κ) SyncException :=
  andThen
    (onSocket (NetlinkSocket.doSyncUnicastRoutes nl x.deleteOrder syncProtocolId
      (x.unicastOrder.reorder unicastRouteDb)))
    (onSocket (NetlinkSocket.doSyncLinkRoutes nl syncProtocolId (x.linkOrder.reorder linkRouteDb)))

/-- A synchronisation changes the socket and nothing else. -/
theorem syncBoth_fst (x : SyncInput) (udb : NlUnicastRoutes) (ldb : NlLinkRoutes)
    (s : SyncRoutes80211s κ) :
    ∃ socket, (syncBoth nl x udb ldb s).1 = { s with netlinkSocket := socket } := by
  have hsocket (a : Action (NetlinkSocket κ) NlException) :
      Preserves (fun t => ∃ socket, t = { s with netlinkSocket := socket }) (onSocket a) := by
    rintro _ ⟨socket, rfl⟩
    exact ⟨_, rfl⟩
  exact Preserves.andThen (hsocket _) (hsocket _) s ⟨_, rfl⟩

/-- The second synchronisation. -/
def syncTranslator (x : SyncInput) (unicastRouteDb : NlUnicastRoutes)
    (linkRouteDb : NlLinkRoutes) : Action (SyncRoutes80211s κ) SyncException := fun s =>
  match x.withTranslator s.currentGate unicastRouteDb linkRouteDb with
  | none => (s, some .outOfRange)
  | some dbs =>
    andThen (modify fun s => { s with isGateBeforeRouteSync := x.isGate })
      (syncBoth nl x dbs.1 dbs.2) s

/-- `doSyncRoutes`. The synchronisation of the interface's addresses is not waited for. -/
def doSyncRoutes (x : SyncInput) : Action (SyncRoutes80211s κ) SyncException := fun s =>
  let scan := x.scanPaths s.currentGate
  let linkRouteDb := x.linkRouteDb s.nodeAddr
  andThen (modify fun s => { s with currentGate := scan.chooseGate })
    (andThen
      (if s.isGateBeforeRouteSync ≠ x.isGate then syncBoth nl x scan.unicastRouteDb linkRouteDb
        else modify id)
      (syncTranslator nl x scan.unicastRouteDb linkRouteDb)) s

/-- There are two synchronisations if the gate status has changed, and else one. -/
theorem doSyncRoutes_eq (x : SyncInput) (s : SyncRoutes80211s κ) :
    doSyncRoutes nl x s =
      (if s.isGateBeforeRouteSync = x.isGate then
          syncTranslator nl x (x.scanPaths s.currentGate).unicastRouteDb (x.linkRouteDb s.nodeAddr)
        else
          andThen
            (syncBoth nl x (x.scanPaths s.currentGate).unicastRouteDb (x.linkRouteDb s.nodeAddr))
            (syncTranslator nl x (x.scanPaths s.currentGate).unicastRouteDb
              (x.linkRouteDb s.nodeAddr)))
        { s with currentGate := (x.scanPaths s.currentGate).chooseGate } := by
  simp only [doSyncRoutes, andThen_modify]
  by_cases hsame : s.isGateBeforeRouteSync = x.isGate
  · rw [if_neg (not_not.mpr hsame), if_pos hsame, andThen_modify]
    rfl
  · rw [if_pos hsame, if_neg hsame]

/-- The callback of `syncRoutesTimer_`. It is `noexcept`: an exception ends the process. -/
def syncRoutesCallback (x : SyncInput) : Action (SyncRoutes80211s κ) SyncException :=
  andThen (modify fun s => { s with syncRoutesTimer := none })
    (andThen (doSyncRoutes nl x)
      (modify fun s => { s with
        syncRoutesTimer := .scheduleTimeout x.now kSyncRoutesInterval }))

/-- One callback after another, until an exception leaves one. -/
def syncLoop (xs : List SyncInput) : Action (SyncRoutes80211s κ) SyncException :=
  forEach (syncRoutesCallback nl) xs

/-- A node whose kernel has no routes. -/
def freshNode : SyncRoutes80211s κ where
  nodeAddr := 2
  netlinkSocket :=
    { kernel :=
        { routes := fun _ _ => none
          labels := fun _ _ => none } }

/-- A call of `doSyncRoutes` at a node with a gate in reach. -/
def besideGate (isGate : Bool) : SyncInput where
  meshIfIndex := 2
  isGate
  meshPaths := AList.singleton 1 { dst := 1, nextHop := 1, expTime := 1, isGate := true }
  taygaIfIndex := 3
  taygaIfUp := true
  entryNow _ := 0
  now := 0
  deleteOrder := .given _
  unicastOrder := .given _
  linkOrder := .given _

end SyncRoutes80211s

end Fbmeshd
