import Fbmeshd.Rnl.SyncInvariants
import Fbmeshd.Routing.SyncRoutes

/-!
# The routes to the translator

The translator is reached through a gate, by a unicast route, or through `tayga`, by a link route.
Which of the two the kernel holds is followed here through the requests of the synchronisations,
as far as the caches tell: a route to the translator that the kernel holds is in the cache from
which the next synchronisation deletes it.
-/

namespace Fbmeshd

open Fallible NetlinkSocket

/-- A unicast route to the translator. -/
def ViaGate (r : Route) : Prop := r.dst = translatorNetwork ∧ r.scope ≠ RT_SCOPE_LINK

/-- A link route to the translator. -/
def ViaTayga (r : Route) : Prop := r.dst = translatorNetwork ∧ r.scope = RT_SCOPE_LINK

variable {κ : Type*} [DecidableEq κ] {nl : NlSock κ} {k₀ : Kernel κ} {s : NetlinkSocket κ}
  {P : Route → Prop}

/-- The kernel holds a route `P` of the protocol that is synchronised. -/
def Kernel.Holds (P : Route → Prop) (k : Kernel κ) : Prop :=
  ∃ c r, k.routes syncProtocolId c = some r ∧ P r

/-- The kernel after the attempts of a log, of which it accepted some. -/
def Kernel.after (key : Route → κ) (k : Kernel κ) (log : List Attempt) : Kernel κ :=
  log.foldl (fun k x => if x.Accepted then k.accept key x.request else k) k

private theorem Kernel.after_concat (key : Route → κ) (k : Kernel κ) (log : List Attempt)
    (x : Attempt) :
    k.after key (log ++ [x]) =
      if x.Accepted then (k.after key log).accept key x.request else k.after key log := by
  simp only [after, List.foldl_append, List.foldl_cons, List.foldl_nil]

private theorem Kernel.routes_setRoute (k : Kernel κ) (protocol p : UInt8) (cell c : κ)
    (r : Option Route) :
    (k.setRoute protocol cell r).routes p c =
      if p = protocol ∧ c = cell then r else k.routes p c := by
  by_cases hp : p = protocol
  · subst hp
    simp [setRoute, Function.update_apply]
  · simp [setRoute, hp]

/-- A route that the kernel holds after a request to add one is the new one or an old one. -/
theorem routes_request_add {fail : ResultCode → NlException} {r r' : Route} {p : UInt8} {c : κ}
    (h : (request nl fail (.addRoute r) s).1.kernel.routes p c = some r') :
    c = nl.key r ∧ r' = r ∨ s.kernel.routes p c = some r' := by
  rw [request_eq] at h
  dsimp only at h
  split at h
  · rw [Kernel.accept, Kernel.routes_setRoute] at h
    split at h
    next hc => exact .inl ⟨hc.2, (Option.some.inj h).symm⟩
    next => exact .inr h
  · exact .inr h

private theorem routes_request_delete {fail : ResultCode → NlException} {r r' : Route} {p : UInt8}
    {c : κ}
    (h : (request nl fail (.deleteRoute r) s).1.kernel.routes p c = some r') :
    s.kernel.routes p c = some r' := by
  rw [request_eq] at h
  dsimp only at h
  split at h
  · rw [Kernel.accept, Kernel.routes_setRoute] at h
    split at h
    next => simp at h
    next => exact h
  · exact h

private theorem holds_request_add {fail : ResultCode → NlException} {r : Route} (hr : ¬ P r)
    (h : (request nl fail (.addRoute r) s).1.kernel.Holds P) : s.kernel.Holds P := by
  obtain ⟨c, r', hc, hP⟩ := h
  rcases routes_request_add hc with ⟨-, rfl⟩ | hc
  · exact absurd hP hr
  · exact ⟨c, r', hc, hP⟩

private theorem holds_request_delete {fail : ResultCode → NlException} {r : Route}
    (h : (request nl fail (.deleteRoute r) s).1.kernel.Holds P) : s.kernel.Holds P := by
  obtain ⟨c, r', hc, hP⟩ := h
  exact ⟨c, r', routes_request_delete hc, hP⟩

/-!
## One of the two routes is missing
-/

/-- The log accounts for the kernel, and at no moment the kernel held both routes. -/
structure OneTranslator (nl : NlSock κ) (k₀ : Kernel κ) (s : NetlinkSocket κ) : Prop where
  kernel : s.kernel = k₀.after nl.key s.attempts
  moments : ∀ log, log <+: s.attempts →
    ¬ ((k₀.after nl.key log).Holds ViaGate ∧ (k₀.after nl.key log).Holds ViaTayga)

/-- At present the kernel does not hold a route `P`. -/
structure Lacks (P : Route → Prop) (nl : NlSock κ) (k₀ : Kernel κ) (s : NetlinkSocket κ) : Prop
    extends OneTranslator nl k₀ s where
  absent : ¬ s.kernel.Holds P

private theorem Lacks.request (hP : P = ViaGate ∨ P = ViaTayga) (h : Lacks P nl k₀ s)
    {fail : ResultCode → NlException} {req : RouteRequest}
    (habsent : ¬ (request nl fail req s).1.kernel.Holds P) :
    Lacks P nl k₀ (request nl fail req s).1 := by
  have hkernel : (NetlinkSocket.request nl fail req s).1.kernel =
      k₀.after nl.key (NetlinkSocket.request nl fail req s).1.attempts := by
    rw [request_eq, Kernel.after_concat, ← h.kernel]
    rfl
  refine ⟨⟨hkernel, fun log hlog => ?_⟩, habsent⟩
  rw [request_eq] at hlog
  rcases List.prefix_concat_iff.mp hlog with rfl | hlog
  · rw [hkernel, request_eq] at habsent
    rcases hP with rfl | rfl
    · exact fun hboth => habsent hboth.1
    · exact fun hboth => habsent hboth.2
  · exact h.moments log hlog

/-- The requests for other routes keep the kernel without such a route. -/
theorem requestInvariant_lacks (hP : P = ViaGate ∨ P = ViaTayga) :
    RequestInvariant nl (fun r => ¬ P r) (Lacks P nl k₀) where
  add _ _ hr _ h := h.request hP fun hholds => h.absent (holds_request_add hr hholds)
  delete _ _ _ h := h.request hP fun hholds => h.absent (holds_request_delete hholds)

/-- So does a unicast synchronisation of other routes. -/
theorem unicastInvariant_lacks (hP : P = ViaGate ∨ P = ViaTayga) :
    UnicastInvariant nl (fun r => ¬ P r) (Lacks P nl k₀) where
  toRequestInvariant := requestInvariant_lacks hP
  erase _ _ _ h := ⟨⟨h.kernel, h.moments⟩, h.absent⟩
  emplace _ _ _ h := ⟨⟨h.kernel, h.moments⟩, h.absent⟩

/-!
## What the caches tell

From here on the kernel accepts what it is sent.
-/

variable (haccepts : nl.AcceptsAll)

include haccepts in
/-- A request is accepted, or it is not sent and throws. -/
theorem request_cases (fail : ResultCode → NlException) (req : RouteRequest)
    (s : NetlinkSocket κ) :
    (∃ log, request nl fail req s =
        ({ s with kernel := s.kernel.accept nl.key req, attempts := log }, none)) ∨
      ∃ log ex, request nl fail req s = ({ s with attempts := log }, some ex) := by
  by_cases hencode : nl.encode req = .SUCCESS
  · have haccepted : (s.attempt nl req).outcome = .answered 0 := by
      simp [attempt, hencode, (haccepts _).1, (haccepts _).2]
    refine .inl ⟨s.attempts ++ [s.attempt nl req], ?_⟩
    simp [request, Attempt.status, Attempt.Accepted, haccepted]
  · have hnotSent : (s.attempt nl req).outcome = .notSent (nl.encode req) := by
      simp only [attempt]
    refine .inr ⟨s.attempts ++ [s.attempt nl req], fail (nl.encode req), ?_⟩
    simp [request, Attempt.status, Attempt.Accepted, hnotSent, hencode]

/-- The unicast cache has the kernel's route through a gate, and its routes are under their own
destinations. -/
structure GateTracked (nl : NlSock κ) (s : NetlinkSocket κ) : Prop where
  keyed : ∀ d r, (s.unicastRoutesCache syncProtocolId).lookup d = some r →
    r.dst = d ∧ r.protocolId = syncProtocolId
  cover : ∀ c r, s.kernel.routes syncProtocolId c = some r → ViaGate r →
    c = nl.key r ∧ (s.unicastRoutesCache syncProtocolId).lookup translatorNetwork = some r

/-- The link cache has a route to the translator if the kernel has one through `tayga`, and all of
them are under one key. -/
structure TaygaTracked (nl : NlSock κ) (s : NetlinkSocket κ) : Prop where
  keyed : ∀ ifName r, (s.linkRoutesCache syncProtocolId).lookup (translatorNetwork, ifName) =
    some r → IsTaygaEntry (translatorNetwork, ifName) r
  cell : ∀ c r, s.kernel.routes syncProtocolId c = some r → ViaTayga r →
    c = nl.key (taygaRoute translatorNetwork 0)
  cover : s.kernel.Holds ViaTayga →
    ∃ ifName, ((s.linkRoutesCache syncProtocolId).lookup (translatorNetwork, ifName)).isSome

namespace GateTracked

omit [DecidableEq κ] in
/-- Without a cached route to the translator the kernel has none through a gate. -/
theorem not_holds (h : GateTracked nl s)
    (huncached : (s.unicastRoutesCache syncProtocolId).lookup translatorNetwork = none) :
    ¬ s.kernel.Holds ViaGate := by
  rintro ⟨c, r, hc, hgate⟩
  have hcached := (h.cover c r hc hgate).2
  simp [huncached] at hcached

/-- Requests that add no route through a gate. -/
theorem requestInvariant : RequestInvariant nl (fun r => ¬ ViaGate r) (GateTracked nl) where
  add fail r hr s h := by
    refine ⟨by rw [request_eq]; exact h.keyed, fun c r' hc hgate => ?_⟩
    rcases routes_request_add hc with ⟨-, rfl⟩ | hc
    · exact absurd hgate hr
    · rw [request_eq]
      exact h.cover c r' hc hgate
  delete fail r s h := by
    refine ⟨by rw [request_eq]; exact h.keyed, fun c r' hc hgate => ?_⟩
    rw [request_eq]
    exact h.cover c r' (routes_request_delete hc) hgate

/-- After the cached route to the translator was deleted, the kernel has none through a gate. -/
theorem not_holds_of_deleted (h : GateTracked nl s) {old : Route}
    (hold : (s.unicastRoutesCache syncProtocolId).lookup translatorNetwork = some old) :
    ¬ (s.kernel.accept nl.key (.deleteRoute old)).Holds ViaGate := by
  rintro ⟨c, r, hc, hgate⟩
  rw [Kernel.accept, Kernel.routes_setRoute] at hc
  split at hc
  next => simp at hc
  next hne =>
    obtain ⟨hkey, hcached⟩ := h.cover c r hc hgate
    obtain rfl : old = r := Option.some.inj (hold.symm.trans hcached)
    exact hne ⟨(h.keyed _ _ hold).2.symm, hkey⟩

omit [DecidableEq κ] in
/-- A cache entry may be erased once the kernel does not hold the route. -/
theorem eraseUnicast (h : GateTracked nl s) (protocol : UInt8) {dest : CIDRNetwork}
    (hfree : dest = translatorNetwork → ¬ s.kernel.Holds ViaGate) :
    GateTracked nl (eraseUnicast protocol dest s) := by
  refine ⟨forall_lookup_eraseUnicast h.keyed _ _, fun c r hc hgate => ?_⟩
  obtain ⟨hkey, hcached⟩ := h.cover c r hc hgate
  rw [lookup_eraseUnicast, if_neg fun heq => hfree heq.2.symm ⟨c, r, hc, hgate⟩]
  exact ⟨hkey, hcached⟩

include haccepts in
private theorem removeUnicast (h : GateTracked nl s) {r : Route}
    (hr : (s.unicastRoutesCache syncProtocolId).lookup r.dst = some r) :
    GateTracked nl (removeUnicast nl r s).1 := by
  unfold NetlinkSocket.removeUnicast
  have hdelete := requestInvariant.delete (.failedToDelete r.dst) r s h
  rcases request_cases haccepts (.failedToDelete r.dst) (.deleteRoute r) s with
    ⟨log, heq⟩ | ⟨log, ex, heq⟩
  · rw [andThen_of_none (by rw [heq]), modify_apply]
    rw [heq] at hdelete ⊢
    refine hdelete.eraseUnicast _ fun hdst => ?_
    rw [hdst] at hr
    exact h.not_holds_of_deleted hr
  · rw [andThen_of_some (by rw [heq])]
    exact hdelete

include haccepts in
/-- The cache entry may be replaced once the kernel does not hold the old route. -/
theorem replaceUnicast (h : GateTracked nl s) {r : Route}
    (hprotocol : r.protocolId = syncProtocolId)
    (hfree : r.dst = translatorNetwork → ¬ s.kernel.Holds ViaGate) :
    GateTracked nl (replaceUnicast nl r s).1 := by
  have herased := h.eraseUnicast r.protocolId hfree
  unfold NetlinkSocket.replaceUnicast
  rw [andThen_modify]
  rcases request_cases haccepts (.couldNotAdd r) (.addRoute r)
    (NetlinkSocket.eraseUnicast r.protocolId r.dst s) with ⟨log, heq⟩ | ⟨log, ex, heq⟩
  · rw [andThen_of_none (by rw [heq]), modify_apply, heq]
    refine ⟨forall_lookup_emplaceUnicast herased.keyed ⟨rfl, hprotocol⟩, fun c r' hc hgate => ?_⟩
    change (Kernel.setRoute _ r.protocolId (nl.key r) (some r)).routes syncProtocolId c = some r'
      at hc
    rw [Kernel.routes_setRoute] at hc
    rw [lookup_emplaceUnicast]
    split at hc
    next hnew =>
      cases hc
      exact ⟨hnew.2, if_pos ⟨hprotocol.symm, hgate.1.symm⟩⟩
    next =>
      rw [if_neg fun heq => hfree heq.2.symm ⟨c, r', hc, hgate⟩]
      exact herased.cover c r' hc hgate
  · rw [andThen_of_some (by rw [heq]), heq]
    exact ⟨herased.keyed, herased.cover⟩

include haccepts in
private theorem doAddUpdateUnicastRoute {r : Route} (hprotocol : r.protocolId = syncProtocolId) :
    Preserves (GateTracked nl) (doAddUpdateUnicastRoute nl r) := by
  intro s h
  have hprotocol' : r.withDefaultPriority.protocolId = syncProtocolId := by simp [hprotocol]
  obtain ⟨_, -, heq⟩ | ⟨-, ⟨-, heq⟩ | ⟨hnone, heq⟩ | ⟨old, hold, heq⟩⟩ :=
    doAddUpdateUnicastRoute_cases nl r s <;> rw [heq]
  · exact h
  · exact h
  · refine h.replaceUnicast haccepts hprotocol' fun hdst => h.not_holds ?_
    rw [Route.withDefaultPriority_dst] at hdst
    rw [hdst, hprotocol] at hnone
    exact hnone.resolve_right (by decide)
  · rw [hprotocol] at hold
    have hdelete := requestInvariant.delete (.failedToDeleteOld old) old s h
    rcases request_cases haccepts (.failedToDeleteOld old) (.deleteRoute old) s with
      ⟨log, heq⟩ | ⟨log, ex, heq⟩
    · rw [andThen_of_none (by rw [heq])]
      rw [heq] at hdelete ⊢
      refine hdelete.replaceUnicast haccepts hprotocol' fun hdst => ?_
      rw [Route.withDefaultPriority_dst] at hdst
      rw [hdst] at hold
      exact h.not_holds_of_deleted hold
    · rw [andThen_of_some (by rw [heq])]
      exact hdelete

include haccepts in
private theorem deleteCached (dest : CIDRNetwork) :
    Preserves (GateTracked nl) (deleteCached nl syncProtocolId dest) := by
  intro s h
  unfold NetlinkSocket.deleteCached
  cases hr : (s.unicastRoutesCache syncProtocolId).lookup dest with
  | none => exact h
  | some r =>
    obtain ⟨_, -, heq⟩ | ⟨-, ⟨-, heq⟩ | heq⟩ := doDeleteUnicastRoute_cases nl r s <;>
      dsimp only <;> rw [heq]
    · exact h
    · exact h
    · refine h.removeUnicast haccepts ?_
      rw [(h.keyed _ _ hr).1]
      exact hr

include haccepts in
/-- `doSyncUnicastRoutes` keeps the cache in step, whether or not it throws. -/
theorem doSyncUnicastRoutes {order : IterationOrder CIDRNetwork} {db : NlUnicastRoutes}
    (hdb : UnicastDatabase syncProtocolId db) :
    Preserves (GateTracked nl) (doSyncUnicastRoutes nl order syncProtocolId db) := fun s =>
  Preserves.andThen (.forEach fun dest _ => deleteCached haccepts dest)
    (.forEach fun _ he => doAddUpdateUnicastRoute haccepts
      (hdb _ _ (AList.mem_lookup_iff.mpr he)).1) s

private theorem unicastInvariant_uncached :
    UnicastInvariant nl (fun r => r.dst ≠ translatorNetwork) fun s =>
      (s.unicastRoutesCache syncProtocolId).lookup translatorNetwork = none where
  add _ _ _ s h := by
    rw [request_eq]
    exact h
  delete _ _ s h := by
    rw [request_eq]
    exact h
  erase _ _ s h := by rw [lookup_eraseUnicast, h, ite_self]
  emplace r s hr h := by
    rw [lookup_emplaceUnicast, if_neg fun heq => hr heq.2.symm]
    exact h

/-- The body of the first loop of `doSyncUnicastRoutes` erases the prefix, unless it throws. -/
theorem deleteCached_uncached (h : GateTracked nl s)
    (hdone : (NetlinkSocket.deleteCached nl syncProtocolId translatorNetwork s).2 = none) :
    ((NetlinkSocket.deleteCached nl syncProtocolId translatorNetwork s).1.unicastRoutesCache
      syncProtocolId).lookup translatorNetwork = none := by
  unfold NetlinkSocket.deleteCached at hdone ⊢
  cases hr : (s.unicastRoutesCache syncProtocolId).lookup translatorNetwork with
  | none => exact hr
  | some r =>
    obtain ⟨hdst, hprotocol⟩ := h.keyed _ _ hr
    rw [hr] at hdone
    dsimp only at hdone ⊢
    obtain ⟨_, -, heq⟩ | ⟨-, ⟨hnone, -⟩ | heq⟩ := doDeleteUnicastRoute_cases nl r s
    · rw [heq] at hdone
      simp at hdone
    · rw [hdst, hprotocol, hr] at hnone
      simp at hnone
    · rw [heq] at hdone ⊢
      unfold NetlinkSocket.removeUnicast at hdone ⊢
      rw [(andThen_eq_none hdone).2, modify_apply, lookup_eraseUnicast, hdst, hprotocol]
      exact if_pos ⟨rfl, rfl⟩

include haccepts in
/-- Unless it throws, `doSyncUnicastRoutes` with a database without the translator leaves it out of
the cache. -/
theorem doSyncUnicastRoutes_uncached (h : GateTracked nl s) {order : IterationOrder CIDRNetwork}
    {db : NlUnicastRoutes} (hdb : UnicastDatabase syncProtocolId db)
    (hlacks : db.lookup translatorNetwork = none)
    (hdone : (NetlinkSocket.doSyncUnicastRoutes nl order syncProtocolId db s).2 = none) :
    ((NetlinkSocket.doSyncUnicastRoutes nl order syncProtocolId db s).1.unicastRoutesCache
      syncProtocolId).lookup translatorNetwork = none := by
  unfold NetlinkSocket.doSyncUnicastRoutes at hdone ⊢
  dsimp only at hdone ⊢
  obtain ⟨hfirst, heq⟩ := andThen_eq_none hdone
  rw [heq]
  -- the prefix is not in the cache, or its turn is still to come
  have hloop := forEach_of_none (Q := fun ks s => GateTracked nl s ∧
      ((s.unicastRoutesCache syncProtocolId).lookup translatorNetwork = none ∨
        translatorNetwork ∈ ks)) (fun dest ks s hQ hround => ?_) ⟨h, ?_⟩ hfirst
  · have huncached := hloop.2.resolve_right List.not_mem_nil
    refine Preserves.forEach (I := fun s : NetlinkSocket κ =>
      (s.unicastRoutesCache syncProtocolId).lookup translatorNetwork = none) (fun e he => ?_) _
      huncached
    obtain ⟨d, r⟩ := e
    have hlookup : db.lookup d = some r := AList.mem_lookup_iff.mpr he
    refine unicastInvariant_uncached.doAddUpdateUnicastRoute ?_
    rw [Route.withDefaultPriority_dst, (hdb _ _ hlookup).2.1]
    rintro rfl
    simp [hlacks] at hlookup
  · obtain ⟨htracked, huncached | hmem⟩ := hQ
    · exact ⟨deleteCached haccepts dest s htracked,
        .inl (unicastInvariant_uncached.deleteCached syncProtocolId dest s huncached)⟩
    · refine ⟨deleteCached haccepts dest s htracked, ?_⟩
      rcases List.mem_cons.mp hmem with rfl | hmem
      · exact .inl (htracked.deleteCached_uncached hround)
      · exact .inr hmem
  · by_cases hcached : (s.unicastRoutesCache syncProtocolId).lookup translatorNetwork = none
    · exact .inl hcached
    · exact .inr ((mem_visit_stale order _ db translatorNetwork).mpr
        ⟨Option.isSome_iff_ne_none.mpr hcached, hlacks⟩)

end GateTracked

/-- A kernel that is not told of a route `P` does not come to hold one. -/
theorem requestInvariant_not_holds :
    RequestInvariant nl (fun r => ¬ P r) fun s => ¬ s.kernel.Holds P where
  add _ _ hr _ h hholds := h (holds_request_add hr hholds)
  delete _ _ _ h hholds := h (holds_request_delete hholds)

/-- Routes through `tayga` to the translator are added under one key only. -/
theorem requestInvariant_cell (cell : κ) :
    RequestInvariant nl (fun r => ViaTayga r → nl.key r = cell) fun s =>
      ∀ c r, s.kernel.routes syncProtocolId c = some r → ViaTayga r → c = cell where
  add fail r hr s h c r' hc htayga := by
    rcases routes_request_add hc with ⟨hkey, rfl⟩ | hc
    · exact hkey.trans (hr htayga)
    · exact h c r' hc htayga
  delete fail r s h c r' hc := h c r' (routes_request_delete hc)

namespace TaygaTracked

omit [DecidableEq κ] in
/-- Without a cached link route to the translator the kernel has none through tayga. -/
theorem not_holds (h : TaygaTracked nl s) (huncached : ∀ ifName,
      (s.linkRoutesCache syncProtocolId).lookup (translatorNetwork, ifName) = none) :
    ¬ s.kernel.Holds ViaTayga := by
  intro hholds
  obtain ⟨ifName, hcached⟩ := h.cover hholds
  simp [huncached] at hcached

/-- The synchronisation of unicast routes keeps the link cache in step. -/
theorem unicastInvariant : UnicastInvariant nl (fun r => ¬ ViaTayga r) (TaygaTracked nl) where
  add fail r hr s h := by
    refine ⟨by rw [request_eq]; exact h.keyed,
      (requestInvariant_cell _).add fail r (fun htayga => absurd htayga hr) s h.cell,
      fun hholds => ?_⟩
    rw [request_eq]
    exact h.cover (holds_request_add hr hholds)
  delete fail r s h := by
    refine ⟨by rw [request_eq]; exact h.keyed, (requestInvariant_cell _).delete fail r s h.cell,
      fun hholds => ?_⟩
    rw [request_eq]
    exact h.cover (holds_request_delete hholds)
  erase _ _ _ h := ⟨h.keyed, h.cell, h.cover⟩
  emplace _ _ _ h := ⟨h.keyed, h.cell, h.cover⟩

section Key

-- The message that deletes a link route does not name the interface.
variable (htaygaKey : ∀ destination i j,
  nl.key (taygaRoute destination i) = nl.key (taygaRoute destination j))

include haccepts htaygaKey in
/-- The body of the first loop of `doSyncLinkRoutes`, at a cached route to the translator. -/
theorem deleteStaleLink_not_holds {cache : NlLinkRoutes} {ifName : String}
    (hcell : ∀ c r, s.kernel.routes syncProtocolId c = some r → ViaTayga r →
      c = nl.key (taygaRoute translatorNetwork 0))
    (hkeyed : ∀ r, cache.lookup (translatorNetwork, ifName) = some r →
      IsTaygaEntry (translatorNetwork, ifName) r)
    (hcached : (cache.lookup (translatorNetwork, ifName)).isSome)
    (hdone : (deleteStaleLink nl cache (translatorNetwork, ifName) s).2 = none) :
    ¬ (deleteStaleLink nl cache (translatorNetwork, ifName) s).1.kernel.Holds ViaTayga := by
  obtain ⟨r, hr⟩ := Option.isSome_iff_exists.mp hcached
  obtain ⟨i, rfl⟩ := hkeyed r hr
  unfold deleteStaleLink at hdone ⊢
  rw [hr] at hdone ⊢
  dsimp only at hdone ⊢
  rcases request_cases haccepts (.couldNotDelLink translatorNetwork ifName)
    (.deleteRoute (taygaRoute translatorNetwork i)) s with ⟨log, heq⟩ | ⟨log, ex, heq⟩
  · rw [heq]
    rintro ⟨c, r, hc, htayga⟩
    change (Kernel.setRoute _ syncProtocolId (nl.key (taygaRoute translatorNetwork i))
      none).routes syncProtocolId c = some r at hc
    rw [Kernel.routes_setRoute, htaygaKey translatorNetwork i 0] at hc
    split at hc
    next => simp at hc
    next hne => exact hne ⟨rfl, hcell c r hc htayga⟩
  · simp [heq] at hdone

variable {db : NlLinkRoutes} (hdb : ∀ k r, db.lookup k = some r → IsTaygaEntry k r)

include haccepts htaygaKey hdb in
/-- Unless it throws, `doSyncLinkRoutes` with a database without the translator leaves no route
through `tayga` to it. -/
theorem doSyncLinkRoutes_not_holds (h : TaygaTracked nl s)
    (hlacks : ∀ ifName, db.lookup (translatorNetwork, ifName) = none)
    (hdone : (doSyncLinkRoutes nl syncProtocolId db s).2 = none) :
    ¬ (doSyncLinkRoutes nl syncProtocolId db s).1.kernel.Holds ViaTayga := by
  unfold doSyncLinkRoutes at hdone ⊢
  dsimp only at hdone ⊢
  obtain ⟨hfirst, heq⟩ := andThen_eq_none hdone
  rw [heq] at hdone ⊢
  rw [(andThen_eq_none hdone).2, modify_apply]
  -- the kernel does not hold such a route, or the turn of one is still to come
  have hloop := forEach_of_none (Q := fun ks s' =>
      (∀ c r, s'.kernel.routes syncProtocolId c = some r → ViaTayga r →
        c = nl.key (taygaRoute translatorNetwork 0)) ∧
      (¬ s'.kernel.Holds ViaTayga ∨ ∃ ifName, (translatorNetwork, ifName) ∈ ks ∧
        ((s.linkRoutesCache syncProtocolId).lookup (translatorNetwork, ifName)).isSome))
    (fun k ks s' hQ hround => ?_) ⟨h.cell, ?_⟩ hfirst
  · have habsent := hloop.2.resolve_right (by simp)
    refine Preserves.forEach (I := fun s : NetlinkSocket κ => ¬ s.kernel.Holds ViaTayga)
      (fun e he => ?_) _ habsent
    refine requestInvariant_not_holds.addNewLink (fun htayga => ?_) _
    have hlookup : db.lookup e.1 = some e.2 := AList.mem_lookup_iff.mpr he
    obtain ⟨i, hentry⟩ := hdb _ _ hlookup
    rw [hentry] at htayga
    have hkey : e.1 = (translatorNetwork, e.1.2) := Prod.ext htayga.1 rfl
    rw [hkey, hlacks] at hlookup
    simp at hlookup
  · obtain ⟨hcell, hQ⟩ := hQ
    refine ⟨(requestInvariant_cell _).deleteStaleLink _ k s' hcell, ?_⟩
    rcases hQ with habsent | ⟨ifName, hmem, hcached⟩
    · exact .inl (requestInvariant_not_holds.deleteStaleLink _ k s' habsent)
    · rcases List.mem_cons.mp hmem with rfl | hmem
      · exact .inl (deleteStaleLink_not_holds haccepts htaygaKey hcell (h.keyed ifName) hcached
          hround)
      · exact .inr ⟨ifName, hmem, hcached⟩
  · by_cases hholds : s.kernel.Holds ViaTayga
    · obtain ⟨ifName, hcached⟩ := h.cover hholds
      refine .inr ⟨ifName, List.mem_filter.mpr ⟨?_, by simp [hlacks]⟩, hcached⟩
      exact AList.lookup_isSome.mp hcached
    · exact .inl hholds

include haccepts htaygaKey hdb in
/-- Unless it throws, `doSyncLinkRoutes` keeps the cache in step. -/
theorem doSyncLinkRoutes_tracked (h : TaygaTracked nl s)
    (hdone : (doSyncLinkRoutes nl syncProtocolId db s).2 = none) :
    TaygaTracked nl (doSyncLinkRoutes nl syncProtocolId db s).1 := by
  have hcache : (doSyncLinkRoutes nl syncProtocolId db s).1.linkRoutesCache syncProtocolId =
      db := by
    unfold doSyncLinkRoutes at hdone ⊢
    dsimp only at hdone ⊢
    obtain ⟨-, heq⟩ := andThen_eq_none hdone
    rw [heq] at hdone ⊢
    rw [(andThen_eq_none hdone).2]
    simp only [modify_apply, setLinkRoutes, Function.update_self]
  refine ⟨fun ifName r hr => hdb _ r (hcache ▸ hr), ?_, fun hholds => ?_⟩
  · refine (requestInvariant_cell _).doSyncLinkRoutes (fun k r hr htayga => ?_) (fun _ h => h) s
      h.cell
    obtain ⟨i, rfl⟩ := hdb k r hr
    rw [← htayga.1]
    exact htaygaKey _ _ _
  · rw [hcache]
    by_contra! hlacks
    refine h.doSyncLinkRoutes_not_holds haccepts htaygaKey hdb (fun ifName => ?_) hdone hholds
    simpa using hlacks ifName

end Key

end TaygaTracked

end Fbmeshd
