import Fbmeshd.Rnl.RouteSync

/-!
# Synchronisation of link routes

`doSyncLinkRoutes` compares the cache with the new database by keys alone. What it leaves in the
kernel is determined here for any key under which the kernel keeps a link route.
-/

namespace Fbmeshd

open Fallible

namespace NetlinkSocket

/-- The routes of a link database are those of one protocol, under the kernel's key. -/
def LinkDatabase (nl : NlSock (CIDRNetwork × String)) (protocol : UInt8) (db : NlLinkRoutes) :
    Prop :=
  ∀ k r, db.lookup k = some r → r.protocolId = protocol ∧ nl.key r = k

variable {nl : NlSock (CIDRNetwork × String)} {protocol : UInt8} {cache db : NlLinkRoutes}
  {s : NetlinkSocket (CIDRNetwork × String)} {n : ℕ}

/-- What the requests of `doSyncLinkRoutes` ask for: a key that is in both databases keeps the
cached route. -/
def requestedLink (cache db : NlLinkRoutes) (k : CIDRNetwork × String) : Option Route :=
  match cache.lookup k, db.lookup k with
  | some r, some _ => some r
  | _, v => v

/-- The kernel during the loops, with the keys for which a request is still to come. The requests
so far were accepted exactly if the kernel has what they asked for. -/
structure LinkLoop (protocol : UInt8) (cache db : NlLinkRoutes) (n : ℕ)
    (remaining : List (CIDRNetwork × String)) (s : NetlinkSocket (CIDRNetwork × String)) :
    Prop where
  nodup : remaining.Nodup
  changes : ∀ k ∈ remaining, cache.lookup k ≠ requestedLink cache db k
  untouched : ∀ k ∈ remaining, s.kernel.routes protocol k = cache.lookup k
  either : ∀ k, s.kernel.routes protocol k = requestedLink cache db k ∨
    s.kernel.routes protocol k = cache.lookup k
  trusted : Trusted Attempt.Accepted n s ↔
    ∀ k ∉ remaining, s.kernel.routes protocol k = requestedLink cache db k
  recorded : n ≤ s.attempts.length

/-- One request, for the first of the keys. -/
theorem LinkLoop.round {k : CIDRNetwork × String} {ks : List (CIDRNetwork × String)}
    (h : LinkLoop protocol cache db n (k :: ks) s) (fail : ResultCode → NlException)
    {req : RouteRequest} (haccept : (s.kernel.accept nl.key req).routes protocol =
      Function.update (s.kernel.routes protocol) k (requestedLink cache db k)) :
    LinkLoop protocol cache db n ks (request nl fail req s).1 := by
  obtain ⟨hnot, hnodup⟩ := List.nodup_cons.mp h.nodup
  have hroutes : (request nl fail req s).1.kernel.routes protocol =
      if (s.attempt nl req).Accepted then
        Function.update (s.kernel.routes protocol) k (requestedLink cache db k)
      else s.kernel.routes protocol := by
    rw [request_eq]
    split
    · exact haccept
    · rfl
  have hne : ∀ k' ≠ k, (request nl fail req s).1.kernel.routes protocol k' =
      s.kernel.routes protocol k' := by
    intro k' hk'
    rw [hroutes]
    split <;> simp [hk']
  have hk : (request nl fail req s).1.kernel.routes protocol k = requestedLink cache db k ↔
      (s.attempt nl req).Accepted := by
    rw [hroutes]
    split
    next hacc => simp [hacc]
    next hrej =>
      simp only [hrej, iff_false, h.untouched k List.mem_cons_self]
      exact h.changes k List.mem_cons_self
  refine ⟨hnodup, fun k' hk' => h.changes k' (List.mem_cons_of_mem _ hk'), fun k' hk' => ?_,
    fun k' => ?_, ?_, h.recorded.trans (by simp [request_eq])⟩
  · rw [hne k' fun heq => hnot (heq ▸ hk')]
    exact h.untouched k' (List.mem_cons_of_mem _ hk')
  · rw [hroutes]
    split
    · by_cases hkk : k' = k
      · simp [hkk]
      · rw [Function.update_of_ne hkk]
        exact h.either k'
    · exact h.either k'
  · rw [trusted_request fail req h.recorded, h.trusted, ← hk]
    constructor
    · rintro ⟨hold, hnew⟩ k' hk'
      by_cases hkk : k' = k
      · rw [hkk, hnew]
      · rw [hne k' hkk]
        exact hold k' (by simp [hkk, hk'])
    · intro hall
      refine ⟨fun k' hk' => ?_, hall k hnot⟩
      obtain ⟨hkk, hk'⟩ := not_or.mp fun h => hk' (List.mem_cons.mpr h)
      rw [← hne k' hkk]
      exact hall k' hk'

private theorem requestedLink_of_cache_none {k : CIDRNetwork × String}
    (hk : cache.lookup k = none) :
    requestedLink cache db k = db.lookup k := by
  simp [requestedLink, hk]

private theorem requestedLink_of_db_none {k : CIDRNetwork × String} (hk : db.lookup k = none) :
    requestedLink cache db k = none := by
  simp [requestedLink, hk]

/-- The keys that `doSyncLinkRoutes` deletes. -/
def staleLinks (cache db : NlLinkRoutes) : List (CIDRNetwork × String) :=
  cache.keys.filter fun k => (db.lookup k).isNone

/-- The keys of the entries that `doSyncLinkRoutes` adds. -/
def newLinks (cache : NlLinkRoutes) (es : List (Σ _ : CIDRNetwork × String, Route)) :
    List (CIDRNetwork × String) :=
  (es.filter fun e => (cache.lookup e.1).isNone).map Sigma.fst

/-- The stale routes are cached and not asked for. -/
theorem mem_staleLinks {k : CIDRNetwork × String} :
    k ∈ staleLinks cache db ↔ cache.lookup k ≠ none ∧ db.lookup k = none := by
  rw [staleLinks, List.mem_filter, Option.isNone_iff_eq_none, ← Option.isSome_iff_ne_none,
    AList.lookup_isSome]
  rfl

private theorem mem_newLinks {k : CIDRNetwork × String} :
    k ∈ newLinks cache db.entries ↔ cache.lookup k = none ∧ db.lookup k ≠ none := by
  simp only [newLinks, List.mem_map, List.mem_filter, Option.isNone_iff_eq_none]
  constructor
  · rintro ⟨e, ⟨he, hnone⟩, rfl⟩
    have hlookup : db.lookup e.1 = some e.2 := AList.mem_lookup_iff.mpr he
    exact ⟨hnone, by simp [hlookup]⟩
  · rintro ⟨hnone, hsome⟩
    obtain ⟨r, hr⟩ := Option.ne_none_iff_exists'.mp hsome
    exact ⟨⟨k, r⟩, ⟨AList.mem_lookup_iff.mp hr, hnone⟩, rfl⟩

/-- Before the first request. -/
theorem LinkLoop.start
    (hmirror : ∀ k, s.kernel.routes protocol k = cache.lookup k) :
    LinkLoop protocol cache db s.attempts.length
      (staleLinks cache db ++ newLinks cache db.entries) s := by
  have hmem : ∀ k, k ∈ staleLinks cache db ++ newLinks cache db.entries ↔
      cache.lookup k ≠ none ∧ db.lookup k = none ∨ cache.lookup k = none ∧ db.lookup k ≠ none := by
    intro k
    rw [List.mem_append, mem_staleLinks, mem_newLinks]
  refine ⟨?_, fun k hk => ?_, fun k _ => hmirror k, fun k => .inr (hmirror k), ?_, le_rfl⟩
  · refine List.Nodup.append (cache.keys_nodup.filter _) ?_ fun k hstale hnew => ?_
    · exact List.NodupKeys.sublist List.filter_sublist db.nodupKeys
    · exact (mem_newLinks.mp hnew).2 (mem_staleLinks.mp hstale).2
  · rcases (hmem k).mp hk with ⟨hcache, hdb⟩ | ⟨hcache, hdb⟩
    · rwa [requestedLink_of_db_none hdb]
    · rw [requestedLink_of_cache_none hcache, hcache]
      exact hdb.symm
  · have hnew : Trusted Attempt.Accepted s.attempts.length s := by simp [Trusted]
    refine iff_of_true hnew fun k hk => ?_
    rw [hmem] at hk
    rw [hmirror]
    cases hcache : cache.lookup k <;> cases hdb : db.lookup k <;>
      simp_all [requestedLink]

private theorem LinkLoop.deleteStaleLink (hcache : LinkDatabase nl protocol cache)
    {k : CIDRNetwork × String} {ks : List (CIDRNetwork × String)}
    (h : LinkLoop protocol cache db n (k :: ks) s) (hk : k ∈ staleLinks cache db) :
    LinkLoop protocol cache db n ks (deleteStaleLink nl cache k s).1 := by
  obtain ⟨hsome, hnone⟩ := mem_staleLinks.mp hk
  obtain ⟨r, hr⟩ := Option.ne_none_iff_exists'.mp hsome
  obtain ⟨hprotocol, hkey⟩ := hcache k r hr
  simp only [NetlinkSocket.deleteStaleLink, hr]
  refine h.round _ ?_
  simp [Kernel.accept, Kernel.setRoute, hprotocol, hkey, requestedLink_of_db_none hnone]

private theorem LinkLoop.addNewLink (hdb : LinkDatabase nl protocol db)
    {e : Σ _ : CIDRNetwork × String, Route} {es : List (Σ _ : CIDRNetwork × String, Route)}
    (h : LinkLoop protocol cache db n (newLinks cache (e :: es)) s)
    (he : db.lookup e.1 = some e.2) :
    LinkLoop protocol cache db n (newLinks cache es) (addNewLink nl cache e s).1 := by
  obtain ⟨hprotocol, hkey⟩ := hdb _ _ he
  cases hcached : cache.lookup e.1 with
  | some r =>
    simpa [NetlinkSocket.addNewLink, hcached, newLinks] using h
  | none =>
    simp only [newLinks, List.filter_cons, hcached, Option.isNone_none, if_true,
      List.map_cons] at h
    simp only [NetlinkSocket.addNewLink, hcached, Option.isSome_none, Bool.false_eq_true, if_false]
    refine h.round _ ?_
    simp [Kernel.accept, Kernel.setRoute, hprotocol, hkey, requestedLink_of_cache_none hcached, he]

/-- If link routes are synchronised without an error, what the requests asked for is in the kernel
exactly if they were all accepted. -/
theorem LinkLoop.doSyncLinkRoutes
    (hmirror : ∀ k, s.kernel.routes protocol k = (s.linkRoutesCache protocol).lookup k)
    (hcache : LinkDatabase nl protocol (s.linkRoutesCache protocol))
    (hdb : LinkDatabase nl protocol db) (hdone : (doSyncLinkRoutes nl protocol db s).2 = none) :
    LinkLoop protocol (s.linkRoutesCache protocol) db s.attempts.length []
      (doSyncLinkRoutes nl protocol db s).1 := by
  change (andThen (forEach _ (staleLinks _ db)) _ s).2 = none at hdone
  change LinkLoop _ _ _ _ _ (andThen (forEach _ (staleLinks _ db)) _ s).1
  obtain ⟨hdel, heq⟩ := andThen_eq_none hdone
  rw [heq] at hdone ⊢
  obtain ⟨hadd, heq'⟩ := andThen_eq_none hdone
  rw [heq']
  have hdeleted := forEach_of_none
    (Q := fun ks s' => (∀ k ∈ ks, k ∈ staleLinks (s.linkRoutesCache protocol) db) ∧
      LinkLoop protocol (s.linkRoutesCache protocol) db s.attempts.length
        (ks ++ newLinks (s.linkRoutesCache protocol) db.entries) s')
    (fun k ks s' h _ => ⟨fun k' hk' => h.1 k' (List.mem_cons_of_mem _ hk'),
      h.2.deleteStaleLink hcache (h.1 k List.mem_cons_self)⟩)
    ⟨fun _ hk => hk, LinkLoop.start hmirror⟩ hdel
  obtain ⟨-, hadded⟩ := forEach_of_none
    (Q := fun (es : List (Σ _ : CIDRNetwork × String, Route)) s' =>
      (∀ e ∈ es, db.lookup e.1 = some e.2) ∧
      LinkLoop protocol (s.linkRoutesCache protocol) db s.attempts.length
        (newLinks (s.linkRoutesCache protocol) es) s')
    (fun e es s' h _ => ⟨fun e' he' => h.1 e' (List.mem_cons_of_mem _ he'),
      h.2.addNewLink hdb (h.1 e List.mem_cons_self)⟩)
    ⟨fun e he => AList.mem_lookup_iff.mpr he, hdeleted.2⟩ hadd
  exact ⟨hadded.nodup, hadded.changes, hadded.untouched, hadded.either, hadded.trusted,
    hadded.recorded⟩

/-- If link routes are synchronised without an error, the kernel ends up with the new database
exactly if each key that was there before keeps its route and every request was accepted. -/
theorem syncLinkRoutes_exact_iff
    (hmirror : ∀ k, s.kernel.routes protocol k = (s.linkRoutesCache protocol).lookup k)
    (hcache : LinkDatabase nl protocol (s.linkRoutesCache protocol))
    (hdb : LinkDatabase nl protocol db) (hdone : (doSyncLinkRoutes nl protocol db s).2 = none) :
    (∀ k, (doSyncLinkRoutes nl protocol db s).1.kernel.routes protocol k = db.lookup k) ↔
      (∀ k r r', (s.linkRoutesCache protocol).lookup k = some r → db.lookup k = some r' →
        r = r') ∧
      Trusted Attempt.Accepted s.attempts.length (doSyncLinkRoutes nl protocol db s).1 := by
  have hend := LinkLoop.doSyncLinkRoutes hmirror hcache hdb hdone
  generalize (doSyncLinkRoutes nl protocol db s).1 = s' at hend ⊢
  rw [hend.trusted]
  constructor
  · intro hexact
    refine ⟨fun k r r' hr hr' => ?_, fun k _ => ?_⟩
    · have heither := hend.either k
      simp [hexact, requestedLink, hr, hr'] at heither
      exact heither.symm
    · have heither := hend.either k
      rw [hexact] at heither ⊢
      cases hr : (s.linkRoutesCache protocol).lookup k with
      | none => rw [requestedLink_of_cache_none hr]
      | some r => cases hr' : db.lookup k <;> simp_all [requestedLink]
  · rintro ⟨hagree, hkernel⟩ k
    rw [hkernel k List.not_mem_nil]
    cases hr : (s.linkRoutesCache protocol).lookup k with
    | none => rw [requestedLink_of_cache_none hr]
    | some r =>
      cases hr' : db.lookup k with
      | none => rw [requestedLink_of_db_none hr']
      | some r' => simp [requestedLink, hr, hr', hagree k r r' hr hr']

/-- A kernel that keeps a link route for each destination and interface name, and that accepts
every request. -/
def NlSock.byInterface : NlSock (CIDRNetwork × String) :=
  { encode := fun _ => .SUCCESS
    key := fun r => (r.dst, r.routeIfName.getD "")
    reply := fun _ => 0 }

/-- A link route through `eth0`. -/
def exampleLink (dest : CIDRNetwork) (ifIndex : UInt32) : Route :=
  { dst := dest, scope := RT_SCOPE_LINK, routeIfName := some "eth0",
    nextHops := [{ ifIndex := some ifIndex }].toFinset }

/-- The database with one such route. -/
def exampleLinks (dest : CIDRNetwork) (ifIndex : UInt32) : NlLinkRoutes :=
  AList.singleton (dest, "eth0") (exampleLink dest ifIndex)

/-- A socket whose cache and kernel hold one link route. -/
def exampleLinkSocket : NetlinkSocket (CIDRNetwork × String) :=
  { linkRoutesCache := fun _ => exampleLinks exampleDest 1
    kernel :=
      { routes := fun _ k => (exampleLinks exampleDest 1).lookup k
        labels := fun _ _ => none } }

private theorem linkDatabase_exampleLinks (dest : CIDRNetwork) (ifIndex : UInt32) :
    LinkDatabase NlSock.byInterface 99 (exampleLinks dest ifIndex) := by
  intro k r hr
  obtain ⟨rfl, rfl⟩ := AList.lookup_singleton_eq_some.mp hr
  exact ⟨rfl, rfl⟩

/-- A link route gives way to one for another destination. -/
theorem syncLinkRoutes_moves :
    let db := exampleLinks (.v4 ⟨[10, 1, 0, 0], rfl⟩, 16) 1
    ∀ k, (doSyncLinkRoutes NlSock.byInterface 99 db exampleLinkSocket).1.kernel.routes 99 k =
      db.lookup k := by
  refine (syncLinkRoutes_exact_iff (fun _ => rfl) (linkDatabase_exampleLinks _ _)
    (linkDatabase_exampleLinks _ _) (by decide)).mpr ⟨fun k r r' hr hr' => ?_, ?_⟩
  · obtain ⟨rfl, -⟩ := AList.lookup_singleton_eq_some.mp hr
    obtain ⟨heq, -⟩ := AList.lookup_singleton_eq_some.mp hr'
    exact absurd heq (by decide)
  · unfold Trusted
    decide

/-- The interface of a link route has a new index. The synchronisation reports no error and the
cache has the new route, but no request was sent and the kernel has the old one. -/
theorem syncLinkRoutes_misses_change :
    let db := exampleLinks exampleDest 2
    let r := doSyncLinkRoutes NlSock.byInterface 99 db exampleLinkSocket
    LinkDatabase NlSock.byInterface 99 (exampleLinkSocket.linkRoutesCache 99) ∧
      LinkDatabase NlSock.byInterface 99 db ∧ r.2 = none ∧ r.1.attempts = [] ∧
      (r.1.linkRoutesCache 99).lookup (exampleDest, "eth0") = some (exampleLink exampleDest 2) ∧
      r.1.kernel.routes 99 (exampleDest, "eth0") = some (exampleLink exampleDest 1) ∧
      exampleLink exampleDest 1 ≠ exampleLink exampleDest 2 := by
  refine ⟨linkDatabase_exampleLinks _ _, linkDatabase_exampleLinks _ _, ?_⟩
  decide

end NetlinkSocket

end Fbmeshd
