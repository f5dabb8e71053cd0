import Fbmeshd.Rnl.RouteMirror

/-!
# Synchronisation of the route caches

Runs of the calls that change unicast and label routes, with a kernel that may reject any
request. As long as every rejected request is harmless the kernel holds what the caches hold,
and a synchronisation whose requests are accepted brings both to the new database.
-/

namespace Fbmeshd

open Fallible

namespace NetlinkSocket

section Recorded

variable {κ : Type*} {G : Attempt → Prop} {n : ℕ}

/-- A change of the state sends nothing. -/
theorem reflects_modify {f : NetlinkSocket κ → NetlinkSocket κ}
    (hf : ∀ s, (f s).attempts = s.attempts) :
    Reflects (Trusted G n) (modify f : Action (NetlinkSocket κ) NlException) := by
  intro s hT x hx
  exact hT x (by rwa [modify_apply, hf])

variable [DecidableEq κ] {nl : NlSock κ}

/-- The requests before this one were trusted too. -/
theorem reflects_request (fail : ResultCode → NlException) (req : RouteRequest) :
    Reflects (Trusted G n) (request nl fail req) := by
  intro s hT x hx
  refine hT x ?_
  rw [request_eq, List.drop_append]
  exact List.mem_append_left _ hx

private theorem reflects_replaceUnicast (r : Route) :
    Reflects (Trusted G n) (replaceUnicast nl r) :=
  .andThen (reflects_modify (f := eraseUnicast _ _) fun _ => rfl)
    (.andThen (reflects_request _ _) (reflects_modify (f := emplaceUnicast _) fun _ => rfl))

/-- Likewise for a unicast route that is added. -/
theorem reflects_doAddUpdateUnicastRoute (r : Route) :
    Reflects (Trusted G n) (doAddUpdateUnicastRoute nl r) := by
  intro s hT
  obtain ⟨_, -, heq⟩ | ⟨-, ⟨-, heq⟩ | ⟨-, heq⟩ | ⟨old, -, heq⟩⟩ :=
    doAddUpdateUnicastRoute_cases nl r s <;> rw [heq] at hT
  · exact hT
  · exact hT
  · exact reflects_replaceUnicast _ s hT
  · exact (reflects_request _ _).andThen (reflects_replaceUnicast _) s hT

/-- And for one that is deleted. -/
theorem reflects_doDeleteUnicastRoute (r : Route) :
    Reflects (Trusted G n) (doDeleteUnicastRoute nl r) := by
  intro s hT
  obtain ⟨_, -, heq⟩ | ⟨-, ⟨-, heq⟩ | heq⟩ := doDeleteUnicastRoute_cases nl r s <;>
    rw [heq] at hT
  · exact hT
  · exact hT
  · exact (reflects_request _ _).andThen
      (reflects_modify (f := eraseUnicast _ _) fun _ => rfl) s hT

/-- And for a label route that is added. -/
theorem reflects_doAddUpdateMplsRoute (r : Route) :
    Reflects (Trusted G n) (doAddUpdateMplsRoute nl r) := by
  intro s hT
  obtain ⟨-, heq⟩ | ⟨_, -, ⟨-, heq⟩ | heq⟩ := doAddUpdateMplsRoute_cases nl r s <;>
    rw [heq] at hT
  · exact hT
  · exact hT
  · exact (reflects_modify (f := eraseMpls _ _) fun _ => rfl).andThen
      ((reflects_request _ _).andThen (reflects_modify (f := emplaceMpls _ _) fun _ => rfl)) s hT

/-- And for one that is deleted. -/
theorem reflects_doDeleteMplsRoute (r : Route) :
    Reflects (Trusted G n) (doDeleteMplsRoute nl r) := by
  intro s hT
  obtain ⟨-, heq⟩ | ⟨_, -, ⟨-, heq⟩ | heq⟩ := doDeleteMplsRoute_cases nl r s <;>
    rw [heq] at hT
  · exact hT
  · exact hT
  · exact (reflects_request _ _).andThen
      (reflects_modify (f := eraseMpls _ _) fun _ => rfl) s hT

/-- And for a cached route that is deleted. -/
theorem reflects_deleteCached (protocolId : UInt8) (dest : CIDRNetwork) :
    Reflects (Trusted G n) (deleteCached nl protocolId dest) := by
  intro s hT
  simp only [deleteCached] at hT
  split at hT
  · exact hT
  · exact reflects_doDeleteUnicastRoute _ s hT

/-- And for a cached label route. -/
theorem reflects_deleteCachedMpls (protocolId : UInt8) (label : UInt32) :
    Reflects (Trusted G n) (deleteCachedMpls nl protocolId label) := by
  intro s hT
  simp only [deleteCachedMpls] at hT
  split at hT
  · exact hT
  · exact reflects_doDeleteMplsRoute _ s hT

end Recorded

variable {encode : RouteRequest → ResultCode} {reply : ℕ → ℕ} {n : ℕ}
  {s s₀ : NetlinkSocket CIDRNetwork}

section Completion

variable {κ : Type*}

private theorem completes_modify (T : NetlinkSocket κ → Prop)
    (f : NetlinkSocket κ → NetlinkSocket κ) :
    Completes T (n ≤ ·.attempts.length) (modify f : Action _ NlException) :=
  fun _ _ _ => rfl

variable [DecidableEq κ] {nl : NlSock κ}

/-- As long as every request is accepted, a request does not fail. -/
theorem completes_request (fail : ResultCode → NlException) (req : RouteRequest) :
    Completes (Trusted Attempt.Accepted n) (n ≤ ·.attempts.length)
      (request nl fail req) :=
  fun _ hn hT => request_of_accepted hn hT

private theorem keeps_request (fail : ResultCode → NlException) (req : RouteRequest)
    (T : NetlinkSocket κ → Prop) :
    Keeps T (n ≤ ·.attempts.length) (request nl fail req) := by
  intro s hn _
  rw [request_eq]
  exact hn.trans (by simp)

private theorem completes_replaceUnicast (r : Route) :
    Completes (Trusted Attempt.Accepted n) (n ≤ ·.attempts.length)
      (replaceUnicast nl r) :=
  .andThen ((reflects_request _ _).andThen (reflects_modify (f := emplaceUnicast _) fun _ => rfl))
    (fun _ hn _ => hn) (completes_modify _ _)
    (.andThen (reflects_modify (f := emplaceUnicast _) fun _ => rfl) (keeps_request _ _ _)
      (completes_request _ _) (completes_modify _ _))

private theorem completes_doAddUpdateUnicastRoute {r : Route}
    (hcheck : checkUnicastRoute r = none) :
    Completes (Trusted Attempt.Accepted n) (n ≤ ·.attempts.length)
      (doAddUpdateUnicastRoute nl r) := by
  intro s hn hT
  obtain ⟨ex, hex, -⟩ | ⟨-, ⟨-, heq⟩ | ⟨-, heq⟩ | ⟨old, -, heq⟩⟩ :=
    doAddUpdateUnicastRoute_cases nl r s
  · simp [hcheck] at hex
  all_goals rw [heq] at hT ⊢
  · exact completes_replaceUnicast _ s hn hT
  · exact Completes.andThen (reflects_replaceUnicast _) (keeps_request _ _ _)
      (completes_request _ _) (completes_replaceUnicast _) s hn hT

private theorem completes_doDeleteUnicastRoute {r : Route} (hcheck : checkUnicastRoute r = none) :
    Completes (Trusted Attempt.Accepted n) (n ≤ ·.attempts.length)
      (doDeleteUnicastRoute nl r) := by
  intro s hn hT
  obtain ⟨ex, hex, -⟩ | ⟨-, ⟨-, heq⟩ | heq⟩ :=
    doDeleteUnicastRoute_cases nl r s
  · simp [hcheck] at hex
  all_goals rw [heq] at hT ⊢
  exact Completes.andThen (reflects_modify (f := eraseUnicast _ _) fun _ => rfl)
    (keeps_request _ _ _) (completes_request _ _) (completes_modify _ _) s hn hT

private theorem completes_doAddUpdateMplsRoute (r : Route) :
    Completes (Trusted Attempt.Accepted n) (n ≤ ·.attempts.length)
      (doAddUpdateMplsRoute nl r) := by
  intro s hn hT
  obtain ⟨-, heq⟩ | ⟨label, -, ⟨-, heq⟩ | heq⟩ :=
    doAddUpdateMplsRoute_cases nl r s <;> rw [heq] at hT ⊢
  exact Completes.andThen
    ((reflects_request _ _).andThen (reflects_modify (f := emplaceMpls _ _) fun _ => rfl))
    (fun _ hn _ => hn) (completes_modify _ _)
    (.andThen (reflects_modify (f := emplaceMpls _ _) fun _ => rfl) (keeps_request _ _ _)
      (completes_request _ _) (completes_modify _ _)) s hn hT

private theorem completes_doDeleteMplsRoute (r : Route) :
    Completes (Trusted Attempt.Accepted n) (n ≤ ·.attempts.length)
      (doDeleteMplsRoute nl r) := by
  intro s hn hT
  obtain ⟨-, heq⟩ | ⟨label, -, ⟨-, heq⟩ | heq⟩ :=
    doDeleteMplsRoute_cases nl r s <;> rw [heq] at hT ⊢
  exact Completes.andThen (reflects_modify (f := eraseMpls _ _) fun _ => rfl)
    (keeps_request _ _ _) (completes_request _ _) (completes_modify _ _) s hn hT

end Completion

section Sync

variable {K : Type} [DecidableEq K]

/-- A synchronisation of the cells `cell k`, started in `s₀`: cache and kernel agree on those in
`D`, and nothing else has changed. -/
structure Syncing (cell : K → RouteCell) (D : K → Prop) (s₀ s : NetlinkSocket CIDRNetwork) :
    Prop where
  mirrored : ∀ k, D k → s.kernel.at (cell k) = s.cacheAt (cell k)
  keyed : ∀ k r, s.cacheAt (cell k) = some r → r.FitsIn (cell k)
  cache : ∀ c, (∀ k, c ≠ cell k) → s.cacheAt c = s₀.cacheAt c
  kernel : ∀ c, (∀ k, c ≠ cell k) → s.kernel.at c = s₀.kernel.at c
  mcast : s.mcastRoutesCache = s₀.mcastRoutesCache
  link : s.linkRoutesCache = s₀.linkRoutesCache
  recorded : s₀.attempts.length ≤ s.attempts.length

variable {cell : K → RouteCell} {D : K → Prop} {norm : Route → Route}

omit [DecidableEq K] in
private theorem Syncing.of_settles (h : Syncing cell D s₀ s) {k : K} {v : Option Route}
    {r : NetlinkSocket CIDRNetwork × Option NlException} (hset : Settles (cell k) v s r)
    (hv : ∀ w, v = some w → w.FitsIn (cell k)) : Syncing cell D s₀ r.1 where
  mirrored k' hk' := hset.mirrored_at (h.mirrored k' hk')
  keyed k' := hset.fitsIn_at (h.keyed k') hv
  cache c hc := (hset.toElsewhere.cache c (hc k)).trans (h.cache c hc)
  kernel c hc := (hset.toElsewhere.kernel c (hc k)).trans (h.kernel c hc)
  mcast := hset.mcast.trans h.mcast
  link := hset.link.trans h.link
  recorded := h.recorded.trans hset.grows.length_le

/-- The two loop bodies of a synchronisation, as far as accepted requests go. -/
structure SyncBodies (cell : K → RouteCell) (D : K → Prop) (norm : Route → Route)
    (s₀ : NetlinkSocket CIDRNetwork) (del : K → Action (NetlinkSocket CIDRNetwork) NlException)
    (add : Route → Action (NetlinkSocket CIDRNetwork) NlException) : Prop where
  injective : Function.Injective cell
  norm_fits : ∀ r k, r.FitsIn (cell k) → (norm r).FitsIn (cell k)
  reflects_del : ∀ k, Reflects (Trusted Attempt.Accepted s₀.attempts.length) (del k)
  reflects_add : ∀ r, Reflects (Trusted Attempt.Accepted s₀.attempts.length) (add r)
  del_settles : ∀ k s, Syncing cell D s₀ s → (s.cacheAt (cell k)).isSome →
    Trusted Attempt.Accepted s₀.attempts.length (del k s).1 →
      (del k s).2 = none ∧ Settles (cell k) none s (del k s)
  add_settles : ∀ k r s, r.FitsIn (cell k) → Syncing cell D s₀ s →
    Trusted Attempt.Accepted s₀.attempts.length (add r s).1 →
      (add r s).2 = none ∧ Settles (cell k) (some (norm r)) s (add r s)

variable {del : K → Action (NetlinkSocket CIDRNetwork) NlException}
  {add : Route → Action (NetlinkSocket CIDRNetwork) NlException}
  {db : AList fun _ : K => Route}

/-- The state of the first loop, with the keys that remain to be deleted. -/
structure Deleting (cell : K → RouteCell) (D : K → Prop) (db : AList fun _ : K => Route)
    (s₀ : NetlinkSocket CIDRNetwork) (remaining : List K) (s : NetlinkSocket CIDRNetwork) : Prop
    extends Syncing cell D s₀ s where
  nodup : remaining.Nodup
  mem_iff : ∀ k, k ∈ remaining ↔ (s.cacheAt (cell k)).isSome ∧ db.lookup k = none

/-- The state of the second loop, with the entries that remain to be added. -/
structure Adding (cell : K → RouteCell) (D : K → Prop) (norm : Route → Route)
    (db : AList fun _ : K => Route) (s₀ : NetlinkSocket CIDRNetwork)
    (remaining : List (Σ _ : K, Route)) (s : NetlinkSocket CIDRNetwork) : Prop
    extends Syncing cell D s₀ s where
  entries : ∀ e ∈ remaining, db.lookup e.1 = some e.2
  stale : ∀ k, db.lookup k = none → s.cacheAt (cell k) = none
  done : ∀ k r, db.lookup k = some r → ⟨k, r⟩ ∈ remaining ∨ s.cacheAt (cell k) = some (norm r)

namespace SyncBodies

private theorem delete_round (h : SyncBodies cell D norm s₀ del add) (k : K) (ks : List K)
    (s : NetlinkSocket CIDRNetwork) (hloop : Deleting cell D db s₀ (k :: ks) s)
    (hT : Trusted Attempt.Accepted s₀.attempts.length (del k s).1) :
    (del k s).2 = none ∧ Deleting cell D db s₀ ks (del k s).1 := by
  obtain ⟨hcached, hstale⟩ := (hloop.mem_iff k).mp List.mem_cons_self
  obtain ⟨hres, hset⟩ := h.del_settles k s hloop.toSyncing hcached hT
  obtain ⟨hnot, hnodup⟩ := List.nodup_cons.mp hloop.nodup
  refine ⟨hres, hloop.toSyncing.of_settles hset (by simp), hnodup, fun k' => ?_⟩
  by_cases hkk : k' = k
  · subst hkk
    simp [hnot, hset.completed hres]
  · rw [hset.toElsewhere.cache _ (h.injective.ne hkk), ← hloop.mem_iff k', List.mem_cons,
      or_iff_right hkk]

private theorem add_round (h : SyncBodies cell D norm s₀ del add)
    (hdb : ∀ k r, db.lookup k = some r → r.FitsIn (cell k)) (e : Σ _ : K, Route)
    (es : List (Σ _ : K, Route)) (s : NetlinkSocket CIDRNetwork)
    (hloop : Adding cell D norm db s₀ (e :: es) s)
    (hT : Trusted Attempt.Accepted s₀.attempts.length (add e.2 s).1) :
    (add e.2 s).2 = none ∧ Adding cell D norm db s₀ es (add e.2 s).1 := by
  have hentry := hloop.entries e List.mem_cons_self
  have hfits := hdb _ _ hentry
  obtain ⟨hres, hset⟩ := h.add_settles e.1 e.2 s hfits hloop.toSyncing hT
  refine ⟨hres, hloop.toSyncing.of_settles hset ?_,
    fun e' he' => hloop.entries e' (List.mem_cons_of_mem _ he'), fun k hk => ?_, fun k r hk => ?_⟩
  · rintro w hw
    obtain rfl := Option.some_injective _ hw
    exact h.norm_fits _ _ hfits
  · have hne : k ≠ e.1 := by
      rintro rfl
      simp [hentry] at hk
    rw [hset.toElsewhere.cache _ (h.injective.ne hne)]
    exact hloop.stale k hk
  · by_cases hkk : k = e.1
    · subst hkk
      obtain rfl := Option.some_injective _ (hentry.symm.trans hk)
      exact .inr (hset.completed hres)
    · rw [hset.toElsewhere.cache _ (h.injective.ne hkk)]
      refine (hloop.done k r hk).imp_left fun hmem => ?_
      refine (List.mem_cons.mp hmem).resolve_left fun heq => hkk ?_
      exact congrArg Sigma.fst heq

/-- If every request is accepted, the synchronisation ends with the database in the cells. -/
theorem completes (h : SyncBodies cell D norm s₀ del add)
    (hdb : ∀ k r, db.lookup k = some r → r.FitsIn (cell k)) (h₀ : Syncing cell D s₀ s₀)
    {toDelete : List K} (hnodup : toDelete.Nodup)
    (hmem : ∀ k, k ∈ toDelete ↔ (s₀.cacheAt (cell k)).isSome ∧ db.lookup k = none)
    (hT : Trusted Attempt.Accepted s₀.attempts.length
      (andThen (forEach del toDelete) (forEach (fun kv => add kv.2) db.entries) s₀).1) :
    (andThen (forEach del toDelete) (forEach (fun kv => add kv.2) db.entries) s₀).2 = none ∧
      Syncing cell D s₀
        (andThen (forEach del toDelete) (forEach (fun kv => add kv.2) db.entries) s₀).1 ∧
      ∀ k, (andThen (forEach del toDelete)
        (forEach (fun kv => add kv.2) db.entries) s₀).1.cacheAt (cell k) =
          (db.lookup k).map norm := by
  have hadd : Reflects (Trusted Attempt.Accepted s₀.attempts.length)
      (forEach (fun kv : Σ _ : K, Route => add kv.2) db.entries) :=
    .forEach (f := fun kv : Σ _ : K, Route => add kv.2) (fun kv => h.reflects_add kv.2) _
  obtain ⟨hres, hdel⟩ := forEach_completes (Q := Deleting cell D db s₀) h.reflects_del
    h.delete_round ⟨h₀, hnodup, hmem⟩ (hadd.first hT)
  rw [andThen_of_none hres] at hT ⊢
  have hstart : Adding cell D norm db s₀ db.entries (forEach del toDelete s₀).1 := by
    have hentry : ∀ k r, db.lookup k = some r ↔ ⟨k, r⟩ ∈ db.entries := fun k r =>
      AList.mem_lookup_iff
    refine ⟨hdel.toSyncing, fun ⟨k, r⟩ he => (hentry k r).mpr he, fun k hk => ?_,
      fun k r hk => .inl ((hentry k r).mp hk)⟩
    by_contra hcached
    have hmem' := (hdel.mem_iff k).mpr ⟨Option.isSome_iff_ne_none.mpr hcached, hk⟩
    exact List.not_mem_nil hmem'
  obtain ⟨hres', hend⟩ := forEach_completes
    (fun kv : Σ _ : K, Route => h.reflects_add kv.2) (h.add_round hdb) hstart hT
  refine ⟨hres', hend.toSyncing, fun k => ?_⟩
  cases hk : db.lookup k with
  | none => exact hend.stale k hk
  | some r => exact (hend.done k r hk).resolve_left List.not_mem_nil

end SyncBodies

end Sync

private theorem Trusted.imp {G G' : Attempt → Prop} (h : ∀ x, G x → G' x) (hT : Trusted G n s) :
    Trusted G' n s := fun x hx => h x (hT x hx)

private theorem Trusted.harmless (hT : Trusted Attempt.Accepted n s) :
    Trusted Attempt.Harmless n s :=
  hT.imp fun _ => .inl

/-- The check does not look at the priority. -/
theorem checkUnicastRoute_withDefaultPriority (r : Route) :
    checkUnicastRoute r.withDefaultPriority = checkUnicastRoute r := by
  simp only [checkUnicastRoute, Route.withDefaultPriority_dst]

/-- The loop bodies of `doSyncUnicastRoutes`. -/
theorem SyncBodies.unicast (protocol : UInt8) {D : CIDRNetwork → Prop}
    (hD : ∀ (r : Route) k, r.FitsIn (.ip protocol k) → D k) (s₀ : NetlinkSocket CIDRNetwork) :
    SyncBodies (.ip protocol) D Route.withDefaultPriority s₀
      (deleteCached (.byDestination encode reply) protocol)
      (doAddUpdateUnicastRoute (.byDestination encode reply)) where
  injective _ _ h := (RouteCell.ip.inj h).2
  norm_fits r k h := by
    simpa [Route.FitsIn, checkUnicastRoute_withDefaultPriority] using h
  reflects_del := reflects_deleteCached protocol
  reflects_add := reflects_doAddUpdateUnicastRoute
  del_settles k s hsync hcached hT := by
    obtain ⟨r, hr⟩ := Option.isSome_iff_exists.mp hcached
    have hlookup : (s.unicastRoutesCache protocol).lookup k = some r := hr
    have hfits := hsync.keyed k r hr
    have hmirror := hsync.mirrored k (hD r k hfits)
    obtain ⟨hprotocol, hdst, hcheck⟩ := hfits
    simp only [deleteCached, hlookup] at hT ⊢
    refine ⟨completes_doDeleteUnicastRoute hcheck s hsync.recorded hT, ?_⟩
    subst hprotocol hdst
    exact .doDeleteUnicastRoute hmirror hsync.recorded hT.harmless
  add_settles k r s hfits hsync hT := by
    have hmirror := hsync.mirrored k (hD r k hfits)
    have hkeyed := hsync.keyed k
    obtain ⟨hprotocol, hdst, hcheck⟩ := hfits
    refine ⟨completes_doAddUpdateUnicastRoute hcheck s hsync.recorded hT, ?_⟩
    subst hprotocol hdst
    exact .doAddUpdateUnicastRoute hmirror hkeyed hsync.recorded hT.harmless

/-- The loop bodies of `syncMplsRoutes`. -/
theorem SyncBodies.mpls (protocol : UInt8) (s₀ : NetlinkSocket CIDRNetwork) :
    SyncBodies (.label protocol) (fun _ => True) id s₀
      (deleteCachedMpls (.byDestination encode reply) protocol)
      (doAddUpdateMplsRoute (.byDestination encode reply)) where
  injective _ _ h := (RouteCell.label.inj h).2
  norm_fits _ _ h := h
  reflects_del := reflects_deleteCachedMpls protocol
  reflects_add := reflects_doAddUpdateMplsRoute
  del_settles k s hsync hcached hT := by
    obtain ⟨r, hr⟩ := Option.isSome_iff_exists.mp hcached
    have hlookup : (s.mplsRoutesCache protocol).lookup k = some r := hr
    obtain ⟨hprotocol, hlabel⟩ := hsync.keyed k r hr
    simp only [deleteCachedMpls, hlookup] at hT ⊢
    refine ⟨completes_doDeleteMplsRoute r s hsync.recorded hT, ?_⟩
    subst hprotocol
    exact .doDeleteMplsRoute hlabel (hsync.mirrored k trivial) hsync.recorded hT.harmless
  add_settles k r s hfits hsync hT := by
    obtain ⟨hprotocol, hlabel⟩ := hfits
    refine ⟨completes_doAddUpdateMplsRoute r s hsync.recorded hT, ?_⟩
    subst hprotocol
    exact .doAddUpdateMplsRoute hlabel (hsync.mirrored k trivial) hsync.recorded hT.harmless

/-- What `toDelete` is in both synchronisations. -/
theorem mem_visit_stale {K : Type} [DecidableEq K] (order : IterationOrder K)
    (cache db : AList fun _ : K => Route) (k : K) :
    k ∈ order.visit (cache.keys.filter fun k => (db.lookup k).isNone) ↔
      (cache.lookup k).isSome ∧ db.lookup k = none := by
  rw [(order.perm _).mem_iff, List.mem_filter, AList.lookup_isSome, Option.isNone_iff_eq_none]
  rfl

private theorem nodup_visit_stale {K : Type} [DecidableEq K] (order : IterationOrder K)
    (cache db : AList fun _ : K => Route) :
    (order.visit (cache.keys.filter fun k => (db.lookup k).isNone)).Nodup :=
  (order.perm _).nodup_iff.mpr (cache.keys_nodup.filter _)

/-- `doSyncUnicastRoutes`, if its requests are accepted. -/
theorem syncUnicast_of_accepted {order : IterationOrder CIDRNetwork} {protocol : UInt8}
    {db : NlUnicastRoutes} {D : CIDRNetwork → Prop}
    (hD : ∀ (r : Route) k, r.FitsIn (.ip protocol k) → D k)
    (hmirror : ∀ k, D k → s.kernel.at (.ip protocol k) = s.cacheAt (.ip protocol k))
    (hkeyed : ∀ k r, s.cacheAt (.ip protocol k) = some r → r.FitsIn (.ip protocol k))
    (hdb : ∀ k r, db.lookup k = some r → r.FitsIn (.ip protocol k))
    (hT : Trusted Attempt.Accepted s.attempts.length
      (doSyncUnicastRoutes (.byDestination encode reply) order protocol db s).1) :
    (doSyncUnicastRoutes (.byDestination encode reply) order protocol db s).2 = none ∧
      Syncing (.ip protocol) D s
        (doSyncUnicastRoutes (.byDestination encode reply) order protocol db s).1 ∧
      ∀ k, (doSyncUnicastRoutes (.byDestination encode reply) order protocol db s).1.cacheAt
        (.ip protocol k) = (db.lookup k).map Route.withDefaultPriority :=
  (SyncBodies.unicast protocol hD s).completes hdb
    ⟨hmirror, hkeyed, fun _ _ => rfl, fun _ _ => rfl, rfl, rfl, le_rfl⟩
    (nodup_visit_stale order _ db) (mem_visit_stale order _ db) hT

/-- `syncMplsRoutes`, if its requests are accepted. -/
theorem syncMpls_of_accepted {order : IterationOrder UInt32} {protocol : UInt8}
    {db : NlMplsRoutes}
    (hmirror : ∀ l, s.kernel.at (.label protocol l) = s.cacheAt (.label protocol l))
    (hkeyed : ∀ l r, s.cacheAt (.label protocol l) = some r → r.FitsIn (.label protocol l))
    (hdb : ∀ l r, db.lookup l = some r → r.FitsIn (.label protocol l))
    (hT : Trusted Attempt.Accepted s.attempts.length
      (syncMplsRoutes (.byDestination encode reply) order protocol db s).1) :
    (syncMplsRoutes (.byDestination encode reply) order protocol db s).2 = none ∧
      Syncing (.label protocol) (fun _ => True) s
        (syncMplsRoutes (.byDestination encode reply) order protocol db s).1 ∧
      ∀ l, (syncMplsRoutes (.byDestination encode reply) order protocol db s).1.cacheAt
        (.label protocol l) = (db.lookup l).map id :=
  (SyncBodies.mpls protocol s).completes hdb
    ⟨fun l _ => hmirror l, hkeyed, fun _ _ => rfl, fun _ _ => rfl, rfl, rfl, le_rfl⟩
    (nodup_visit_stale order _ db) (mem_visit_stale order _ db) hT

/-- A database of unicast routes of one protocol: its routes are keyed by their own destination,
which is neither multicast nor link-local. -/
def UnicastDatabase (protocol : UInt8) (db : NlUnicastRoutes) : Prop :=
  ∀ k r, db.lookup k = some r → r.protocolId = protocol ∧ r.dst = k ∧
    k.1.isMulticast = some false ∧ k.1.isLinkLocal = some false

/-- A route passes if it is neither multicast nor link-local. -/
theorem checkUnicastRoute_eq_none_iff {r : Route} : checkUnicastRoute r = none ↔
    r.dst.1.isMulticast = some false ∧ r.dst.1.isLinkLocal = some false := by
  unfold checkUnicastRoute
  rcases r.dst.1.isMulticast with _ | _ | _ <;> rcases r.dst.1.isLinkLocal with _ | _ | _ <;> simp

/-- The routes of a database fit where they are kept. -/
theorem UnicastDatabase.fits {protocol : UInt8} {db : NlUnicastRoutes}
    (h : UnicastDatabase protocol db) (k : CIDRNetwork) (r : Route) (hr : db.lookup k = some r) :
    r.FitsIn (.ip protocol k) := by
  obtain ⟨hprotocol, hdst, hkind⟩ := h k r hr
  exact ⟨hprotocol, hdst, checkUnicastRoute_eq_none_iff.mpr (hdst ▸ hkind)⟩

/-- A route that is in the cache is not sent again. -/
theorem doAddUpdateUnicastRoute_of_cached {κ : Type*} [DecidableEq κ] {nl : NlSock κ} {r : Route}
    {s : NetlinkSocket κ} (hcheck : checkUnicastRoute r = none)
    (hcached : (s.unicastRoutesCache r.protocolId).lookup r.dst = some r.withDefaultPriority) :
    doAddUpdateUnicastRoute nl r s = (s, none) := by
  simp only [doAddUpdateUnicastRoute, hcheck, hcached, Route.eq_iff.mpr rfl, if_true]

/-- A synchronisation to what is in the cache does nothing. -/
theorem doSyncUnicastRoutes_of_cached {nl : NlSock CIDRNetwork}
    {order : IterationOrder CIDRNetwork} {protocol : UInt8} {db : NlUnicastRoutes}
    (hdb : ∀ k r, db.lookup k = some r → r.FitsIn (.ip protocol k))
    (hcached : ∀ k, s.cacheAt (.ip protocol k) = (db.lookup k).map Route.withDefaultPriority) :
    doSyncUnicastRoutes nl order protocol db s = (s, none) := by
  have hstale : order.visit ((s.unicastRoutesCache protocol).keys.filter
      fun dest => (db.lookup dest).isNone) = [] := by
    refine List.eq_nil_iff_forall_not_mem.mpr fun k hk => ?_
    obtain ⟨hsome, hnone⟩ := (mem_visit_stale order _ db k).mp hk
    have hk' := hcached k
    rw [hnone] at hk'
    exact absurd hk' (Option.isSome_iff_ne_none.mp hsome)
  simp only [doSyncUnicastRoutes, hstale]
  refine forEach_of_unchanged fun e he => ?_
  have hlookup : db.lookup e.1 = some e.2 := AList.mem_lookup_iff.mpr he
  have hcell := hcached e.1
  obtain ⟨hprotocol, hdst, hcheck⟩ := hdb _ _ hlookup
  refine doAddUpdateUnicastRoute_of_cached hcheck ?_
  rw [hprotocol, hdst]
  rw [hlookup] at hcell
  exact hcell

/-- The destination of the routes in the examples below. -/
def exampleDest : CIDRNetwork := (.v4 ⟨[10, 0, 0, 0], rfl⟩, 8)

end NetlinkSocket

end Fbmeshd
