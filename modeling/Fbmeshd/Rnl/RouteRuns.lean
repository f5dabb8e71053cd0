import Fbmeshd.Rnl.RouteSync

/-!
# Runs of the route calls

Any sequence of calls that add, delete and synchronise unicast and label routes, on a kernel
that accepts and rejects as it likes. Multicast routes pass through the same requests; they
live in destinations that no unicast route has.
-/

namespace Fbmeshd

open Fallible

/-- The calls on `NetlinkSocket` that change unicast, multicast or label routes. -/
inductive RouteCall where
  | addRoute (route : Route)
  | delRoute (route : Route)
  | syncUnicastRoutes (order : IterationOrder CIDRNetwork) (protocolId : UInt8)
      (db : NlUnicastRoutes)
  | addMplsRoute (mplsRoute : Route)
  | delMplsRoute (mplsRoute : Route)
  | syncMplsRoutes (order : IterationOrder UInt32) (protocolId : UInt8) (db : NlMplsRoutes)

/-- The cells whose kernel route is in the unicast and label caches, if anywhere. -/
def RouteCell.Tracked : RouteCell → Prop
  | .ip _ dest => dest.1.isMulticast ≠ some true
  | .label _ _ => True

namespace NetlinkSocket

section Calls

variable {κ : Type*} [DecidableEq κ] (nl : NlSock κ)

/-- One call. -/
def call : RouteCall → Action (NetlinkSocket κ) NlException
  | .addRoute route => addRoute nl route
  | .delRoute route => delRoute nl route
  | .syncUnicastRoutes order protocolId db => doSyncUnicastRoutes nl order protocolId db
  | .addMplsRoute route => addMplsRoute nl route
  | .delMplsRoute route => delMplsRoute nl route
  | .syncMplsRoutes order protocolId db => syncMplsRoutes nl order protocolId db

/-- A run of calls. The exception of a call goes into the future its caller holds, and the next
call finds the state as it was left. -/
def runCalls (calls : List RouteCall) : Action (NetlinkSocket κ) NlException :=
  forEach (fun c s => ((call nl c s).1, none)) calls

end Calls

section Recorded

variable {κ : Type*} [DecidableEq κ] {nl : NlSock κ} {G : Attempt → Prop} {n : ℕ}

private theorem reflects_doAddMulticastRoute (r : Route) :
    Reflects (Trusted G n) (doAddMulticastRoute nl r) := by
  intro s hT
  simp only [doAddMulticastRoute] at hT
  split at hT
  · exact hT
  · split at hT
    · exact hT
    · exact (reflects_request _ _).andThen (reflects_modify (f := setMcast _ _) fun _ => rfl) s hT

private theorem reflects_doDeleteMulticastRoute (r : Route) :
    Reflects (Trusted G n) (doDeleteMulticastRoute nl r) := by
  intro s hT
  simp only [doDeleteMulticastRoute] at hT
  split at hT
  · exact hT
  · split at hT
    · exact hT
    · exact (reflects_request _ _).andThen (reflects_modify (f := setMcast _ _) fun _ => rfl) s hT

private theorem reflects_doSyncUnicastRoutes (order : IterationOrder CIDRNetwork) (protocol : UInt8)
    (db : NlUnicastRoutes) :
    Reflects (Trusted G n) (doSyncUnicastRoutes nl order protocol db) :=
  fun s hT => Reflects.andThen (.forEach (reflects_deleteCached protocol) _)
    (.forEach (f := fun _ : Σ _ : CIDRNetwork, Route => _)
      (fun kv => reflects_doAddUpdateUnicastRoute kv.2) _) s hT

private theorem reflects_syncMplsRoutes (order : IterationOrder UInt32) (protocol : UInt8)
    (db : NlMplsRoutes) : Reflects (Trusted G n) (syncMplsRoutes nl order protocol db) :=
  fun s hT => Reflects.andThen (.forEach (reflects_deleteCachedMpls protocol) _)
    (.forEach (f := fun _ : Σ _ : UInt32, Route => _)
      (fun kv => reflects_doAddUpdateMplsRoute kv.2) _) s hT

private theorem reflects_call (c : RouteCall) : Reflects (Trusted G n) (call nl c) := by
  intro s hT
  cases c with
  | addRoute r =>
    simp only [call, addRoute] at hT
    split_ifs at hT
    · exact reflects_doAddUpdateUnicastRoute r s hT
    · exact reflects_doAddMulticastRoute r s hT
    · exact hT
  | delRoute r =>
    simp only [call, delRoute] at hT
    split_ifs at hT
    · exact reflects_doDeleteUnicastRoute r s hT
    · exact reflects_doDeleteMulticastRoute r s hT
    · exact hT
  | syncUnicastRoutes order protocol db => exact reflects_doSyncUnicastRoutes order protocol db s hT
  | addMplsRoute r =>
    simp only [call, addMplsRoute] at hT
    split_ifs at hT
    · exact reflects_doAddUpdateMplsRoute r s hT
    · exact hT
  | delMplsRoute r =>
    simp only [call, delMplsRoute] at hT
    split_ifs at hT
    · exact reflects_doDeleteMplsRoute r s hT
    · exact hT
  | syncMplsRoutes order protocol db => exact reflects_syncMplsRoutes order protocol db s hT

end Recorded

/-- A new socket on a kernel without routes. -/
def fresh : NetlinkSocket CIDRNetwork :=
  { kernel := { routes := fun _ _ => none, labels := fun _ _ => none } }

/-- Cache and kernel agree on every cell that is tracked, and what is in the caches belongs
there. -/
structure Mirror (n : ℕ) (s : NetlinkSocket CIDRNetwork) : Prop where
  mirrored : ∀ c, c.Tracked → s.kernel.at c = s.cacheAt c
  keyed : ∀ c r, s.cacheAt c = some r → r.FitsIn c
  mcast : ∀ q k r, (s.mcastRoutesCache q).lookup k = some r → r.dst.1.isMulticast = some true
  recorded : n ≤ s.attempts.length

variable {encode : RouteRequest → ResultCode} {reply : ℕ → ℕ} {n : ℕ} {c : RouteCell}
  {s : NetlinkSocket CIDRNetwork}

namespace Mirror

private theorem fresh : Mirror 0 fresh where
  mirrored c _ := by cases c <;> rfl
  keyed c r hr := by cases c <;> cases hr
  mcast _ _ _ hr := by cases hr
  recorded := Nat.zero_le _

private theorem of_settles (h : Mirror n s) {v : Option Route}
    {r : NetlinkSocket CIDRNetwork × Option NlException} (hset : Settles c v s r)
    (hv : ∀ w, v = some w → w.FitsIn c) : Mirror n r.1 where
  mirrored c' hc' := hset.mirrored_at (h.mirrored c' hc')
  keyed c' := hset.fitsIn_at (h.keyed c') hv
  mcast := hset.mcast ▸ h.mcast
  recorded := h.recorded.trans hset.grows.length_le

private theorem tracked_of_check {r : Route} (hcheck : checkUnicastRoute r = none) :
    (RouteCell.ip r.protocolId r.dst).Tracked := by
  rw [RouteCell.Tracked, (checkUnicastRoute_eq_none_iff.mp hcheck).1]
  simp

private theorem doAddUpdateUnicastRoute (r : Route) :
    Keeps (Trusted Attempt.Harmless n) (Mirror n)
      (doAddUpdateUnicastRoute (.byDestination encode reply) r) := by
  intro s h hT
  cases hcheck : checkUnicastRoute r with
  | some ex => simpa only [NetlinkSocket.doAddUpdateUnicastRoute, hcheck] using h
  | none =>
    refine h.of_settles (.doAddUpdateUnicastRoute (h.mirrored _ (tracked_of_check hcheck))
      (h.keyed _) h.recorded hT) fun w hw => ?_
    obtain rfl := Option.some_injective _ hw
    simp [Route.FitsIn, checkUnicastRoute_withDefaultPriority, hcheck]

private theorem doDeleteUnicastRoute (r : Route) :
    Keeps (Trusted Attempt.Harmless n) (Mirror n)
      (doDeleteUnicastRoute (.byDestination encode reply) r) := by
  intro s h hT
  cases hcheck : checkUnicastRoute r with
  | some ex => simpa only [NetlinkSocket.doDeleteUnicastRoute, hcheck] using h
  | none =>
    exact h.of_settles (.doDeleteUnicastRoute (h.mirrored _ (tracked_of_check hcheck))
      h.recorded hT) (by simp)

private theorem doAddUpdateMplsRoute (r : Route) :
    Keeps (Trusted Attempt.Harmless n) (Mirror n)
      (doAddUpdateMplsRoute (.byDestination encode reply) r) := by
  intro s h hT
  cases hlabel : r.mplsLabel with
  | none => simpa only [NetlinkSocket.doAddUpdateMplsRoute, hlabel] using h
  | some label =>
    refine h.of_settles (.doAddUpdateMplsRoute hlabel (h.mirrored _ trivial) h.recorded hT)
      fun w hw => ?_
    obtain rfl := Option.some_injective _ hw
    exact ⟨rfl, hlabel⟩

private theorem doDeleteMplsRoute (r : Route) :
    Keeps (Trusted Attempt.Harmless n) (Mirror n)
      (doDeleteMplsRoute (.byDestination encode reply) r) := by
  intro s h hT
  cases hlabel : r.mplsLabel with
  | none => simpa only [NetlinkSocket.doDeleteMplsRoute, hlabel] using h
  | some label =>
    exact h.of_settles (.doDeleteMplsRoute hlabel (h.mirrored _ trivial) h.recorded hT) (by simp)

/-- A request for a multicast destination is about no cell that is tracked. -/
theorem request_multicast (fail : ResultCode → NlException) {req : RouteRequest} {q : UInt8}
    {dest : CIDRNetwork} (hcell : req.cell = some (.ip q dest))
    (hdest : dest.1.isMulticast = some true) (h : Mirror n s) :
    Mirror n (request (.byDestination encode reply) fail req s).1 := by
  have hlocal := Elsewhere.request encode reply fail hcell s
  have hcache := request_cacheAt encode reply fail req s
  refine ⟨fun c hc => ?_, by rw [hcache]; exact h.keyed, hlocal.mcast ▸ h.mcast,
    h.recorded.trans hlocal.grows.length_le⟩
  have hne : c ≠ .ip q dest := by
    rintro rfl
    exact hc hdest
  rw [hlocal.kernel c hne, hcache]
  exact h.mirrored c hc

private theorem setMcast (h : Mirror n s) (q : UInt8) {routes : NlLinkRoutes}
    (hroutes : ∀ k r, routes.lookup k = some r → r.dst.1.isMulticast = some true) :
    Mirror n (setMcast q routes s) := by
  refine ⟨h.mirrored, h.keyed, fun q' k r hr => ?_, h.recorded⟩
  by_cases hq : q' = q
  · subst hq
    exact hroutes k r (by simpa [NetlinkSocket.setMcast] using hr)
  · exact h.mcast q' k r (by simpa [NetlinkSocket.setMcast, hq] using hr)

/-- A request for a multicast destination and the change of the cache after it. -/
theorem multicast (fail : ResultCode → NlException) {req : RouteRequest} {p q : UInt8}
    {dest : CIDRNetwork} (hcell : req.cell = some (.ip p dest))
    (hdest : dest.1.isMulticast = some true) (h : Mirror n s) {routes : NlLinkRoutes}
    (hroutes : ∀ k r, routes.lookup k = some r → r.dst.1.isMulticast = some true) :
    Mirror n (andThen (request (.byDestination encode reply) fail req)
      (modify (NetlinkSocket.setMcast q routes)) s).1 := by
  have hrequest : Mirror n (request (.byDestination encode reply) fail req s).1 :=
    h.request_multicast fail hcell hdest
  cases hres : (request (.byDestination encode reply) fail req s).2 with
  | none =>
    rw [andThen_of_none hres]
    exact hrequest.setMcast q hroutes
  | some e =>
    rw [andThen_of_some hres]
    exact hrequest

private theorem isMulticast_of_check {r : Route} {ifName : String}
    (hcheck : checkMulticastRoute r = .ok ifName) : r.dst.1.isMulticast = some true := by
  unfold checkMulticastRoute at hcheck
  rcases hmcast : r.dst.1.isMulticast with _ | _ | _ <;> simp [hmcast] at hcheck ⊢

private theorem doAddMulticastRoute (r : Route) (h : Mirror n s) :
    Mirror n (doAddMulticastRoute (.byDestination encode reply) r s).1 := by
  simp only [NetlinkSocket.doAddMulticastRoute]
  cases hcheck : checkMulticastRoute r with
  | error ex => exact h
  | ok ifName =>
    have hdest := isMulticast_of_check hcheck
    dsimp only
    split
    · exact h
    · refine h.multicast _ rfl hdest fun k r' hr' => ?_
      by_cases hk : k = (r.dst, ifName)
      · rw [hk, AList.lookup_insert] at hr'
        obtain rfl := Option.some_injective _ hr'
        exact hdest
      · rw [AList.lookup_insert_ne hk] at hr'
        exact h.mcast _ k r' hr'

private theorem doDeleteMulticastRoute (r : Route) (h : Mirror n s) :
    Mirror n (doDeleteMulticastRoute (.byDestination encode reply) r s).1 := by
  simp only [NetlinkSocket.doDeleteMulticastRoute]
  cases hcheck : checkMulticastRoute r with
  | error ex => exact h
  | ok ifName =>
    dsimp only
    split
    · exact h
    next old hold =>
      refine h.multicast _ rfl (h.mcast _ _ _ hold) fun k r' hr' => ?_
      by_cases hk : k = (r.dst, ifName)
      · rw [hk, AList.lookup_erase] at hr'
        cases hr'
      · rw [AList.lookup_erase_ne hk] at hr'
        exact h.mcast _ k r' hr'

private theorem deleteCached (protocol : UInt8) (dest : CIDRNetwork) :
    Keeps (Trusted Attempt.Harmless n) (Mirror n)
      (deleteCached (.byDestination encode reply) protocol dest) := by
  intro s h hT
  simp only [NetlinkSocket.deleteCached] at hT ⊢
  split at hT
  · exact h
  · exact doDeleteUnicastRoute _ s h hT

private theorem deleteCachedMpls (protocol : UInt8) (label : UInt32) :
    Keeps (Trusted Attempt.Harmless n) (Mirror n)
      (deleteCachedMpls (.byDestination encode reply) protocol label) := by
  intro s h hT
  simp only [NetlinkSocket.deleteCachedMpls] at hT ⊢
  split at hT
  · exact h
  · exact doDeleteMplsRoute _ s h hT

private theorem doSyncUnicastRoutes (order : IterationOrder CIDRNetwork) (protocol : UInt8)
    (db : NlUnicastRoutes) :
    Keeps (Trusted Attempt.Harmless n) (Mirror n)
      (doSyncUnicastRoutes (.byDestination encode reply) order protocol db) := by
  intro s h hT
  exact Keeps.andThen
    (.forEach (f := fun _ : Σ _ : CIDRNetwork, Route => _)
      (fun kv => reflects_doAddUpdateUnicastRoute kv.2) _)
    (.forEach (reflects_deleteCached protocol) (deleteCached protocol) _)
    (.forEach (f := fun _ : Σ _ : CIDRNetwork, Route => _)
      (fun kv => reflects_doAddUpdateUnicastRoute kv.2)
      (fun kv => doAddUpdateUnicastRoute kv.2) _) s h hT

private theorem syncMplsRoutes (order : IterationOrder UInt32) (protocol : UInt8)
    (db : NlMplsRoutes) :
    Keeps (Trusted Attempt.Harmless n) (Mirror n)
      (syncMplsRoutes (.byDestination encode reply) order protocol db) := by
  intro s h hT
  exact Keeps.andThen
    (.forEach (f := fun _ : Σ _ : UInt32, Route => _)
      (fun kv => reflects_doAddUpdateMplsRoute kv.2) _)
    (.forEach (reflects_deleteCachedMpls protocol) (deleteCachedMpls protocol) _)
    (.forEach (f := fun _ : Σ _ : UInt32, Route => _)
      (fun kv => reflects_doAddUpdateMplsRoute kv.2)
      (fun kv => doAddUpdateMplsRoute kv.2) _) s h hT

/-- Every call keeps the mirror, if its requests are harmless. -/
theorem call (c : RouteCall) :
    Keeps (Trusted Attempt.Harmless n) (Mirror n) (call (.byDestination encode reply) c) := by
  intro s h hT
  cases c with
  | addRoute r =>
    simp only [NetlinkSocket.call, NetlinkSocket.addRoute] at hT ⊢
    split_ifs at hT ⊢
    · exact doAddUpdateUnicastRoute r s h hT
    · exact h.doAddMulticastRoute r
    · exact h
  | delRoute r =>
    simp only [NetlinkSocket.call, NetlinkSocket.delRoute] at hT ⊢
    split_ifs at hT ⊢
    · exact doDeleteUnicastRoute r s h hT
    · exact h.doDeleteMulticastRoute r
    · exact h
  | syncUnicastRoutes order protocol db => exact doSyncUnicastRoutes order protocol db s h hT
  | addMplsRoute r =>
    simp only [NetlinkSocket.call, NetlinkSocket.addMplsRoute] at hT ⊢
    split_ifs at hT ⊢
    · exact doAddUpdateMplsRoute r s h hT
    · exact h
  | delMplsRoute r =>
    simp only [NetlinkSocket.call, NetlinkSocket.delMplsRoute] at hT ⊢
    split_ifs at hT ⊢
    · exact doDeleteMplsRoute r s h hT
    · exact h
  | syncMplsRoutes order protocol db => exact syncMplsRoutes order protocol db s h hT

end Mirror

end NetlinkSocket

end Fbmeshd
