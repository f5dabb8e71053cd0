import Fbmeshd.Rnl.NetlinkSocket

/-!
# The route caches as a mirror of the kernel

Cache and kernel are compared cell by cell: a cell is a destination or a label of one protocol.
Each change of the socket is reduced to writing one value to one cell of both.
-/

namespace Fbmeshd

open Fallible

/-- A place for one route, in the unicast and label caches as in the kernel. -/
inductive RouteCell where
  | ip (protocol : UInt8) (dest : CIDRNetwork)
  | label (protocol : UInt8) (label : UInt32)
  deriving DecidableEq

/-- The kernel that keeps one route for each destination of a protocol. -/
def NlSock.byDestination (encode : RouteRequest → ResultCode) (reply : ℕ → ℕ) :
    NlSock CIDRNetwork :=
  { encode, key := Route.dst, reply }

@[simp] private theorem NlSock.byDestination_key (encode : RouteRequest → ResultCode)
    (reply : ℕ → ℕ) :
    (NlSock.byDestination encode reply).key = Route.dst := rfl

namespace Attempt

/-- The request was accepted, or its failure was reported and the kernel held nothing that the
request was to replace. -/
def Harmless (x : Attempt) : Prop :=
  x.Accepted ∨ x.status ≠ .SUCCESS ∧ (x.request.isAdd → x.held = none)

instance (x : Attempt) : Decidable x.Harmless :=
  inferInstanceAs (Decidable (_ ∨ _ ∧ (_ → _)))

/-- An accepted request succeeds. -/
theorem Accepted.status_eq {x : Attempt} (h : x.Accepted) : x.status = .SUCCESS := by
  have houtcome : x.outcome = .answered 0 := h
  simp [status, houtcome]

end Attempt

/-- A route is put into a cell that its own fields name. -/
def Route.FitsIn (r : Route) : RouteCell → Prop
  | .ip protocol dest =>
    r.protocolId = protocol ∧ r.dst = dest ∧ NetlinkSocket.checkUnicastRoute r = none
  | .label protocol label => r.protocolId = protocol ∧ r.mplsLabel = some label

namespace NetlinkSocket

section Cells

variable {κ : Type*} (s : NetlinkSocket κ)

/-- What the cache has in a cell. -/
def cacheAt : RouteCell → Option Route
  | .ip protocol dest => (s.unicastRoutesCache protocol).lookup dest
  | .label protocol label => (s.mplsRoutesCache protocol).lookup label

/-- A unicast route is erased from the cache. -/
@[simp] theorem cacheAt_eraseUnicast (protocol : UInt8) (dest : CIDRNetwork) :
    (eraseUnicast protocol dest s).cacheAt =
      Function.update s.cacheAt (.ip protocol dest) none := by
  funext c
  cases c with
  | ip _ _ =>
    rw [Function.update_apply]
    simp only [cacheAt, eraseUnicast, AList.lookup_update_erase, RouteCell.ip.injEq]
  | label _ _ => simp [cacheAt, eraseUnicast]

/-- A unicast route is put into the cache. -/
@[simp] theorem cacheAt_emplaceUnicast (route : Route) :
    (emplaceUnicast route s).cacheAt =
      Function.update s.cacheAt (.ip route.protocolId route.dst) (some route) := by
  funext c
  cases c with
  | ip _ _ =>
    rw [Function.update_apply]
    simp only [cacheAt, emplaceUnicast, AList.lookup_update_insert, RouteCell.ip.injEq]
  | label _ _ => simp [cacheAt, emplaceUnicast]

@[simp] private theorem cacheAt_eraseMpls (protocol : UInt8) (label : UInt32) :
    (eraseMpls protocol label s).cacheAt =
      Function.update s.cacheAt (.label protocol label) none := by
  funext c
  cases c with
  | label _ _ =>
    rw [Function.update_apply]
    simp only [cacheAt, eraseMpls, AList.lookup_update_erase, RouteCell.label.injEq]
  | ip _ _ => simp [cacheAt, eraseMpls]

@[simp] private theorem cacheAt_emplaceMpls (label : UInt32) (route : Route) :
    (emplaceMpls label route s).cacheAt =
      Function.update s.cacheAt (.label route.protocolId label) (some route) := by
  funext c
  cases c with
  | label _ _ =>
    rw [Function.update_apply]
    simp only [cacheAt, emplaceMpls, AList.lookup_update_insert, RouteCell.label.injEq]
  | ip _ _ => simp [cacheAt, emplaceMpls]

end Cells

end NetlinkSocket

/-- What the kernel has in a cell. -/
def Kernel.at (k : Kernel CIDRNetwork) : RouteCell → Option Route
  | .ip protocol dest => k.routes protocol dest
  | .label protocol label => k.labels protocol label

private theorem Kernel.setRoute_at (k : Kernel CIDRNetwork) (protocol : UInt8) (dest : CIDRNetwork)
    (r : Option Route) :
    (k.setRoute protocol dest r).at = Function.update k.at (.ip protocol dest) r := by
  funext c
  cases c with
  | ip p d => by_cases hp : p = protocol <;> simp [Kernel.at, setRoute, Function.update_apply, hp]
  | label _ _ => simp [Kernel.at, setRoute]

private theorem Kernel.setLabel_at (k : Kernel CIDRNetwork) (protocol : UInt8) (label : UInt32)
    (r : Option Route) :
    (k.setLabel protocol label r).at = Function.update k.at (.label protocol label) r := by
  funext c
  cases c with
  | ip _ _ => simp [Kernel.at, setLabel]
  | label p l =>
    by_cases hp : p = protocol <;> simp [Kernel.at, setLabel, Function.update_apply, hp]

/-- The cell a request is about. -/
def RouteRequest.cell : RouteRequest → Option RouteCell
  | .addRoute r | .deleteRoute r => some (.ip r.protocolId r.dst)
  | .addLabelRoute r | .deleteLabelRoute r => r.mplsLabel.map (.label r.protocolId)

/-- The value that an accepted request writes. -/
def RouteRequest.value : RouteRequest → Option Route
  | .addRoute r | .addLabelRoute r => some r
  | .deleteRoute _ | .deleteLabelRoute _ => none

private theorem Kernel.held_eq (k : Kernel CIDRNetwork) {request : RouteRequest} {c : RouteCell}
    (hcell : request.cell = some c) : k.held Route.dst request = k.at c := by
  cases request with
  | addRoute r | deleteRoute r =>
    obtain rfl : .ip r.protocolId r.dst = c := by simpa [RouteRequest.cell] using hcell
    rfl
  | addLabelRoute r | deleteLabelRoute r =>
    obtain ⟨l, hl, rfl⟩ := Option.map_eq_some_iff.mp hcell
    simp [held, hl, Kernel.at]

/-- An accepted request writes its value to its cell. -/
theorem Kernel.accept_at (k : Kernel CIDRNetwork) {request : RouteRequest} {c : RouteCell}
    (hcell : request.cell = some c) :
    (k.accept Route.dst request).at = Function.update k.at c request.value := by
  cases request with
  | addRoute r | deleteRoute r =>
    obtain rfl : .ip r.protocolId r.dst = c := by simpa [RouteRequest.cell] using hcell
    exact k.setRoute_at _ _ _
  | addLabelRoute r | deleteLabelRoute r =>
    obtain ⟨l, hl, rfl⟩ := Option.map_eq_some_iff.mp hcell
    simp only [accept, hl, Option.elim_some]
    exact k.setLabel_at _ _ _

namespace NetlinkSocket

/-- The new requests of a run, after the first `n`, all satisfy `G`. -/
def Trusted {κ : Type*} (G : Attempt → Prop) (n : ℕ) (s : NetlinkSocket κ) : Prop :=
  ∀ x ∈ s.attempts.drop n, G x

/-- Two states differ at most in one cell and in the requests that were added. -/
structure Elsewhere (c : RouteCell) (s s' : NetlinkSocket CIDRNetwork) : Prop where
  cache : ∀ c' ≠ c, s'.cacheAt c' = s.cacheAt c'
  kernel : ∀ c' ≠ c, s'.kernel.at c' = s.kernel.at c'
  mcast : s'.mcastRoutesCache = s.mcastRoutesCache
  link : s'.linkRoutesCache = s.linkRoutesCache
  grows : s.attempts <+: s'.attempts

variable {encode : RouteRequest → ResultCode} {reply : ℕ → ℕ} {c : RouteCell}
  {s s' s'' : NetlinkSocket CIDRNetwork}

namespace Elsewhere

private theorem refl (c : RouteCell) (s : NetlinkSocket CIDRNetwork) : Elsewhere c s s :=
  ⟨fun _ _ => rfl, fun _ _ => rfl, rfl, rfl, List.prefix_refl _⟩

private theorem trans (h : Elsewhere c s s') (h' : Elsewhere c s' s'') : Elsewhere c s s'' :=
  ⟨fun c' hc' => (h'.cache c' hc').trans (h.cache c' hc'),
    fun c' hc' => (h'.kernel c' hc').trans (h.kernel c' hc'), h'.mcast.trans h.mcast,
    h'.link.trans h.link, h.grows.trans h'.grows⟩

end Elsewhere

private theorem Trusted.of_elsewhere {G : Attempt → Prop} {n : ℕ} (h : Elsewhere c s s')
    (hT : Trusted G n s') : Trusted G n s := by
  obtain ⟨new, hnew⟩ := h.grows
  intro x hx
  refine hT x ?_
  rw [← hnew, List.drop_append]
  exact List.mem_append_left _ hx

section Request

variable (encode reply) (fail : ResultCode → NlException) (req : RouteRequest)

variable {req}

/-- A request changes the place it is about. -/
theorem Elsewhere.request (hcell : req.cell = some c) (s : NetlinkSocket CIDRNetwork) :
    Elsewhere c s (request (.byDestination encode reply) fail req s).1 := by
  rw [request_eq]
  refine ⟨fun _ _ => rfl, fun c' hc' => ?_, rfl, rfl, List.prefix_append _ _⟩
  show (ite _ _ _ : Kernel CIDRNetwork).at c' = _
  split
  · rw [NlSock.byDestination_key, s.kernel.accept_at hcell, Function.update_of_ne hc']
  · rfl

/-- It does not change the cache. -/
theorem request_cacheAt (req : RouteRequest) (s : NetlinkSocket CIDRNetwork) :
    (NetlinkSocket.request (.byDestination encode reply) fail req s).1.cacheAt = s.cacheAt := by
  rw [request_eq]
  rfl

end Request

section Harmless

variable {fail : ResultCode → NlException} {req : RouteRequest} {n : ℕ}

/-- The request just made is one of the new requests. -/
theorem trusted_request {κ : Type*} [DecidableEq κ] {nl : NlSock κ} {s : NetlinkSocket κ}
    {G : Attempt → Prop} (fail : ResultCode → NlException) (req : RouteRequest)
    (hn : n ≤ s.attempts.length) :
    Trusted G n (request nl fail req s).1 ↔ Trusted G n s ∧ G (s.attempt nl req) := by
  simp only [Trusted, request_eq, List.drop_append_of_le_length hn, List.forall_mem_append,
    List.forall_mem_singleton]

/-- The request that was just made is trusted. -/
theorem Trusted.attempt {κ : Type*} [DecidableEq κ] {nl : NlSock κ} {s : NetlinkSocket κ}
    {G : Attempt → Prop} (hn : n ≤ s.attempts.length)
    (hT : Trusted G n (request nl fail req s).1) : G (s.attempt nl req) :=
  ((trusted_request fail req hn).mp hT).2

/-- An accepted request throws nothing. -/
theorem request_of_accepted {κ : Type*} [DecidableEq κ] {nl : NlSock κ} {s : NetlinkSocket κ}
    (hn : n ≤ s.attempts.length)
    (hT : Trusted Attempt.Accepted n (request nl fail req s).1) :
    (request nl fail req s).2 = none :=
  (request_result _ fail req s).mpr (hT.attempt hn).status_eq

/-- A harmless request has written its value to its cell, or has failed and left the kernel as
it was, with nothing to replace. -/
theorem request_of_harmless (hcell : req.cell = some c) (hn : n ≤ s.attempts.length)
    (hT : Trusted Attempt.Harmless n (request (.byDestination encode reply) fail req s).1) :
    (request (.byDestination encode reply) fail req s).2 = none ∧
        (request (.byDestination encode reply) fail req s).1.kernel.at c = req.value ∨
      (request (.byDestination encode reply) fail req s).2 ≠ none ∧
        (request (.byDestination encode reply) fail req s).1.kernel = s.kernel ∧
        (req.isAdd → s.kernel.at c = none) := by
  rcases hT.attempt hn with haccepted | ⟨hstatus, hnew⟩
  · refine .inl ⟨(request_result _ fail req s).mpr haccepted.status_eq, ?_⟩
    simp only [request_eq, if_pos haccepted, NlSock.byDestination_key, s.kernel.accept_at hcell,
      Function.update_self]
  · have hrejected : ¬ (s.attempt (.byDestination encode reply) req).Accepted :=
      fun h => hstatus h.status_eq
    refine .inr ⟨fun h => hstatus ((request_result _ fail req s).mp h), ?_, fun hadd => ?_⟩
    · simp only [request_eq, if_neg hrejected]
    · rw [← s.kernel.held_eq hcell]
      exact hnew hadd

/-- A change of the cache alone, which puts `v` into one cell. -/
structure CacheWrite (c : RouteCell) (v : Option Route)
    (f : NetlinkSocket CIDRNetwork → NetlinkSocket CIDRNetwork) : Prop where
  cacheAt : ∀ s, (f s).cacheAt = Function.update s.cacheAt c v
  kernel : ∀ s, (f s).kernel = s.kernel
  mcast : ∀ s, (f s).mcastRoutesCache = s.mcastRoutesCache
  link : ∀ s, (f s).linkRoutesCache = s.linkRoutesCache
  attempts : ∀ s, (f s).attempts = s.attempts

private theorem CacheWrite.elsewhere {v : Option Route}
    {f : NetlinkSocket CIDRNetwork → NetlinkSocket CIDRNetwork} (h : CacheWrite c v f)
    (s : NetlinkSocket CIDRNetwork) : Elsewhere c s (f s) where
  cache c' hc' := by rw [h.cacheAt, Function.update_of_ne hc']
  kernel _ _ := by rw [h.kernel]
  mcast := h.mcast s
  link := h.link s
  grows := by rw [h.attempts]

private theorem eraseUnicast_write (protocol : UInt8) (dest : CIDRNetwork) :
    CacheWrite (.ip protocol dest) none (eraseUnicast protocol dest) :=
  ⟨fun s => s.cacheAt_eraseUnicast protocol dest, fun _ => rfl, fun _ => rfl, fun _ => rfl,
    fun _ => rfl⟩

private theorem emplaceUnicast_write (route : Route) :
    CacheWrite (.ip route.protocolId route.dst) (some route) (emplaceUnicast route) :=
  ⟨fun s => s.cacheAt_emplaceUnicast route, fun _ => rfl, fun _ => rfl, fun _ => rfl, fun _ => rfl⟩

private theorem eraseMpls_write (protocol : UInt8) (label : UInt32) :
    CacheWrite (.label protocol label) none (eraseMpls protocol label) :=
  ⟨fun s => s.cacheAt_eraseMpls protocol label, fun _ => rfl, fun _ => rfl, fun _ => rfl,
    fun _ => rfl⟩

private theorem emplaceMpls_write (label : UInt32) (route : Route) :
    CacheWrite (.label route.protocolId label) (some route) (emplaceMpls label route) :=
  ⟨fun s => s.cacheAt_emplaceMpls label route, fun _ => rfl, fun _ => rfl, fun _ => rfl,
    fun _ => rfl⟩

/-- What a change of one cell may leave behind: the cell of the kernel is that of the cache, and
holds `v` if the change completed. -/
structure Settles (c : RouteCell) (v : Option Route) (s : NetlinkSocket CIDRNetwork)
    (r : NetlinkSocket CIDRNetwork × Option NlException) : Prop extends Elsewhere c s r.1 where
  mirrored : r.1.kernel.at c = r.1.cacheAt c
  completed : r.2 = none → r.1.cacheAt c = v
  old_or_new : r.1.cacheAt c = s.cacheAt c ∨ r.1.cacheAt c = none ∨ r.1.cacheAt c = v

section Settles

variable {v : Option Route} {r : NetlinkSocket CIDRNetwork × Option NlException} {c' : RouteCell}

/-- A cell in which the kernel and the cache agree, whether or not it is the one that changes. -/
theorem Settles.mirrored_at (hset : Settles c v s r) (h : s.kernel.at c' = s.cacheAt c') :
    r.1.kernel.at c' = r.1.cacheAt c' := by
  by_cases hcc : c' = c
  · rw [hcc]
    exact hset.mirrored
  · rw [hset.kernel _ hcc, hset.toElsewhere.cache _ hcc]
    exact h

/-- A route that fits in its cell, whether or not the cell is the one that changes. -/
theorem Settles.fitsIn_at (hset : Settles c v s r)
    (h : ∀ w, s.cacheAt c' = some w → w.FitsIn c') (hv : ∀ w, v = some w → w.FitsIn c) :
    ∀ w, r.1.cacheAt c' = some w → w.FitsIn c' := by
  intro w hw
  by_cases hcc : c' = c
  · subst hcc
    rcases hset.old_or_new with hold | hnone | hnew
    · exact h w (hold.symm.trans hw)
    · simp [hnone] at hw
    · exact hv w (hnew.symm.trans hw)
  · exact h w ((hset.toElsewhere.cache _ hcc).symm.trans hw)

end Settles

variable {v : Route} {er em : NetlinkSocket CIDRNetwork → NetlinkSocket CIDRNetwork}

/-- Erase a cache entry, send the request for the new route, and put it into the cache. -/
theorem Settles.replace (her : CacheWrite c none er) (hem : CacheWrite c (some v) em)
    (hcell : req.cell = some c) (hvalue : req.value = some v) (hadd : req.isAdd)
    (hn : n ≤ s.attempts.length)
    (hT : Trusted Attempt.Harmless n (andThen (modify er)
      (andThen (request (.byDestination encode reply) fail req) (modify em)) s).1) :
    Settles c (some v) s (andThen (modify er)
      (andThen (request (.byDestination encode reply) fail req) (modify em)) s) := by
  rw [andThen_modify] at hT ⊢
  have hn' : n ≤ (er s).attempts.length := by rwa [her.attempts]
  have hlocal := (her.elsewhere s).trans (.request encode reply fail hcell (er s))
  have hcache : (request (.byDestination encode reply) fail req (er s)).1.cacheAt c = none := by
    rw [request_cacheAt, her.cacheAt, Function.update_self]
  cases hres : (request (.byDestination encode reply) fail req (er s)).2 with
  | none =>
    rw [andThen_of_none hres, modify_apply] at hT ⊢
    have hwritten : (request (.byDestination encode reply) fail req (er s)).1.kernel.at c =
        some v := by
      rcases request_of_harmless hcell hn' (hT.of_elsewhere (hem.elsewhere _)) with
        ⟨-, hwritten⟩ | ⟨hfailed, -⟩
      · rwa [hvalue] at hwritten
      · exact absurd hres hfailed
    have hnew : (em (request (.byDestination encode reply) fail req (er s)).1).cacheAt c =
        some v := by
      rw [hem.cacheAt, Function.update_self]
    exact ⟨hlocal.trans (hem.elsewhere _), by rw [hem.kernel, hwritten, hnew], fun _ => hnew,
      .inr (.inr hnew)⟩
  | some e =>
    rw [andThen_of_some hres] at hT ⊢
    refine ⟨hlocal, ?_, nofun, .inr (.inl hcache)⟩
    rcases request_of_harmless hcell hn' hT with ⟨hdone, -⟩ | ⟨-, hsame, hnothing⟩
    · exact absurd (hdone.symm.trans hres) (by simp)
    · rw [hsame, hnothing hadd, hcache]

/-- Send the request to delete a route, and erase its cache entry. -/
theorem Settles.remove (her : CacheWrite c none er) (hcell : req.cell = some c)
    (hvalue : req.value = none) (hmirror : s.kernel.at c = s.cacheAt c)
    (hn : n ≤ s.attempts.length)
    (hT : Trusted Attempt.Harmless n
      (andThen (request (.byDestination encode reply) fail req) (modify er) s).1) :
    Settles c none s
      (andThen (request (.byDestination encode reply) fail req) (modify er) s) := by
  have hlocal := Elsewhere.request encode reply fail hcell s
  cases hres : (request (.byDestination encode reply) fail req s).2 with
  | none =>
    rw [andThen_of_none hres, modify_apply] at hT ⊢
    have hwritten : (request (.byDestination encode reply) fail req s).1.kernel.at c = none := by
      rcases request_of_harmless hcell hn (hT.of_elsewhere (her.elsewhere _)) with
        ⟨-, hwritten⟩ | ⟨hfailed, -⟩
      · rwa [hvalue] at hwritten
      · exact absurd hres hfailed
    have hnew : (er (request (.byDestination encode reply) fail req s).1).cacheAt c = none := by
      rw [her.cacheAt, Function.update_self]
    exact ⟨hlocal.trans (her.elsewhere _), by rw [her.kernel, hwritten, hnew], fun _ => hnew,
      .inr (.inr hnew)⟩
  | some e =>
    rw [andThen_of_some hres] at hT ⊢
    have hcache := congrFun (request_cacheAt encode reply fail req s) c
    refine ⟨hlocal, ?_, nofun, .inl hcache⟩
    rcases request_of_harmless hcell hn hT with ⟨hdone, -⟩ | ⟨-, hsame, -⟩
    · exact absurd (hdone.symm.trans hres) (by simp)
    · rw [hsame, hcache, hmirror]

/-- Nothing happens, because of an exception or because the cell is as it should be. -/
theorem Settles.unchanged {w : Option Route} {res : Option NlException}
    (hmirror : s.kernel.at c = s.cacheAt c) (hres : res = none → s.cacheAt c = w) :
    Settles c w s (s, res) :=
  ⟨.refl c s, hmirror, hres, .inl rfl⟩

/-- A first step that leaves the cache alone. -/
theorem Settles.after {w : Option Route} {r : NetlinkSocket CIDRNetwork × Option NlException}
    (hlocal : Elsewhere c s s') (hcache : s'.cacheAt = s.cacheAt) (h : Settles c w s' r) :
    Settles c w s r :=
  ⟨hlocal.trans h.toElsewhere, h.mirrored, h.completed, by rw [← hcache]; exact h.old_or_new⟩

/-- Adding a unicast route settles its place. -/
theorem Settles.doAddUpdateUnicastRoute {r : Route}
    (hmirror : s.kernel.at (.ip r.protocolId r.dst) = s.cacheAt (.ip r.protocolId r.dst))
    (hkeyed : ∀ old, s.cacheAt (.ip r.protocolId r.dst) = some old →
      old.FitsIn (.ip r.protocolId r.dst))
    (hn : n ≤ s.attempts.length)
    (hT : Trusted Attempt.Harmless n
      (doAddUpdateUnicastRoute (.byDestination encode reply) r s).1) :
    Settles (.ip r.protocolId r.dst) (some r.withDefaultPriority) s
      (doAddUpdateUnicastRoute (.byDestination encode reply) r s) := by
  have herase : CacheWrite (.ip r.protocolId r.dst) none
      (eraseUnicast r.withDefaultPriority.protocolId r.withDefaultPriority.dst) := by
    simpa using eraseUnicast_write r.protocolId r.dst
  have hemplace : CacheWrite (.ip r.protocolId r.dst) (some r.withDefaultPriority)
      (emplaceUnicast r.withDefaultPriority) := by
    simpa using emplaceUnicast_write r.withDefaultPriority
  have hcell : (RouteRequest.addRoute r.withDefaultPriority).cell =
      some (.ip r.protocolId r.dst) := by
    simp [RouteRequest.cell]
  obtain ⟨ex, -, heq⟩ | ⟨-, ⟨hcached, heq⟩ | ⟨-, heq⟩ | ⟨old, hiter, heq⟩⟩ :=
    doAddUpdateUnicastRoute_cases (.byDestination encode reply) r s <;> rw [heq] at hT ⊢
  · exact .unchanged hmirror nofun
  · exact .unchanged hmirror fun _ => hcached
  · exact .replace herase hemplace hcell rfl rfl hn hT
  · have hold : (RouteRequest.deleteRoute old).cell = some (.ip r.protocolId r.dst) := by
      obtain ⟨hprotocol, hdst, -⟩ := hkeyed old hiter
      simp [RouteRequest.cell, hprotocol, hdst]
    have hlocal := Elsewhere.request encode reply (.failedToDeleteOld old) hold s
    refine .after hlocal (request_cacheAt ..) ?_
    cases hres : (request (.byDestination encode reply) (.failedToDeleteOld old)
      (.deleteRoute old) s).2 with
    | none =>
      rw [andThen_of_none hres] at hT ⊢
      exact .replace herase hemplace hcell rfl rfl (hn.trans hlocal.grows.length_le) hT
    | some e =>
      rw [andThen_of_some hres] at hT ⊢
      refine .unchanged ?_ nofun
      rcases request_of_harmless hold hn hT with ⟨hdone, -⟩ | ⟨-, hkernel, -⟩
      · exact absurd (hdone.symm.trans hres) (by simp)
      · rw [hkernel, hmirror, request_cacheAt]

/-- So does deleting one. -/
theorem Settles.doDeleteUnicastRoute {r : Route}
    (hmirror : s.kernel.at (.ip r.protocolId r.dst) = s.cacheAt (.ip r.protocolId r.dst))
    (hn : n ≤ s.attempts.length)
    (hT : Trusted Attempt.Harmless n
      (doDeleteUnicastRoute (.byDestination encode reply) r s).1) :
    Settles (.ip r.protocolId r.dst) none s
      (doDeleteUnicastRoute (.byDestination encode reply) r s) := by
  obtain ⟨ex, -, heq⟩ | ⟨-, ⟨habsent, heq⟩ | heq⟩ :=
    doDeleteUnicastRoute_cases (.byDestination encode reply) r s <;> rw [heq] at hT ⊢
  · exact .unchanged hmirror nofun
  · exact .unchanged hmirror fun _ => habsent
  · exact .remove (eraseUnicast_write _ _) rfl rfl hmirror hn hT

/-- And adding a label route. -/
theorem Settles.doAddUpdateMplsRoute {r : Route} {label : UInt32}
    (hlabel : r.mplsLabel = some label)
    (hmirror : s.kernel.at (.label r.protocolId label) = s.cacheAt (.label r.protocolId label))
    (hn : n ≤ s.attempts.length)
    (hT : Trusted Attempt.Harmless n
      (doAddUpdateMplsRoute (.byDestination encode reply) r s).1) :
    Settles (.label r.protocolId label) (some r) s
      (doAddUpdateMplsRoute (.byDestination encode reply) r s) := by
  obtain ⟨hnone, -⟩ | ⟨l, hl, hcases⟩ :=
    doAddUpdateMplsRoute_cases (.byDestination encode reply) r s
  · simp [hlabel] at hnone
  obtain rfl : label = l := Option.some_injective _ (hlabel.symm.trans hl)
  obtain ⟨hcached, heq⟩ | heq := hcases <;> rw [heq] at hT ⊢
  · exact .unchanged hmirror fun _ => hcached
  · refine .replace (eraseMpls_write _ _) (emplaceMpls_write label r) ?_ rfl rfl hn hT
    simp [RouteRequest.cell, hlabel]

/-- And deleting one. -/
theorem Settles.doDeleteMplsRoute {r : Route} {label : UInt32} (hlabel : r.mplsLabel = some label)
    (hmirror : s.kernel.at (.label r.protocolId label) = s.cacheAt (.label r.protocolId label))
    (hn : n ≤ s.attempts.length)
    (hT : Trusted Attempt.Harmless n
      (doDeleteMplsRoute (.byDestination encode reply) r s).1) :
    Settles (.label r.protocolId label) none s
      (doDeleteMplsRoute (.byDestination encode reply) r s) := by
  obtain ⟨hnone, -⟩ | ⟨l, hl, hcases⟩ := doDeleteMplsRoute_cases (.byDestination encode reply) r s
  · simp [hlabel] at hnone
  obtain rfl : label = l := Option.some_injective _ (hlabel.symm.trans hl)
  obtain ⟨habsent, heq⟩ | heq := hcases <;> rw [heq] at hT ⊢
  · exact .unchanged hmirror fun _ => habsent
  · refine .remove (eraseMpls_write _ _) ?_ rfl hmirror hn hT
    simp [RouteRequest.cell, hlabel]

end Harmless

end NetlinkSocket

end Fbmeshd
