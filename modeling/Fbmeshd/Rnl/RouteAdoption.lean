import Fbmeshd.Rnl.LinkSync
import Fbmeshd.Rnl.RouteParser

/-!
# Adopting the routes of the kernel

At startup `updateRouteCache` puts the routes that the kernel dumps into the caches. Where a route
goes depends on its destination, its scope and, for a link route, on its only next hop. A route
without a destination attribute goes nowhere, since its address is empty and the exception about
that is swallowed; a later route for the same place takes over.
-/

namespace Fbmeshd

open Fallible Bytes Reader

namespace NetlinkRouteMessage

variable {m : Memory} {fuel nlmsg : ℕ} {family dstLen : UInt8} {a : Rtattr}
  {st st' : RouteState} {route : Route}

/-- The families that have addresses. -/
def IsIp (family : UInt8) : Prop := family = AF_INET ∨ family = AF_INET6

/-- What one attribute of a route changes. -/
theorem parseRouteAttribute_cases
    (h : (parseRouteAttribute fuel family dstLen a st).eval m = .ok st') :
    a.type = RTA_DST ∧ (∃ dst label family', (IsIp family → dst.1 ≠ .empty) ∧ st' = { st with
        route := { st.route with dst := dst, mplsLabel := label, family := family' } }) ∨
      a.type ≠ RTA_DST ∧ ∃ priority nextHops nhBuilder singleNextHopFlag,
        st' = ⟨{ st.route with priority, nextHops }, nhBuilder, singleNextHopFlag⟩ := by
  rw [parseRouteAttribute] at h
  split at h
  next htype =>
    refine .inl ⟨htype, ?_⟩
    split at h
    next hmpls =>
      refine ⟨st.route.dst, _, _, fun hip => ?_, (Except.ok.inj h).symm⟩
      rcases hip with rfl | rfl <;> exact absurd hmpls (by decide)
    rw [parseIp, ipAddressAt] at h
    split at h
    · exact ⟨_, _, _, fun _ => IPAddress.noConfusion, (Except.ok.inj h).symm⟩
    split at h
    · exact ⟨_, _, _, fun _ => IPAddress.noConfusion, (Except.ok.inj h).symm⟩
    next hinet hinet6 =>
      exact ⟨st.route.dst, _, _, fun hip => absurd hip (not_or.mpr ⟨hinet, hinet6⟩),
        (Except.ok.inj h).symm⟩
  next htype =>
    refine .inr ⟨htype, ?_⟩
    split at h
    · exact ⟨_, _, _, _, (Except.ok.inj h).symm⟩
    split at h
    · rw [eval_bind] at h
      cases hhops : (parseNextHops fuel a family).eval m with
      | error e => simp [hhops, Except.bind] at h
      | ok hops =>
        rw [hhops] at h
        exact ⟨_, _, _, _, (Except.ok.inj h).symm⟩
    · rw [eval_bind] at h
      cases hnh : (parseNextHopAttribute fuel family a st.nhBuilder).eval m with
      | error e => simp [hnh, Except.bind] at h
      | ok nh =>
        rw [hnh] at h
        exact ⟨_, _, _, _, (Except.ok.inj h).symm⟩

/-- Two routes agree in what `parseMessage` takes from the header. -/
structure SameHeader (r r' : Route) : Prop where
  type : r.type = r'.type
  routeTable : r.routeTable = r'.routeTable
  protocolId : r.protocolId = r'.protocolId
  scope : r.scope = r'.scope
  flags : r.flags = r'.flags
  isValid : r.isValid = r'.isValid

/-- The attributes leave what came from the header alone, and set the destination of an IP route
if there is one among them. -/
theorem foldlM_parseRouteAttribute {attrs : List Rtattr}
    (h : attrs.foldlM (fun st a => (parseRouteAttribute fuel family dstLen a st).eval m) st =
      .ok st') :
    SameHeader st'.route st.route ∧ (IsIp family →
      (st'.route.dst.1 = .empty ↔ st.route.dst.1 = .empty ∧ ∀ a ∈ attrs, a.type ≠ RTA_DST)) := by
  induction attrs generalizing st with
  | nil =>
    obtain rfl := Except.ok.inj h
    exact ⟨⟨rfl, rfl, rfl, rfl, rfl, rfl⟩, fun _ => by simp⟩
  | cons a attrs ih =>
    rw [List.foldlM_cons] at h
    cases hvisit : (parseRouteAttribute fuel family dstLen a st).eval m with
    | error e =>
      rw [hvisit] at h
      nomatch h
    | ok st₁ =>
      rw [hvisit] at h
      obtain ⟨hheader, hdst⟩ := ih h
      rw [List.forall_mem_cons]
      obtain ⟨htype, _, _, _, hset, rfl⟩ | ⟨htype, _, _, _, _, rfl⟩ :=
        parseRouteAttribute_cases hvisit
      · refine ⟨⟨hheader.type, hheader.routeTable, hheader.protocolId, hheader.scope,
          hheader.flags, hheader.isValid⟩, fun hip => ?_⟩
        simp [hdst hip, hset hip, htype]
      · refine ⟨⟨hheader.type, hheader.routeTable, hheader.protocolId, hheader.scope,
          hheader.flags, hheader.isValid⟩, fun hip => ?_⟩
        simp [hdst hip, htype]

/-- The message has a destination attribute. -/
def HasDst (m : Memory) (nlmsg : ℕ) : Prop :=
  ∃ attrs, Rtattr.Listed m (nlmsg + 28) (sub64 (u32 m nlmsg) 28) attrs ∧
    ∃ a ∈ attrs, a.type = RTA_DST

/-- What `parseMessage` makes of the header, and when it leaves the destination empty. -/
theorem parseMessage_spec (h : (parseMessage fuel nlmsg).eval m = .ok route) :
    SameHeader route (headerRoute m nlmsg) ∧
      (IsIp (m (nlmsg + 16)) → (route.dst.1 = .empty ↔ ¬ HasDst m nlmsg)) := by
  rw [eval_parseMessage] at h
  cases hwalk : (Rtattr.walk (parseRouteAttribute fuel (m (nlmsg + 16)) (m (nlmsg + 17))) fuel
      (nlmsg + 28) (sub64 (u32 m nlmsg) 28) { route := headerRoute m nlmsg }).eval m with
  | error e =>
    rw [hwalk] at h
    nomatch h
  | ok st =>
    rw [hwalk] at h
    obtain rfl := Except.ok.inj h
    obtain ⟨attrs, hlisted, hfold⟩ := Rtattr.listed_of_eval_walk hwalk
    obtain ⟨hheader, hdst⟩ := foldlM_parseRouteAttribute hfold
    have hbuild : SameHeader (st.build (m (nlmsg + 16))) st.route ∧
        (st.build (m (nlmsg + 16))).dst = st.route.dst := by
      rw [RouteState.build]
      split <;> exact ⟨⟨rfl, rfl, rfl, rfl, rfl, rfl⟩, rfl⟩
    obtain ⟨⟨h₁, h₂, h₃, h₄, h₅, h₆⟩, hsame⟩ := hbuild
    refine ⟨⟨h₁.trans hheader.type, h₂.trans hheader.routeTable, h₃.trans hheader.protocolId,
      h₄.trans hheader.scope, h₅.trans hheader.flags, h₆.trans hheader.isValid⟩, fun hip => ?_⟩
    have hempty : (headerRoute m nlmsg).dst.1 = .empty := rfl
    rw [hsame, hdst hip, and_iff_right hempty]
    constructor
    · rintro hnone ⟨attrs', hlisted', a, ha, htype⟩
      rw [hlisted'.unique hlisted] at ha
      exact hnone a ha htype
    · exact fun hno a ha htype => hno ⟨attrs, hlisted, a, ha, htype⟩

end NetlinkRouteMessage

namespace NetlinkSocket

section Slots

variable {κ : Type*} (s : NetlinkSocket κ)

/-- A place for a route in the unicast or link caches. -/
inductive RouteSlot where
  | unicast (protocol : UInt8) (dest : CIDRNetwork)
  | link (protocol : UInt8) (key : CIDRNetwork × String)
  deriving DecidableEq

/-- What the caches have in a place. -/
def heldAt : RouteSlot → Option Route
  | .unicast protocol dest => (s.unicastRoutesCache protocol).lookup dest
  | .link protocol key => (s.linkRoutesCache protocol).lookup key

/-- Where `updateRouteCache` puts a route, if anywhere. -/
def slotOf (route : Route) : Option RouteSlot :=
  if route.routeTable ≠ RT_TABLE_MAIN ∨ route.flags.getD 0 &&& RTM_F_CLONED ≠ 0 then none
  else if route.dst.1.isMulticast ≠ some false then none
  else if route.scope = RT_SCOPE_LINK then
    (s.routeInterface route).map fun ifName => .link route.protocolId (route.dst, ifName)
  else some (.unicast route.protocolId route.dst)

/-- The route is in the unicast or link cache of its protocol. -/
def Caches (route : Route) : Prop :=
  (∃ dest, (s.unicastRoutesCache route.protocolId).lookup dest = some route) ∨
    ∃ key, (s.linkRoutesCache route.protocolId).lookup key = some route

variable {s} {route : Route} {routes : List Route} {c : RouteSlot}

private theorem lookup_updateEntry (hvalid : route.isValid) (k k' : CIDRNetwork × String)
    (table : NlLinkRoutes) :
    (updateEntry k route table).lookup k' = if k' = k then some route else table.lookup k' := by
  rw [updateEntry, if_pos hvalid]
  split
  next heq => rw [heq, AList.lookup_insert]
  next hne => rw [AList.lookup_insert_ne hne, AList.lookup_erase_ne hne]

private theorem heldAt_setLinkRoutes (protocol : UInt8) (table : NlLinkRoutes) :
    (s.setLinkRoutes protocol table).heldAt c =
      match c with
      | .unicast _ _ => s.heldAt c
      | .link protocol' k => if protocol' = protocol then table.lookup k else s.heldAt c := by
  cases c with
  | unicast => rfl
  | link protocol' k =>
    simp only [heldAt, setLinkRoutes, Function.update_apply]
    split <;> rfl

private theorem heldAt_emplaceUnicast :
    (emplaceUnicast route s).heldAt c =
      if c = .unicast route.protocolId route.dst then some route else s.heldAt c := by
  cases c with
  | unicast protocol dest =>
    simp only [heldAt, emplaceUnicast, AList.lookup_update_insert, RouteSlot.unicast.injEq]
  | link => rfl

private theorem heldAt_eraseUnicast {protocol : UInt8} {dest : CIDRNetwork}
    (hne : c ≠ .unicast protocol dest) : (eraseUnicast protocol dest s).heldAt c = s.heldAt c := by
  cases c with
  | unicast protocol' dest' =>
    simp only [heldAt, eraseUnicast, AList.lookup_update_erase]
    rw [if_neg]
    rintro ⟨rfl, rfl⟩
    exact hne rfl
  | link => rfl

private theorem slotOf_eq_some (h : s.slotOf route = some c) :
    route.dst.1.isMulticast = some false ∧
      ((∃ ifName, c = .link route.protocolId (route.dst, ifName)) ∨
        c = .unicast route.protocolId route.dst) := by
  rw [slotOf] at h
  split at h
  · nomatch h
  split at h
  · nomatch h
  next hmulti =>
    refine ⟨not_not.mp hmulti, ?_⟩
    split at h
    · obtain ⟨ifName, -, rfl⟩ := Option.map_eq_some_iff.mp h
      exact .inl ⟨ifName, rfl⟩
    · exact .inr (Option.some_injective _ h).symm

/-- Link scope decides between the two caches. -/
theorem scope_of_slotOf (h : s.slotOf route = some c) :
    route.scope = RT_SCOPE_LINK ↔ ∃ protocol key, c = .link protocol key := by
  rw [slotOf] at h
  split at h
  · nomatch h
  split at h
  · nomatch h
  split at h
  next hlink =>
    obtain ⟨ifName, -, rfl⟩ := Option.map_eq_some_iff.mp h
    exact iff_of_true hlink ⟨_, _, rfl⟩
  next hlink =>
    obtain rfl := Option.some_injective _ h
    exact iff_of_false hlink (by simp)

/-- A valid route is put into its place and changes no other. -/
theorem heldAt_doHandleRouteEvent (hvalid : route.isValid) :
    (doHandleRouteEvent route true s).heldAt c =
      if s.slotOf route = some c then some route else s.heldAt c := by
  simp only [doHandleRouteEvent, doUpdateRouteCache, slotOf]
  by_cases hskip : route.routeTable ≠ RT_TABLE_MAIN ∨ route.flags.getD 0 &&& RTM_F_CLONED ≠ 0
  · simp only [if_pos hskip, reduceCtorEq, if_false]
  simp only [if_neg hskip]
  cases hmulti : route.dst.1.isMulticast with
  | none => simp
  | some multicast =>
    cases multicast with
    | true =>
      -- a multicast route goes to a cache of its own
      cases s.routeInterface route with
      | none => simp
      | some ifName => cases c <;> simp [heldAt, setMcast]
    | false =>
      simp only [ne_eq, not_true_eq_false, if_false]
      by_cases hlink : route.scope = RT_SCOPE_LINK
      · simp only [if_pos hlink]
        cases s.routeInterface route with
        | none => simp
        | some ifName =>
          simp only [Option.map_some, Option.some.injEq, heldAt_setLinkRoutes]
          cases c with
          | unicast => simp
          | link protocol k =>
            simp only [lookup_updateEntry hvalid, RouteSlot.link.injEq]
            by_cases hprotocol : protocol = route.protocolId
            · subst hprotocol
              by_cases hk : k = (route.dst, ifName)
              · simp [hk]
              · simp [hk, Ne.symm hk, heldAt]
            · simp [hprotocol, Ne.symm hprotocol]
      · simp only [if_neg hlink, hvalid, and_self, if_true, Option.some.injEq,
          heldAt_emplaceUnicast]
        by_cases hc : c = .unicast route.protocolId route.dst
        · rw [if_pos hc, if_pos hc.symm]
        · rw [if_neg hc, if_neg (Ne.symm hc), heldAt_eraseUnicast hc]

private theorem links_doHandleRouteEvent : (doHandleRouteEvent route true s).links = s.links := by
  simp only [doHandleRouteEvent, doUpdateRouteCache]
  repeat' split
  all_goals rfl

/-- The place of a route depends on the state by its links only. -/
theorem slotOf_congr {s' : NetlinkSocket κ} (h : s'.links = s.links) : s'.slotOf = s.slotOf := by
  funext route
  simp only [slotOf, routeInterface, getIfName, h]

/-- The last of the routes for a place is in it. -/
theorem heldAt_updateRouteCache (hvalid : ∀ r ∈ routes, r.isValid) :
    (updateRouteCache routes s).heldAt c =
      ((routes.filter fun r => s.slotOf r = some c).getLast?).or (s.heldAt c) := by
  induction routes generalizing s with
  | nil => rfl
  | cons r routes ih =>
    obtain ⟨hr, hroutes⟩ := List.forall_mem_cons.mp hvalid
    rw [updateRouteCache, List.foldl_cons, ← updateRouteCache, ih hroutes,
      slotOf_congr links_doHandleRouteEvent, heldAt_doHandleRouteEvent hr, List.filter_cons]
    by_cases hslot : s.slotOf r = some c
    · rw [if_pos hslot, if_pos (by simpa using hslot), List.getLast?_cons]
      cases (routes.filter fun r => s.slotOf r = some c).getLast? <;> rfl
    · rw [if_neg hslot, if_neg (by simpa using hslot)]

end Slots

section Deletion

variable {κ : Type*} {s : NetlinkSocket κ} {route : Route} {n : ℕ}

/-- An accepted request that does not delete the route. -/
def Spares (route : Route) (x : Attempt) : Prop := x.Accepted ∧ x.request ≠ .deleteRoute route

/-- A request to delete the route was accepted, unless all accepted requests spare it. -/
theorem exists_deletion (hT : Trusted Attempt.Accepted n s) (h : ¬ Trusted (Spares route) n s) :
    ∃ x ∈ s.attempts.drop n, x.request = .deleteRoute route ∧ x.Accepted := by
  simp only [Trusted, not_forall] at h
  obtain ⟨x, hx, hnot⟩ := h
  refine ⟨x, hx, ?_, hT x hx⟩
  by_contra hne
  exact hnot ⟨hT x hx, hne⟩

/-- In the first loop of `doSyncUnicastRoutes`, the deletion of a route is still to come. -/
structure Pending (protocol : UInt8) (dest : CIDRNetwork) (route : Route) (n : ℕ)
    (remaining : List CIDRNetwork) (s : NetlinkSocket κ) : Prop where
  recorded : n ≤ s.attempts.length
  mem : dest ∈ remaining
  held : (s.unicastRoutesCache protocol).lookup dest = some route
  keyed : ∀ d r, (s.unicastRoutesCache protocol).lookup d = some r → r.FitsIn (.ip protocol d)

variable [DecidableEq κ] {nl : NlSock κ}

private theorem Pending.round {protocol : UInt8} {dest d : CIDRNetwork} {ds : List CIDRNetwork}
    (h : Pending protocol dest route n (d :: ds) s)
    (hT : Trusted (Spares route) n (deleteCached nl protocol d s).1) :
    (deleteCached nl protocol d s).2 = none ∧
      Pending protocol dest route n ds (deleteCached nl protocol d s).1 := by
  cases hd : (s.unicastRoutesCache protocol).lookup d with
  | none =>
    have hne : dest ≠ d := by
      rintro rfl
      simp [h.held] at hd
    simp only [deleteCached, hd]
    exact ⟨trivial, h.recorded, List.mem_of_ne_of_mem hne h.mem, h.held, h.keyed⟩
  | some r =>
    obtain ⟨rfl, rfl, hcheck⟩ := h.keyed d r hd
    simp only [deleteCached, hd] at hT ⊢
    obtain ⟨_, hfail, -⟩ | ⟨-, ⟨hnone, -⟩ | heq⟩ := doDeleteUnicastRoute_cases nl r s
    · simp [hcheck] at hfail
    · simp [hd] at hnone
    rw [heq, removeUnicast] at hT ⊢
    have hreq := Reflects.first (reflects_modify (f := eraseUnicast _ _) fun _ => rfl) hT
    obtain ⟨haccepted, hspared⟩ := hreq.attempt h.recorded
    have hres := (request_result nl (.failedToDelete r.dst) (.deleteRoute r) s).mpr
      haccepted.status_eq
    rw [andThen_of_none hres, modify_apply]
    -- the requests so far have spared the route, so its turn has not come
    have hne : dest ≠ r.dst := by
      rintro rfl
      obtain rfl := Option.some_injective _ (h.held.symm.trans hd)
      exact hspared rfl
    have hcache : ∀ d', ((eraseUnicast r.protocolId r.dst (request nl (.failedToDelete r.dst)
        (.deleteRoute r) s).1).unicastRoutesCache r.protocolId).lookup d' =
          if d' = r.dst then none else (s.unicastRoutesCache r.protocolId).lookup d' := by
      intro d'
      simp only [eraseUnicast, AList.lookup_update_erase, true_and, request_eq]
    refine ⟨rfl, ?_, List.mem_of_ne_of_mem hne h.mem, ?_, fun d' r' hr' => ?_⟩
    · simp only [eraseUnicast, request_eq, List.length_append]
      exact h.recorded.trans (Nat.le_add_right _ _)
    · rw [hcache, if_neg hne]
      exact h.held
    · rw [hcache] at hr'
      split at hr'
      · exact absurd hr' (by simp)
      · exact h.keyed d' r' hr'

/-- `doSyncUnicastRoutes` deletes a cached route that the database lacks, if its requests are
accepted. -/
theorem doSyncUnicastRoutes_deletes {protocol : UInt8} {dest : CIDRNetwork}
    {order : IterationOrder CIDRNetwork} {db : NlUnicastRoutes}
    (hkeyed : ∀ d r, (s.unicastRoutesCache protocol).lookup d = some r → r.FitsIn (.ip protocol d))
    (hheld : (s.unicastRoutesCache protocol).lookup dest = some route)
    (hlacks : db.lookup dest = none)
    (hT : Trusted Attempt.Accepted s.attempts.length
      (doSyncUnicastRoutes nl order protocol db s).1) :
    ∃ x ∈ (doSyncUnicastRoutes nl order protocol db s).1.attempts.drop s.attempts.length,
      x.request = .deleteRoute route ∧ x.Accepted := by
  refine exists_deletion hT fun hspares => ?_
  have hmem := (mem_visit_stale order (s.unicastRoutesCache protocol) db dest).mpr
    ⟨by simp [hheld], hlacks⟩
  have hfirst := Reflects.first (.forEach (f := fun kv : Σ _ : CIDRNetwork, Route =>
    doAddUpdateUnicastRoute nl kv.2) (fun kv => reflects_doAddUpdateUnicastRoute kv.2) _) hspares
  obtain ⟨-, hend⟩ := forEach_completes (Q := Pending protocol dest route s.attempts.length)
    (reflects_deleteCached protocol) (fun _ _ _ h hT => h.round hT)
    ⟨le_rfl, hmem, hheld, hkeyed⟩ hfirst
  exact List.not_mem_nil hend.mem

/-- `doSyncUnicastRoutes` may come first to a cached route that its check refuses. Then it throws
and sends nothing. -/
theorem exists_doSyncUnicastRoutes_stuck (nl : NlSock κ) {protocol : UInt8} {dest : CIDRNetwork}
    {ex : NlException} (hheld : (s.unicastRoutesCache protocol).lookup dest = some route)
    (hcheck : checkUnicastRoute route = some ex) :
    ∃ order, (doSyncUnicastRoutes nl order protocol ∅ s).1 = s := by
  refine ⟨.startingWith dest, ?_⟩
  have hmem : dest ∈ (s.unicastRoutesCache protocol).keys.filter
      fun d => ((∅ : NlUnicastRoutes).lookup d).isNone :=
    List.mem_filter.mpr ⟨AList.lookup_isSome.mp (by simp [hheld]), by simp⟩
  have hstuck : deleteCached nl protocol dest s = (s, some ex) := by
    simp only [deleteCached, hheld, doDeleteUnicastRoute, hcheck]
  unfold doSyncUnicastRoutes
  dsimp only [IterationOrder.startingWith]
  rw [if_pos hmem, forEach, andThen_assoc, andThen_of_some (by rw [hstuck]), hstuck]

/-- `doSyncLinkRoutes` deletes a cached route that the database lacks, if its requests are
accepted. -/
theorem doSyncLinkRoutes_deletes {protocol : UInt8} {k : CIDRNetwork × String} {db : NlLinkRoutes}
    (hheld : (s.linkRoutesCache protocol).lookup k = some route) (hlacks : db.lookup k = none)
    (hT : Trusted Attempt.Accepted s.attempts.length (doSyncLinkRoutes nl protocol db s).1) :
    ∃ x ∈ (doSyncLinkRoutes nl protocol db s).1.attempts.drop s.attempts.length,
      x.request = .deleteRoute route ∧ x.Accepted := by
  refine exists_deletion hT fun hspares => ?_
  have hmem : k ∈ staleLinks (s.linkRoutesCache protocol) db :=
    mem_staleLinks.mpr ⟨by simp [hheld], hlacks⟩
  have hrest : Reflects (Trusted (Spares route) s.attempts.length)
      (andThen (forEach (addNewLink nl (s.linkRoutesCache protocol)) db.entries)
        (modify (setLinkRoutes protocol db))) := by
    refine .andThen (.forEach (fun e s' hT => ?_) _) (reflects_modify (f := setLinkRoutes _ _)
      fun _ => rfl)
    simp only [addNewLink] at hT
    split at hT
    · exact hT
    · exact reflects_request _ _ s' hT
  have hdel : ∀ k', Reflects (Trusted (Spares route) s.attempts.length)
      (deleteStaleLink nl (s.linkRoutesCache protocol) k') := by
    intro k' s' hT
    simp only [deleteStaleLink] at hT
    split at hT
    · exact hT
    · exact reflects_request _ _ s' hT
  have hround : ∀ k' ks s', s.attempts.length ≤ s'.attempts.length ∧ k ∈ k' :: ks →
      Trusted (Spares route) s.attempts.length
        (deleteStaleLink nl (s.linkRoutesCache protocol) k' s').1 →
      (deleteStaleLink nl (s.linkRoutesCache protocol) k' s').2 = none ∧
        s.attempts.length ≤
          (deleteStaleLink nl (s.linkRoutesCache protocol) k' s').1.attempts.length ∧ k ∈ ks := by
    rintro k' ks s' ⟨hn, hk⟩ hT
    cases hk' : (s.linkRoutesCache protocol).lookup k' with
    | none =>
      have hne : k ≠ k' := by
        rintro rfl
        simp [hheld] at hk'
      simp only [deleteStaleLink, hk']
      exact ⟨trivial, hn, List.mem_of_ne_of_mem hne hk⟩
    | some r =>
      simp only [deleteStaleLink, hk'] at hT ⊢
      obtain ⟨haccepted, hspared⟩ := hT.attempt hn
      have hne : k ≠ k' := by
        rintro rfl
        obtain rfl := Option.some_injective _ (hheld.symm.trans hk')
        exact hspared rfl
      refine ⟨(request_result nl _ _ s').mpr haccepted.status_eq, ?_,
        List.mem_of_ne_of_mem hne hk⟩
      simp only [request_eq, List.length_append]
      exact hn.trans (Nat.le_add_right _ _)
  obtain ⟨-, -, hend⟩ := forEach_completes
    (Q := fun ks s' => s.attempts.length ≤ s'.attempts.length ∧ k ∈ ks) hdel hround
    ⟨le_rfl, hmem⟩ (hrest.first hspares)
  exact List.not_mem_nil hend

end Deletion

end NetlinkSocket

/-- A message of a route dump, and the route that it is parsed to. -/
structure DumpedRoute where
  memory : Memory
  offset : ℕ
  fuel : ℕ
  route : Route
  parsed : (NetlinkRouteMessage.parseMessage fuel offset).eval memory = .ok route
  newRoute : u16 memory (offset + 4) = RTM_NEWROUTE

/-- The message is about an IPv4 or IPv6 unicast route of the main table that is not cloned and
has a next hop with an output interface. -/
structure DumpedRoute.Adoptable (d : DumpedRoute) : Prop where
  family : NetlinkRouteMessage.IsIp (d.memory (d.offset + 16))
  unicast : d.memory (d.offset + 23) = RTN_UNICAST
  main : d.memory (d.offset + 20) = RT_TABLE_MAIN
  notCloned : UInt32.ofNat (u32 d.memory (d.offset + 24)) &&& RTM_F_CLONED = 0
  output : ∃ nh ∈ d.route.nextHops, nh.ifIndex ≠ none

private theorem DumpedRoute.isValid (d : DumpedRoute) : d.route.isValid := by
  rw [(NetlinkRouteMessage.parseMessage_spec d.parsed).1.isValid]
  exact decide_eq_true d.newRoute

namespace NetlinkSocket

section Adoption

variable {κ : Type*} {s : NetlinkSocket κ} {routes : List Route} {route : Route}

/-- What a place holds after an update was dumped for it. -/
theorem slotOf_of_heldAt_updateRouteCache (hs : ∀ c, s.heldAt c = none)
    (hvalid : ∀ r ∈ routes, r.isValid) {c : RouteSlot}
    (h : (updateRouteCache routes s).heldAt c = some route) :
    route ∈ routes ∧ s.slotOf route = some c := by
  rw [heldAt_updateRouteCache hvalid, hs, Option.or_none] at h
  obtain ⟨hmem, hslot⟩ := List.mem_filter.mp (List.mem_of_getLast? h)
  exact ⟨hmem, of_decide_eq_true hslot⟩

/-- Routes are cached in their places, unless a later one takes over. -/
theorem caches_updateRouteCache_iff (hs : ∀ c, s.heldAt c = none)
    (hvalid : ∀ r ∈ routes, r.isValid) :
    (updateRouteCache routes s).Caches route ↔
      ∃ c, s.slotOf route = some c ∧
        (routes.filter fun r => s.slotOf r = some c).getLast? = some route := by
  have hheld : ∀ c, (updateRouteCache routes s).heldAt c =
      (routes.filter fun r => s.slotOf r = some c).getLast? := by
    intro c
    rw [heldAt_updateRouteCache hvalid, hs, Option.or_none]
  have hslot : ∀ c, (updateRouteCache routes s).heldAt c = some route →
      s.slotOf route = some c :=
    fun c hc => (slotOf_of_heldAt_updateRouteCache hs hvalid hc).2
  constructor
  · rintro (⟨dest, hdest⟩ | ⟨k, hk⟩)
    · have hc : (updateRouteCache routes s).heldAt (.unicast route.protocolId dest) = some route :=
        hdest
      exact ⟨_, hslot _ hc, (hheld _).symm.trans hc⟩
    · have hc : (updateRouteCache routes s).heldAt (.link route.protocolId k) = some route := hk
      exact ⟨_, hslot _ hc, (hheld _).symm.trans hc⟩
  · rintro ⟨c, hc, hlast⟩
    rw [← hheld] at hlast
    obtain ⟨-, ⟨ifName, rfl⟩ | rfl⟩ := slotOf_eq_some hc
    · exact .inr ⟨_, hlast⟩
    · exact .inl ⟨_, hlast⟩

/-- No dumped route with a link-local destination has its place in the unicast cache of the
protocol. -/
def NoneLinkLocal (s : NetlinkSocket κ) (protocol : UInt8) (routes : List Route) : Prop :=
  ∀ r ∈ routes, s.slotOf r = some (.unicast protocol r.dst) → r.dst.1.isLinkLocal ≠ some true

/-- After an update the unicast cache is keyed by destinations, and the next synchronisation can
delete from it what is not link-local. -/
theorem fitsIn_updateRouteCache (hs : ∀ c, s.heldAt c = none) (hvalid : ∀ r ∈ routes, r.isValid)
    {protocol : UInt8} (hlocal : s.NoneLinkLocal protocol routes) {dest : CIDRNetwork}
    (h : ((updateRouteCache routes s).unicastRoutesCache protocol).lookup dest = some route) :
    route.FitsIn (.ip protocol dest) := by
  have hheld : (updateRouteCache routes s).heldAt (.unicast protocol dest) = some route := h
  obtain ⟨hmem, hslot⟩ := slotOf_of_heldAt_updateRouteCache hs hvalid hheld
  obtain ⟨hmulti, ⟨_, hc⟩ | hc⟩ := slotOf_eq_some hslot
  · nomatch hc
  obtain ⟨rfl, rfl⟩ := RouteSlot.unicast.inj hc
  have hnot := IPAddress.isLinkLocal_eq_some_false hmulti (hlocal route hmem hslot)
  exact ⟨rfl, rfl, by simp [checkUnicastRoute, hmulti, hnot]⟩

/-- A link-local route that was dumped for the unicast cache leaves one there that
`checkUnicastRoute` refuses. -/
theorem exists_refused_of_linkLocal (hs : ∀ c, s.heldAt c = none)
    (hvalid : ∀ r ∈ routes, r.isValid) {protocol : UInt8} (hmem : route ∈ routes)
    (hslot : s.slotOf route = some (.unicast protocol route.dst))
    (hlocal : route.dst.1.isLinkLocal = some true) :
    ∃ r ex, ((updateRouteCache routes s).unicastRoutesCache protocol).lookup route.dst = some r ∧
      checkUnicastRoute r = some ex := by
  have hmem' : route ∈ routes.filter fun r => s.slotOf r = some (.unicast protocol route.dst) :=
    List.mem_filter.mpr ⟨hmem, decide_eq_true hslot⟩
  obtain ⟨r, hr⟩ := Option.ne_none_iff_exists'.mp fun hnone =>
    List.ne_nil_of_mem hmem' (List.getLast?_eq_none_iff.mp hnone)
  have hheld : (updateRouteCache routes s).heldAt (.unicast protocol route.dst) = some r := by
    rw [heldAt_updateRouteCache hvalid, hs, Option.or_none, hr]
  -- the last route for this place has the same destination
  obtain ⟨hmulti, ⟨_, hc⟩ | hc⟩ :=
    slotOf_eq_some (slotOf_of_heldAt_updateRouteCache hs hvalid hheld).2
  · nomatch hc
  obtain ⟨-, hdst⟩ := RouteSlot.unicast.inj hc
  refine ⟨r, .invalidUnicastRoute r.dst, hheld, ?_⟩
  rw [hdst] at hlocal
  simp [checkUnicastRoute, hmulti, hlocal]

/-- An adoptable route has a place exactly if its destination was sent, is not multicast and, for
a link route, if it has one next hop. -/
theorem slotOf_isSome_iff {d : DumpedRoute} (h : d.Adoptable) :
    (s.slotOf d.route).isSome ↔
      NetlinkRouteMessage.HasDst d.memory d.offset ∧ d.route.dst.1.isMulticast ≠ some true ∧
        (d.route.scope = RT_SCOPE_LINK → d.route.nextHops.card = 1) := by
  obtain ⟨hheader, hdst⟩ := NetlinkRouteMessage.parseMessage_spec d.parsed
  have hkept : ¬ (d.route.routeTable ≠ RT_TABLE_MAIN ∨
      d.route.flags.getD 0 &&& RTM_F_CLONED ≠ 0) := by
    rw [hheader.routeTable, hheader.flags]
    exact not_or.mpr ⟨not_not.mpr h.main, not_not.mpr h.notCloned⟩
  have hmulti : d.route.dst.1.isMulticast = some false ↔
      NetlinkRouteMessage.HasDst d.memory d.offset ∧ d.route.dst.1.isMulticast ≠ some true := by
    rw [← not_iff_comm.mp (hdst h.family).symm]
    cases d.route.dst.1 <;> simp [IPAddress.isMulticast]
  have hinterface : (s.routeInterface d.route).isSome ↔ d.route.nextHops.card = 1 := by
    rw [Finset.card_eq_one]
    constructor
    · intro hsome
      obtain ⟨ifName, hname⟩ := Option.isSome_iff_exists.mp hsome
      obtain ⟨nh, hsole, -⟩ := Option.bind_eq_some_iff.mp hname
      exact ⟨nh, Route.soleNextHop_eq_some.mp hsole⟩
    · rintro ⟨nh, hsole⟩
      obtain ⟨nh', hmem, hindex⟩ := h.output
      obtain rfl : nh' = nh := by simpa [hsole] using hmem
      obtain ⟨ifIndex, hindex⟩ := Option.ne_none_iff_exists'.mp hindex
      simp [routeInterface, Route.soleNextHop_eq_some.mpr hsole, hindex]
  rw [slotOf, if_neg hkept, ← and_assoc, ← hmulti]
  by_cases hm : d.route.dst.1.isMulticast = some false
  · rw [if_neg (not_not.mpr hm), and_iff_right hm]
    split
    next hlink => rw [Option.isSome_map, hinterface, imp_iff_right hlink]
    next hlink => exact iff_of_true rfl fun h => absurd h hlink
  · simp [hm]

variable [DecidableEq κ]

/-- A synchronisation of the protocol with a database that lacks the cached route deletes it, in
whatever order the prefixes are visited, if the kernel accepts the requests. -/
structure SyncDeletes (nl : NlSock κ) (s : NetlinkSocket κ) (route : Route) : Prop where
  unicast : ∀ order db dest,
    (s.unicastRoutesCache route.protocolId).lookup dest = some route → db.lookup dest = none →
    Trusted Attempt.Accepted s.attempts.length
      (doSyncUnicastRoutes nl order route.protocolId db s).1 →
    ∃ x ∈ (doSyncUnicastRoutes nl order route.protocolId db s).1.attempts.drop s.attempts.length,
      x.request = .deleteRoute route ∧ x.Accepted
  link : ∀ db k,
    (s.linkRoutesCache route.protocolId).lookup k = some route → db.lookup k = none →
    Trusted Attempt.Accepted s.attempts.length (doSyncLinkRoutes nl route.protocolId db s).1 →
    ∃ x ∈ (doSyncLinkRoutes nl route.protocolId db s).1.attempts.drop s.attempts.length,
      x.request = .deleteRoute route ∧ x.Accepted

/-- A route that an update put into the caches is deleted by the next synchronisation that lacks
it exactly if it is a link route or no link-local route was dumped for the unicast cache. -/
theorem syncDeletes_updateRouteCache_iff (nl : NlSock κ) (hs : ∀ c, s.heldAt c = none)
    (hvalid : ∀ r ∈ routes, r.isValid) (hcached : (updateRouteCache routes s).Caches route) :
    (updateRouteCache routes s).SyncDeletes nl route ↔
      route.scope = RT_SCOPE_LINK ∨ s.NoneLinkLocal route.protocolId routes := by
  constructor
  · intro hdeletes
    by_contra hneither
    obtain ⟨hscope, hlocal⟩ := not_or.mp hneither
    simp only [NoneLinkLocal, not_forall, not_not] at hlocal
    obtain ⟨r, hmem, hslot, hlocal⟩ := hlocal
    obtain ⟨r', ex, hr', hcheck⟩ := exists_refused_of_linkLocal hs hvalid hmem hslot hlocal
    obtain ⟨order, hstuck⟩ := exists_doSyncUnicastRoutes_stuck nl hr' hcheck
    rcases hcached with ⟨dest, hdest⟩ | ⟨k, hk⟩
    · obtain ⟨x, hx, -⟩ := hdeletes.unicast order ∅ dest hdest (by simp)
        (by simp [hstuck, Trusted])
      simp [hstuck] at hx
    · have hheld : (updateRouteCache routes s).heldAt (.link route.protocolId k) = some route := hk
      have hlink := (slotOf_of_heldAt_updateRouteCache hs hvalid hheld).2
      exact hscope ((scope_of_slotOf hlink).mpr ⟨_, _, rfl⟩)
  · intro hcond
    refine ⟨fun order db dest hheld hlacks hT => ?_,
      fun db k hheld hlacks hT => doSyncLinkRoutes_deletes hheld hlacks hT⟩
    rcases hcond with hscope | hlocal
    · have hheld' : (updateRouteCache routes s).heldAt (.unicast route.protocolId dest) =
          some route := hheld
      have hslot := (slotOf_of_heldAt_updateRouteCache hs hvalid hheld').2
      obtain ⟨_, _, hc⟩ := (scope_of_slotOf hslot).mp hscope
      cases hc
    · exact doSyncUnicastRoutes_deletes
        (fun d' r hr => fitsIn_updateRouteCache hs hvalid hlocal hr) hheld hlacks hT

/-- After `updateRouteCache` at startup, a route that should be adopted is in the caches exactly
if its message has a destination, which is not multicast, if it has one next hop in case of link
scope, and if it is the last of the dump for its place. A cached route is deleted by the next
synchronisation that lacks it exactly if it is a link route or no link-local route of the protocol
was dumped for the unicast cache. -/
theorem updateRouteCache_adopts_iff (nl : NlSock κ) (hs : ∀ c, s.heldAt c = none)
    (dump : List DumpedRoute) {d : DumpedRoute} (h : d.Adoptable) :
    ((updateRouteCache (dump.map (·.route)) s).Caches d.route ↔
      NetlinkRouteMessage.HasDst d.memory d.offset ∧ d.route.dst.1.isMulticast ≠ some true ∧
        (d.route.scope = RT_SCOPE_LINK → d.route.nextHops.card = 1) ∧
        ((dump.map (·.route)).filter fun r => s.slotOf r = s.slotOf d.route).getLast? =
          some d.route) ∧
      ((updateRouteCache (dump.map (·.route)) s).Caches d.route →
        ((updateRouteCache (dump.map (·.route)) s).SyncDeletes nl d.route ↔
          d.route.scope = RT_SCOPE_LINK ∨
            s.NoneLinkLocal d.route.protocolId (dump.map (·.route)))) := by
  have hvalid : ∀ r ∈ dump.map (·.route), r.isValid := by
    intro r hr
    obtain ⟨e, -, rfl⟩ := List.mem_map.mp hr
    exact e.isValid
  refine ⟨?_, syncDeletes_updateRouteCache_iff nl hs hvalid⟩
  rw [caches_updateRouteCache_iff hs hvalid]
  constructor
  · rintro ⟨c, hc, hlast⟩
    obtain ⟨hdst, hmulti, hlink⟩ := (slotOf_isSome_iff h).mp (Option.isSome_of_eq_some hc)
    exact ⟨hdst, hmulti, hlink, by simpa only [hc] using hlast⟩
  · rintro ⟨hdst, hmulti, hlink, hlast⟩
    obtain ⟨c, hc⟩ :=
      Option.isSome_iff_exists.mp ((slotOf_isSome_iff (s := s) h).mpr ⟨hdst, hmulti, hlink⟩)
    exact ⟨c, hc, by simpa only [hc] using hlast⟩

/-- A dumped IPv4 route of protocol 99 to a prefix of the given length, with a scope and some
attributes of `n` bytes. -/
def exampleDump (n : ℕ) (prefixLen scope : UInt8) (attrs : List UInt8) : Memory := ofBytes <|
  [.ofNat (28 + n), 0, 0, 0, 24, 0, 2, 0, 1, 0, 0, 0, 0, 0, 0, 0] ++
  [2, prefixLen, 0, 0, 254, 99, scope, 1, 0, 0, 0, 0] ++ attrs

/-- The attributes of a next hop 192.168.0.1 on interface 3. -/
def exampleHopAttrs : List UInt8 := [8, 0, 5, 0, 192, 168, 0, 1, 8, 0, 4, 0, 3, 0, 0, 0]

/-- That next hop. -/
def exampleHop : NextHop :=
  { ifIndex := some 3, gateway := some (.v4 ⟨[192, 168, 0, 1], rfl⟩) }

/-- The default route through it, as it is dumped. -/
def dumpedDefault : DumpedRoute where
  memory := exampleDump 16 0 0 exampleHopAttrs
  offset := 0
  fuel := 5
  route :=
    { protocolId := 99, isValid := true, flags := some 0, nextHops := {exampleHop} }
  parsed := by decide
  newRoute := by decide

/-- The route to 10.0.0.0/8 through it, as it is dumped. -/
def dumpedNetwork : DumpedRoute where
  memory := exampleDump 24 8 0 ([8, 0, 1, 0, 10, 0, 0, 0] ++ exampleHopAttrs)
  offset := 0
  fuel := 5
  route :=
    { protocolId := 99, isValid := true, flags := some 0, nextHops := {exampleHop},
      dst := exampleDest, family := AF_INET }
  parsed := by decide
  newRoute := by decide

/-- The link route to 169.254.0.0/16 over interface 3, as it is dumped. -/
def dumpedLinkLocal : DumpedRoute where
  memory := exampleDump 16 16 RT_SCOPE_LINK [8, 0, 1, 0, 169, 254, 0, 0, 8, 0, 4, 0, 3, 0, 0, 0]
  offset := 0
  fuel := 5
  route :=
    { protocolId := 99, isValid := true, flags := some 0, scope := RT_SCOPE_LINK,
      nextHops := {{ ifIndex := some 3 }}, dst := (.v4 ⟨[169, 254, 0, 0], rfl⟩, 16),
      family := AF_INET }
  parsed := by decide
  newRoute := by decide

/-- A socket with nothing in its caches. -/
def atStartup : NetlinkSocket CIDRNetwork :=
  { kernel := { routes := fun _ _ => none, labels := fun _ _ => none } }

/-- A route with a destination is adopted, and deleted by a synchronisation that lacks it. The
link-local route beside it is in the link cache, where it does no harm. -/
theorem network_route_adopted :
    let s := updateRouteCache [dumpedDefault.route, dumpedLinkLocal.route, dumpedNetwork.route]
      atStartup
    s.Caches dumpedNetwork.route ∧
      s.SyncDeletes (.byDestination (fun _ => .SUCCESS) fun _ => 0) dumpedNetwork.route := by
  obtain ⟨hcaches, hdeletes⟩ := updateRouteCache_adopts_iff
    (.byDestination (fun _ => .SUCCESS) fun _ => 0) (s := atStartup) (by rintro (_ | _) <;> rfl)
    [dumpedDefault, dumpedLinkLocal, dumpedNetwork] (d := dumpedNetwork)
    ⟨by unfold NetlinkRouteMessage.IsIp; decide, by decide, by decide, by decide, by decide⟩
  have hcached := hcaches.mpr
    ⟨⟨_, .cons (by decide) (.cons (by decide) (.cons (by decide) (.nil (by decide)))),
      .load dumpedNetwork.memory 28, List.mem_cons_self, by decide⟩, by decide, by decide,
      by decide⟩
  refine ⟨hcached, (hdeletes hcached).mpr (.inr ?_)⟩
  unfold NoneLinkLocal
  decide

/-- A default route without a destination attribute is not adopted. -/
theorem default_route_not_adopted :
    dumpedDefault.Adoptable ∧
      ¬ (updateRouteCache [dumpedDefault.route] atStartup).Caches dumpedDefault.route := by
  refine ⟨⟨.inl (by decide), by decide, by decide, by decide, by decide⟩, ?_⟩
  have hsame : updateRouteCache [dumpedDefault.route] atStartup = atStartup := rfl
  rw [hsame]
  rintro (⟨_, h⟩ | ⟨_, h⟩) <;> nomatch h

end Adoption

end NetlinkSocket

end Fbmeshd
