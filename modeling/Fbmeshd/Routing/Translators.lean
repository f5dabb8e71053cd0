import Fbmeshd.Routing.TranslatorTracking

/-!
# One translator at a time

A node whose gate status changes first synchronises the routes without the translator and only
then adds the new route to it. So over any number of calls of `doSyncRoutes`, and after each single
request, the kernel does not hold a route to the translator through a gate and one through `tayga`.
-/

namespace Fbmeshd

open Fallible NetlinkSocket

/-- The kind of route to the translator that a node does not use. -/
def unusedTranslator (isGate : Bool) : Route → Prop := if isGate then ViaGate else ViaTayga

private theorem unusedTranslator_cases (isGate : Bool) :
    unusedTranslator isGate = ViaGate ∨ unusedTranslator isGate = ViaTayga := by
  cases isGate
  · exact .inr rfl
  · exact .inl rfl

section Databases

variable {udb : NlUnicastRoutes} {ldb : NlLinkRoutes} (hdb : IsSyncDatabase udb ldb)

include hdb

private theorem IsSyncDatabase.not_viaTayga {d : CIDRNetwork} {r : Route}
    (hr : udb.lookup d = some r) :
    ¬ ViaTayga r.withDefaultPriority := by
  obtain ⟨⟨_, _, rfl⟩, -⟩ := hdb.mesh d r hr
  rintro ⟨-, hscope⟩
  rw [Route.withDefaultPriority_scope] at hscope
  exact absurd hscope (by decide : RT_SCOPE_UNIVERSE ≠ RT_SCOPE_LINK)

private theorem IsSyncDatabase.not_viaGate {k : CIDRNetwork × String} {r : Route}
    (hr : ldb.lookup k = some r) : ¬ ViaGate r := by
  obtain ⟨_, rfl⟩ := hdb.tayga k r hr
  exact fun h => h.2 rfl

variable {isGate : Bool} (hlacks : if isGate then udb.lookup translatorNetwork = none
  else ∀ ifName, ldb.lookup (translatorNetwork, ifName) = none)

include hlacks

private theorem IsSyncDatabase.not_unused_unicast {d : CIDRNetwork} {r : Route}
    (hr : udb.lookup d = some r) : ¬ unusedTranslator isGate r.withDefaultPriority := by
  cases isGate with
  | false => exact hdb.not_viaTayga hr
  | true =>
    obtain ⟨⟨_, _, rfl⟩, -⟩ := hdb.mesh d r hr
    rintro ⟨hdst, -⟩
    rw [Route.withDefaultPriority_dst] at hdst
    rw [← hdst, if_pos rfl] at hlacks
    exact absurd (hlacks.symm.trans hr) (by simp)

private theorem IsSyncDatabase.not_unused_link {k : CIDRNetwork × String} {r : Route}
    (hr : ldb.lookup k = some r) : ¬ unusedTranslator isGate r := by
  cases isGate with
  | false =>
    obtain ⟨_, rfl⟩ := hdb.tayga k r hr
    obtain ⟨d, ifName⟩ := k
    rintro ⟨hdst, -⟩
    rw [← hdst, if_neg (by decide)] at hlacks
    exact absurd ((hlacks ifName).symm.trans hr) (by simp)
  | true => exact hdb.not_viaGate hr

end Databases

namespace SyncRoutes80211s

variable {κ : Type*} [DecidableEq κ] {nl : NlSock κ} {k₀ : Kernel κ} {s : SyncRoutes80211s κ}
  {x : SyncInput} {udb : NlUnicastRoutes} {ldb : NlLinkRoutes}

/-- Databases without a kind of route to the translator do not bring it into the kernel. -/
theorem syncBoth_lacks {isGate : Bool} (hdb : IsSyncDatabase udb ldb)
    (hlacks : if isGate then udb.lookup translatorNetwork = none
      else ∀ ifName, ldb.lookup (translatorNetwork, ifName) = none) :
    Preserves (fun s : SyncRoutes80211s κ =>
        Lacks (unusedTranslator isGate) nl k₀ s.netlinkSocket) (syncBoth nl x udb ldb) := by
  have hP := unusedTranslator_cases isGate
  refine .andThen
    (preserves_onSocket ((unicastInvariant_lacks hP).doSyncUnicastRoutes fun d r hr => ?_))
    (preserves_onSocket ((requestInvariant_lacks hP).doSyncLinkRoutes (fun k r hr => ?_)
      fun s h => ⟨⟨h.kernel, h.moments⟩, h.absent⟩))
  · rw [IterationOrder.lookup_reorder] at hr
    exact hdb.not_unused_unicast hlacks hr
  · rw [IterationOrder.lookup_reorder] at hr
    exact hdb.not_unused_link hlacks hr

section Accepting

variable (haccepts : nl.AcceptsAll)
  (htaygaKey : ∀ destination i j,
    nl.key (taygaRoute destination i) = nl.key (taygaRoute destination j))

/-- Both caches are in step with the kernel. -/
structure Tracked (nl : NlSock κ) (s : NetlinkSocket κ) : Prop where
  gate : GateTracked nl s
  tayga : TaygaTracked nl s

include haccepts htaygaKey

/-- Unless it throws, a synchronisation keeps the caches in step, and a route to the translator that
is not in its databases is not in the kernel. -/
theorem syncBoth_tracked (hdb : IsSyncDatabase udb ldb) (h : Tracked nl s.netlinkSocket)
    (hdone : (syncBoth nl x udb ldb s).2 = none) :
    Tracked nl (syncBoth nl x udb ldb s).1.netlinkSocket ∧
      (udb.lookup translatorNetwork = none →
        ¬ (syncBoth nl x udb ldb s).1.netlinkSocket.kernel.Holds ViaGate) ∧
      ((∀ ifName, ldb.lookup (translatorNetwork, ifName) = none) →
        ¬ (syncBoth nl x udb ldb s).1.netlinkSocket.kernel.Holds ViaTayga) := by
  have hdb' := hdb.reorder x
  unfold syncBoth at hdone ⊢
  obtain ⟨hunicast, heq⟩ := andThen_eq_none hdone
  rw [heq] at hdone ⊢
  rw [onSocket_eq_none] at hunicast hdone
  -- the synchronisation of unicast routes leaves the link cache alone
  have hgate : GateTracked nl (onSocket (doSyncUnicastRoutes nl x.deleteOrder syncProtocolId
      (x.unicastOrder.reorder udb)) s).1.netlinkSocket :=
    GateTracked.doSyncUnicastRoutes haccepts hdb'.unicastDatabase _ h.gate
  have htayga : TaygaTracked nl (onSocket (doSyncUnicastRoutes nl x.deleteOrder syncProtocolId
      (x.unicastOrder.reorder udb)) s).1.netlinkSocket :=
    TaygaTracked.unicastInvariant.doSyncUnicastRoutes (fun _ _ => hdb'.not_viaTayga) _ h.tayga
  -- and that of link routes the unicast cache
  have hlink : GateTracked nl (onSocket (doSyncLinkRoutes nl syncProtocolId
      (x.linkOrder.reorder ldb)) (onSocket (doSyncUnicastRoutes nl x.deleteOrder syncProtocolId
        (x.unicastOrder.reorder udb)) s).1).1.netlinkSocket :=
    GateTracked.requestInvariant.doSyncLinkRoutes (fun _ _ => hdb'.not_viaGate)
      (fun _ h => ⟨h.keyed, h.cover⟩) _ hgate
  refine ⟨⟨hlink, htayga.doSyncLinkRoutes_tracked haccepts htaygaKey hdb'.tayga hdone⟩,
    fun hlacks => ?_, fun hlacks => ?_⟩
  · refine requestInvariant_not_holds.doSyncLinkRoutes (fun _ _ => hdb'.not_viaGate)
      (fun _ h => h) _ (hgate.not_holds ?_)
    refine h.gate.doSyncUnicastRoutes_uncached haccepts hdb'.unicastDatabase ?_ hunicast
    rw [IterationOrder.lookup_reorder]
    exact hlacks
  · refine htayga.doSyncLinkRoutes_not_holds haccepts htaygaKey hdb'.tayga (fun ifName => ?_) hdone
    rw [IterationOrder.lookup_reorder]
    exact hlacks ifName

omit haccepts htaygaKey in
/-- After the first synchronisation of a round, or without need for it: the caches are in step, and
the kernel does not hold the kind of route that the node does not use. -/
structure Ready (nl : NlSock κ) (k₀ : Kernel κ) (isGate : Bool) (s : NetlinkSocket κ) : Prop where
  tracked : Tracked nl s
  lacks : Lacks (unusedTranslator isGate) nl k₀ s

/-- The first synchronisation, without the translator, readies the kernel for any gate status. -/
theorem first_sync (h : Ready nl k₀ s.isGateBeforeRouteSync s.netlinkSocket)
    (hdb : IsSyncDatabase udb ldb) (hudb : udb.lookup translatorNetwork = none)
    (hldb : ∀ ifName, ldb.lookup (translatorNetwork, ifName) = none) :
    OneTranslator nl k₀ (syncBoth nl x udb ldb s).1.netlinkSocket ∧
      ((syncBoth nl x udb ldb s).2 = none →
        Ready nl k₀ x.isGate (syncBoth nl x udb ldb s).1.netlinkSocket) := by
  have hlacks : Lacks (unusedTranslator s.isGateBeforeRouteSync) nl k₀
      (syncBoth nl x udb ldb s).1.netlinkSocket := by
    refine syncBoth_lacks hdb ?_ s h.lacks
    split
    · exact hudb
    · exact hldb
  refine ⟨hlacks.toOneTranslator, fun hdone => ?_⟩
  obtain ⟨htracked, hgate, htayga⟩ := syncBoth_tracked haccepts htaygaKey hdb h.tracked hdone
  refine ⟨htracked, hlacks.toOneTranslator, ?_⟩
  rcases unusedTranslator_cases x.isGate with heq | heq <;> rw [heq]
  · exact hgate hudb
  · exact htayga hldb

/-- The second synchronisation. -/
theorem second_sync (h : Ready nl k₀ x.isGate s.netlinkSocket) (hdb : IsSyncDatabase udb ldb)
    (hudb : udb.lookup translatorNetwork = none)
    (hldb : ∀ ifName, ldb.lookup (translatorNetwork, ifName) = none) :
    OneTranslator nl k₀ (syncTranslator nl x udb ldb s).1.netlinkSocket ∧
      ((syncTranslator nl x udb ldb s).2 = none →
        Ready nl k₀ (syncTranslator nl x udb ldb s).1.isGateBeforeRouteSync
          (syncTranslator nl x udb ldb s).1.netlinkSocket) := by
  unfold syncTranslator
  cases hdbs : x.withTranslator s.currentGate udb ldb with
  | none => exact ⟨h.lacks.toOneTranslator, by simp⟩
  | some dbs =>
    obtain ⟨hdb', hlacks⟩ := SyncInput.withTranslator_spec hdb hudb hldb hdbs
    simp only [andThen_modify]
    have hlacks' := syncBoth_lacks hdb' hlacks
      { s with isGateBeforeRouteSync := x.isGate } h.lacks (x := x)
    refine ⟨hlacks'.toOneTranslator, fun hdone => ?_⟩
    have hstatus : (syncBoth nl x dbs.1 dbs.2
        { s with isGateBeforeRouteSync := x.isGate }).1.isGateBeforeRouteSync = x.isGate := by
      obtain ⟨socket, heq⟩ := syncBoth_fst nl x dbs.1 dbs.2
        { s with isGateBeforeRouteSync := x.isGate }
      rw [heq]
    rw [hstatus]
    exact ⟨(syncBoth_tracked haccepts htaygaKey (s := { s with isGateBeforeRouteSync := x.isGate })
      hdb' h.tracked hdone).1, hlacks'⟩

/-- One call of `doSyncRoutes`. -/
theorem doSyncRoutes_ready (h : Ready nl k₀ s.isGateBeforeRouteSync s.netlinkSocket) :
    OneTranslator nl k₀ (doSyncRoutes nl x s).1.netlinkSocket ∧
      ((doSyncRoutes nl x s).2 = none →
        Ready nl k₀ (doSyncRoutes nl x s).1.isGateBeforeRouteSync
          (doSyncRoutes nl x s).1.netlinkSocket) := by
  have hdb := x.isSyncDatabase_first s.currentGate s.nodeAddr
  have hudb := x.scanPaths_lookup_translator s.currentGate
  have hldb := x.linkRouteDb_lookup_translator s.nodeAddr
  rw [doSyncRoutes_eq]
  split
  next hsame => exact second_sync haccepts htaygaKey (hsame ▸ h) hdb hudb hldb
  next =>
    obtain ⟨hone, hready⟩ := first_sync haccepts htaygaKey
      (s := { s with currentGate := (x.scanPaths s.currentGate).chooseGate }) (x := x) h hdb hudb
      hldb
    cases hres : (syncBoth nl x (x.scanPaths s.currentGate).unicastRouteDb
        (x.linkRouteDb s.nodeAddr)
        { s with currentGate := (x.scanPaths s.currentGate).chooseGate }).2 with
    | none =>
      rw [andThen_of_none hres]
      exact second_sync haccepts htaygaKey (hready hres) hdb hudb hldb
    | some ex =>
      rw [andThen_of_some hres]
      exact ⟨hone, by simp⟩

/-- One run of the timer's callback. -/
theorem syncRoutesCallback_ready (h : Ready nl k₀ s.isGateBeforeRouteSync s.netlinkSocket) :
    OneTranslator nl k₀ (syncRoutesCallback nl x s).1.netlinkSocket ∧
      ((syncRoutesCallback nl x s).2 = none →
        Ready nl k₀ (syncRoutesCallback nl x s).1.isGateBeforeRouteSync
          (syncRoutesCallback nl x s).1.netlinkSocket) := by
  obtain ⟨hone, hready⟩ := doSyncRoutes_ready haccepts htaygaKey
    (s := { s with syncRoutesTimer := none }) (x := x) h
  simp only [syncRoutesCallback, andThen_modify]
  cases hres : (doSyncRoutes nl x { s with syncRoutesTimer := none }).2 with
  | none =>
    rw [andThen_of_none hres]
    exact ⟨hone, fun _ => hready hres⟩
  | some ex =>
    rw [andThen_of_some hres]
    exact ⟨hone, by simp⟩

/-- Over any number of rounds, after each single request, the kernel does not hold both routes to
the translator. -/
theorem never_two_translators (hgate : ¬ s.netlinkSocket.kernel.Holds ViaGate)
    (htayga : ¬ s.netlinkSocket.kernel.Holds ViaTayga)
    (hunicast : ∀ d r, (s.netlinkSocket.unicastRoutesCache syncProtocolId).lookup d = some r →
      r.dst = d ∧ r.protocolId = syncProtocolId)
    (hlink : ∀ ifName, (s.netlinkSocket.linkRoutesCache syncProtocolId).lookup
      (translatorNetwork, ifName) = none)
    (hlog : s.netlinkSocket.attempts = []) (xs : List SyncInput) :
    (syncLoop nl xs s).1.netlinkSocket.kernel =
        s.netlinkSocket.kernel.after nl.key (syncLoop nl xs s).1.netlinkSocket.attempts ∧
      ∀ log, log <+: (syncLoop nl xs s).1.netlinkSocket.attempts →
        ¬ ((s.netlinkSocket.kernel.after nl.key log).Holds ViaGate ∧
          (s.netlinkSocket.kernel.after nl.key log).Holds ViaTayga) := by
  have hstart : Ready nl s.netlinkSocket.kernel s.isGateBeforeRouteSync s.netlinkSocket := by
    refine ⟨⟨⟨hunicast, fun c r hc h => absurd ⟨c, r, hc, h⟩ hgate⟩,
      ⟨fun ifName r hr => ?_, fun c r hc h => absurd ⟨c, r, hc, h⟩ htayga,
        fun h => absurd h htayga⟩⟩, ⟨?_, fun log hlog' => ?_⟩, ?_⟩
    · simp [hlink] at hr
    · rw [hlog]
      rfl
    · rw [hlog, List.prefix_nil] at hlog'
      subst hlog'
      exact fun hboth => hgate hboth.1
    · rcases unusedTranslator_cases s.isGateBeforeRouteSync with heq | heq <;> rw [heq]
      · exact hgate
      · exact htayga
  obtain ⟨hkernel, hmoments⟩ := preserves_forEach_of_round (f := syncRoutesCallback nl)
    (I := fun t => OneTranslator nl s.netlinkSocket.kernel t.netlinkSocket)
    (J := fun t => Ready nl s.netlinkSocket.kernel t.isGateBeforeRouteSync t.netlinkSocket)
    (fun _ h => h.lacks.toOneTranslator)
    (fun _ _ h => syncRoutesCallback_ready haccepts htaygaKey h) xs hstart
  exact ⟨hkernel, hmoments⟩

end Accepting

/-- A kernel that keeps routes with one destination side by side if they have other scopes or
metrics. -/
def nlSockSideBySide : NlSock (CIDRNetwork × UInt8 × Option UInt32) where
  encode _ := .SUCCESS
  key r := (r.dst, r.scope, r.priority)
  reply _ := 0

/-- Such a kernel can hold both routes to the translator. -/
example : nlSockSideBySide.key (meshRoute translatorNetwork 1 2) ≠
    nlSockSideBySide.key (taygaRoute translatorNetwork 3) := by
  decide

omit [DecidableEq κ] in
private theorem freshNode_not_holds (P : Route → Prop) :
    ¬ (freshNode : SyncRoutes80211s κ).netlinkSocket.kernel.Holds P := by
  rintro ⟨_, _, hc, -⟩
  simp [freshNode] at hc

/-- A node that becomes a gate itself after its sixth request: the route through the other gate is
deleted by the next one, and the route through `tayga` added by the ninth. -/
theorem translator_handed_over :
    let run := syncLoop nlSockSideBySide [besideGate false, besideGate true] freshNode
    let log := run.1.netlinkSocket.attempts
    run.2 = none ∧ log.length = 9 ∧
      (freshNode.netlinkSocket.kernel.after nlSockSideBySide.key (log.take 6)).Holds ViaGate ∧
      run.1.netlinkSocket.kernel.Holds ViaTayga ∧
      ∀ log', log' <+: log →
        ¬ ((freshNode.netlinkSocket.kernel.after nlSockSideBySide.key log').Holds ViaGate ∧
          (freshNode.netlinkSocket.kernel.after nlSockSideBySide.key log').Holds ViaTayga) := by
  refine ⟨by decide +kernel, by decide +kernel, ?_, ?_, ?_⟩
  · exact ⟨nlSockSideBySide.key (meshRoute translatorNetwork 1 2).withDefaultPriority,
      (meshRoute translatorNetwork 1 2).withDefaultPriority, by decide +kernel, by decide,
      by decide⟩
  · exact ⟨nlSockSideBySide.key (taygaRoute translatorNetwork 3), taygaRoute translatorNetwork 3,
      by decide +kernel, by decide, by decide⟩
  · exact (never_two_translators (fun _ => ⟨rfl, rfl⟩) (fun _ _ _ => rfl) (freshNode_not_holds _)
      (freshNode_not_holds _) (by simp [freshNode]) (by simp [freshNode]) rfl
      [besideGate false, besideGate true]).2

end SyncRoutes80211s

end Fbmeshd
