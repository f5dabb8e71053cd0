import Fbmeshd.Dot11s.HandlerSessions

/-!
# The requests to join a mesh

A request to join the mesh is sent for an interface that is up. If the peering is done in userspace,
the handler has asked for the frames of the peers by then, and on an encrypted mesh the group keys
are installed. The request carries the configuration as it stands in the flags.
-/

namespace Fbmeshd

namespace Nl80211Handler

open Fallible

/-- The kernel accepted an interface with the configured name, or refused to delete one. -/
def Owned (E : Environment) (sent : List (Request × ℤ)) : Prop :=
  (∃ i error, (.delInterface i, error) ∈ sent ∧ error ≠ 0) ∨
    ∃ wiphy mac, (.newInterface wiphy E.flags.interfaceName mac, 0) ∈ sent

/-- An interface with the configured name is the handler's own, or could not be deleted. -/
def Owns (E : Environment) (s : State) : Prop :=
  (∃ i ∈ s.interfaces, i.1 = E.flags.interfaceName) → Owned E s.sent

/-- The answer to the request is waited for. -/
def Request.isAwaited : Request → Bool
  | .registerFrame .. => false
  | _ => true

/-- The request was sent, and its answer, if it was waited for, was not taken for a failure. -/
def Request.Done (r : Request) (sent : List (Request × ℤ)) : Prop :=
  ∃ error, (r, error) ∈ sent ∧ (r.isAwaited = true → Nl.NetlinkSocket.passes error = true)

/-- What `initMesh` asks of the kernel for an interface. -/
def preparation (E : Environment) (ifIndex : ℕ) (isSecure : Bool) : List Request :=
  .registerFrame ifIndex 0x00B0 [0x3] ::
    [[15, 1], [15, 2], [15, 3]].map (.registerFrame ifIndex 0x00D0) ++
    if isSecure then
      [.newKey ifIndex .aesCmac E.igtkKeyid (E.igtkTx.take (E.keyLength .aesCmac)),
        .setKey ifIndex true E.igtkKeyid,
        .newKey ifIndex .ccmp 1 (E.mgtkTx.take (E.keyLength .ccmp)), .setKey ifIndex false 1]
    else []

/-- What was done before a mesh is joined. -/
structure Ready (E : Environment) (a : JoinMesh) (sent : List (Request × ℤ)) : Prop where
  owned : Owned E sent
  linkUp : (.changeLink a.ifIndex true, 0) ∈ sent
  setup : ∀ setup, a.setup = some setup →
    ∀ r ∈ preparation E a.ifIndex setup.userspaceAuth, r.Done sent

/-- The request is the one for this interface. -/
structure IsFor (E : Environment) (netif : NetInterface) (a : JoinMesh) : Prop where
  valid : netif.isValid = true
  eq : ∃ n : Netif, n.toNetInterface = netif ∧
    ((E.flags.userspaceMeshPeering || n.isEncrypted) = true → n.mcastRate = kMcastRate) ∧
    a = joinRequest E n a.ifIndex

/-- The call is for one of these interfaces, which is used with userspace peering. -/
def ConfigCall.IsFor (E : Environment) (netifs : List Netif) (c : ConfigCall) : Prop :=
  ∃ netif ∈ netifs, netif.isValid = true ∧
    (E.flags.userspaceMeshPeering || netif.isEncrypted) = true ∧ c.netif = netif.toNetInterface

/-- The requests so far to join a mesh were for these interfaces and came in time, and so were the
calls that copy their configuration. -/
structure Joins (E : Environment) (netifs : List Netif) (s : State) : Prop where
  kept : Kept netifs s
  owned : Owns E s
  ready : ∀ before a error after, s.sent = before ++ (.joinMesh a, error) :: after →
    (∃ netif ∈ netifs, Nl80211Handler.IsFor E netif.toNetInterface a) ∧ Ready E a before
  calls : ∀ c ∈ s.calls, ConfigCall.IsFor E netifs c

variable {E : Environment} {s : State} {netifs : List Netif} {sent : List (Request × ℤ)}

/-! ### Requests that are not about joining -/

/-- Further requests change nothing about the interface. -/
theorem Owned.append (h : Owned E sent) (new : List (Request × ℤ)) : Owned E (sent ++ new) := by
  rcases h with ⟨i, error, hi, herror⟩ | ⟨wiphy, mac, hmem⟩
  · exact .inl ⟨i, error, List.mem_append_left _ hi, herror⟩
  · exact .inr ⟨wiphy, mac, List.mem_append_left _ hmem⟩

/-- The last request is either the one that is looked at or comes after it. -/
theorem ready_concat {P : List (Request × ℤ) → JoinMesh → Prop} {r : Request} {error : ℤ}
    (h : ∀ before a error after, sent = before ++ (.joinMesh a, error) :: after → P before a)
    (hr : ∀ a, r = .joinMesh a → P sent a) :
    ∀ before a error' after, sent ++ [(r, error)] = before ++ (.joinMesh a, error') :: after →
      P before a := by
  intro before a error' after heq
  rcases List.eq_nil_or_concat after with rfl | ⟨after', x, rfl⟩
  · obtain ⟨rfl, hx⟩ := List.append_inj' heq rfl
    exact hr a (Prod.mk.inj (List.cons.inj hx).1).1
  · rw [List.concat_eq_append, ← List.cons_append, ← List.append_assoc] at heq
    exact h before a error' after' (List.append_inj' heq rfl).1

/-- A request that changes no interface. -/
theorem Owns.request {r : Request} (haccept : s.accept E r = s) (h : Owns E s) :
    Owns E (s.request E r) := by
  rw [request_of_accept haccept]
  exact fun hi => (h hi).append _

/-- One more request, which comes in time if it joins a mesh. -/
theorem Joins.request {r : Request} (h : Joins E netifs s) (howns : Owns E (s.request E r))
    (hr : ∀ a, r = .joinMesh a →
      (∃ netif ∈ netifs, Nl80211Handler.IsFor E netif.toNetInterface a) ∧ Ready E a s.sent) :
    Joins E netifs (s.request E r) where
  kept := h.kept.request r
  owned := howns
  ready := ready_concat h.ready hr
  calls := by
    rw [calls_request]
    exact h.calls

/-- Joining and leaving keep what is known of the requests, as long as the calls are for one of the
interfaces. -/
theorem Joins.stable : Stable E (ConfigCall.IsFor E netifs) (Joins E netifs) where
  request r hr h := h.request (h.owned.request (accept_of_isInner hr _)) fun a ha => by
    simp [ha, Request.isInner] at hr
  rate phyIndex h := ⟨h.kept.update phyIndex fun _ => rfl, h.owned, h.ready, h.calls⟩
  call c hc h := ⟨h.kept, h.owned, h.ready, List.forall_mem_append.mpr
    ⟨h.calls, List.forall_mem_singleton.mpr hc⟩⟩
  index phyIndex _ h := ⟨h.kept.update phyIndex fun _ => rfl, h.owned, h.ready, h.calls⟩

/-- What is known of the record stays known, if more requests do not change it. -/
theorem stable_sent {P : List (Request × ℤ) → Prop} (hP : ∀ sent x, P sent → P (sent ++ [x])) :
    Stable E (fun _ => True) fun s => P s.sent where
  request _ _ h := hP _ _ h
  rate _ h := h
  call _ _ h := h
  index _ _ h := h

/-! ### Joining -/

/-- Send a request, and wait for the answer if the code does. -/
def perform (E : Environment) (r : Request) : Action State Failure :=
  if r.isAwaited then sendAndReceive E r else send E r

/-- The registrations and the keys are a loop over requests. -/
theorem registerAndInstallKeys_eq {netif : Netif} {ifIndex : ℕ}
    (h : netif.maybeIfIndex = some ifIndex) (isSecure : Bool) :
    registerAndInstallKeys E netif isSecure =
      forEach (perform E) (preparation E ifIndex isSecure) := by
  unfold registerAndInstallKeys registerForAuthFrames registerForMeshPeeringFrames installKey
  simp only [withIfIndex, h]
  cases isSecure with
  | false =>
    have hskip : skip = fun s => (s, none) := rfl
    simp [preparation, forEach, andThen_done, hskip, perform, Request.isAwaited]
  | true => simp [preparation, forEach, andThen_assoc, andThen_done, perform, Request.isAwaited]

/-- A request that throws nothing is done. -/
theorem done_perform {r : Request} (h : (perform E r s).2 = none) :
    r.Done (perform E r s).1.sent := by
  refine ⟨s.answer E r, ?_, fun hawaited => ?_⟩
  · unfold perform
    split <;> exact List.mem_append_right _ (List.mem_singleton_self _)
  · rw [perform, if_pos hawaited] at h
    by_contra hpasses
    simp [sendAndReceive, hpasses] at h

/-- What is done stays done. -/
theorem Request.Done.append {r : Request} (h : r.Done sent) (new : List (Request × ℤ)) :
    r.Done (sent ++ new) := by
  obtain ⟨error, hmem, hpasses⟩ := h
  exact ⟨error, List.mem_append_left _ hmem, hpasses⟩

/-- A loop over requests that throws nothing does them all. -/
theorem done_forEach {rs : List Request} (h : (forEach (perform E) rs s).2 = none) :
    ∀ r ∈ rs, r.Done (forEach (perform E) rs s).1.sent := by
  have hpreserves (r r' : Request) : Preserves (fun s => r.Done s.sent) (perform E r') := by
    intro s hs
    unfold perform
    split <;> exact hs.append _
  induction rs generalizing s with
  | nil => simp
  | cons r rs ih =>
    obtain ⟨hr, heq⟩ := andThen_eq_none h
    rw [forEach, heq] at h ⊢
    refine List.forall_mem_cons.mpr ⟨?_, ih h⟩
    exact Preserves.forEach (fun r' _ => hpreserves r r') _ (done_perform hr)

/-- The rate stands in each interface of the radio. -/
def Rated (phyIndex : ℕ) (s : State) : Prop :=
  ∀ n ∈ s.netifs, n.phyIndex = phyIndex → n.mcastRate = kMcastRate

/-- It stays there. -/
theorem Rated.inner (phyIndex : ℕ) : Inner E (fun _ => True) (Rated phyIndex) where
  request r _ h := by
    unfold Rated
    rw [netifs_request]
    exact h
  rate phyIndex' h n' hn' hphy := by
    obtain ⟨n, hn, rfl⟩ := List.mem_map.mp hn'
    by_cases hsame : n.phyIndex = phyIndex'
    · rw [if_pos hsame]
    · rw [if_neg hsame] at hphy ⊢
      exact h n hn hphy
  call _ _ h := h

/-- It is put there. -/
theorem rated_update (phyIndex : ℕ) (s : State) :
    Rated phyIndex (s.update phyIndex fun n => { n with mcastRate := kMcastRate }) := by
  intro n' hn' hphy
  obtain ⟨n, hn, rfl⟩ := List.mem_map.mp hn'
  by_cases hsame : n.phyIndex = phyIndex
  · rw [if_pos hsame]
  · rw [if_neg hsame] at hphy
    exact absurd hphy hsame

/-- A check that does not fail is skipped. -/
theorem andThen_check_eq_none {p : Prop} [Decidable p] {b : Action State Failure}
    (h : (andThen (check p) b s).2 = none) : andThen (check p) b s = b s := by
  by_cases hp : p
  · rw [check_of_true hp]
    exact andThen_of_none rfl
  · rw [check, if_neg hp] at h
    cases h

/-- A call that copies and does not fail. -/
theorem copying_eq_none {call : ConfigCall} {α : Type} {copies : Copying α}
    {f : α → Action State Failure} (h : (copying E call copies f s).2 = none) :
    ∃ a, copies.eval = .ok a ∧
      copying E call copies f s = f a { s with calls := s.calls ++ [call] } := by
  rw [copying, andThen_modify] at h ⊢
  split at h
  next hwithin =>
    rw [if_pos hwithin]
    cases heval : copies.eval with
    | error e => simp [heval, fail] at h
    | ok a => exact ⟨a, rfl, rfl⟩
  next => cases h

/-- The mesh is secure if the interface is encrypted. -/
theorem createMeshConfig_isSecure {S : AuthsaeSizes} {netif : NetInterface} {mesh : MeshdConfig}
    (h : (createMeshConfig S netif).eval = .ok mesh) : mesh.isSecure = netif.isEncrypted := by
  cases hname : netif.maybeIfName with
  | none =>
    rw [createMeshConfig, hname] at h
    cases h
  | some ifName =>
    rw [createMeshConfig, hname] at h
    obtain rfl := Except.ok.inj h
    rfl

/-- The end of `initMesh`, if it does not fail. -/
theorem initAmpe_spec {netif : Netif} {ifIndex : ℕ} (hindex : netif.maybeIfIndex = some ifIndex)
    {mesh : MeshdConfig} (h : (initAmpe E netif mesh s).2 = none) :
    Rated netif.phyIndex (initAmpe E netif mesh s).1 ∧
      ∀ r ∈ preparation E ifIndex mesh.isSecure, r.Done (initAmpe E netif mesh s).1.sent := by
  rw [initAmpe, andThen_modify] at h ⊢
  have hreported := andThen_check_eq_none h
  rw [hreported] at h ⊢
  have hfits := andThen_check_eq_none h
  rw [hfits] at h ⊢
  cases hrates : setSupportedBasicRates netif.phyIndex mesh.is5GHz netif.bandRates with
  | error e => simp [hrates, fail] at h
  | ok rates =>
    simp only [hrates] at h ⊢
    split at h
    next => cases h
    next hampe =>
      rw [if_neg hampe]
      refine ⟨(Rated.inner _).registerAndInstallKeys _ _ _ (rated_update _ _), ?_⟩
      rw [registerAndInstallKeys_eq hindex] at h ⊢
      exact done_forEach h

/-- `initMesh` with userspace peering, if it does not fail. -/
theorem initMesh_spec {netif : Netif} {ifIndex : ℕ} (hindex : netif.maybeIfIndex = some ifIndex)
    (hon : (E.flags.userspaceMeshPeering || netif.isEncrypted) = true)
    (h : (initMesh E netif s).2 = none) :
    Rated netif.phyIndex (initMesh E netif s).1 ∧
      ∀ r ∈ preparation E ifIndex netif.isEncrypted, r.Done (initMesh E netif s).1.sent := by
  rw [initMesh, if_pos hon, initAuthsae] at h ⊢
  obtain ⟨saeConfig, -, heq⟩ := copying_eq_none h
  rw [heq] at h ⊢
  split at h
  next => cases h
  next hinit =>
    rw [if_neg hinit]
    obtain ⟨mesh, hmesh, heq⟩ := copying_eq_none h
    rw [heq] at h ⊢
    rw [← createMeshConfig_isSecure hmesh]
    exact initAmpe_spec hindex h

/-- The second half of a round: the link is up by then. -/
theorem Joins.initAndJoin (hphys : (netifs.map (·.phyIndex)).Nodup) {netif : Netif}
    (hmem : netif ∈ netifs) (hvalid : netif.isValid = true) {ifIndex : ℕ} (h : Joins E netifs s)
    (hindexed : Indexed netif.phyIndex ifIndex s)
    (hlink : (.changeLink ifIndex true, 0) ∈ s.sent) (howned : Owned E s.sent) :
    Joins E netifs (andThen (withNetif netif.phyIndex (initMesh E))
      (withNetif netif.phyIndex (joinMesh E)) s).1 := by
  rcases withNetif_cases netif.phyIndex (initMesh E) s with ⟨-, what, heq⟩ | ⟨n, hn, hphy, heq⟩
  · rw [andThen_of_some (by rw [heq]), heq]
    exact h
  have hcore := h.kept.core_eq hphys hmem hn hphy
  have hsame : n.toNetInterface = netif.toNetInterface := congrArg (·.toNetInterface) hcore
  have h₁ : Joins E netifs (initMesh E n s).1 := Joins.stable.initMesh
    (fun hon c hc => ⟨netif, hmem, hvalid, hsame ▸ hon, hc.trans hsame⟩) s h
  have hindexed₁ : Indexed netif.phyIndex ifIndex (initMesh E n s).1 :=
    (Indexed.inner _ _).initMesh (fun _ _ _ => trivial) s hindexed
  have hearlier : (Request.changeLink ifIndex true, (0 : ℤ)) ∈ (initMesh E n s).1.sent ∧
      Owned E (initMesh E n s).1.sent :=
    (stable_sent (P := fun sent => (Request.changeLink ifIndex true, 0) ∈ sent ∧ Owned E sent)
      fun _ _ h => ⟨List.mem_append_left _ h.1, h.2.append _⟩).initMesh
        (fun _ _ _ => trivial) s ⟨hlink, howned⟩
  cases hinit : (initMesh E n s).2 with
  | some e =>
    rw [andThen_of_some (by rw [heq, hinit]), heq]
    exact h₁
  | none =>
    have hspec := fun hon => initMesh_spec (E := E) (hindexed n hn hphy) hon hinit
    rw [andThen_of_none (by rw [heq, hinit]), heq]
    generalize (initMesh E n s).1 = s₁ at *
    rcases withNetif_cases netif.phyIndex (joinMesh E) s₁ with
      ⟨-, what, heq⟩ | ⟨n', hn', hphy', heq⟩
    · rw [heq]
      exact h₁
    · have hcore' := h₁.kept.core_eq hphys hmem hn' hphy'
      have hsame' : n'.toNetInterface = netif.toNetInterface :=
        congrArg (·.toNetInterface) hcore'
      have henc : n'.isEncrypted = n.isEncrypted := by rw [hsame', hsame]
      rw [heq, joinMesh, withIfIndex, hindexed₁ n' hn' hphy']
      refine h₁.request (h₁.owned.request rfl) ?_
      rintro a ⟨⟩
      refine ⟨⟨netif, hmem, hvalid, n', hsame', fun hon => ?_, rfl⟩, hearlier.2, hearlier.1, ?_⟩
      · exact (hspec (henc ▸ hon)).1 n' hn' (hphy'.trans hphy.symm)
      · intro setup hsetup
        by_cases hon : (E.flags.userspaceMeshPeering || n'.isEncrypted) = true
        · have hauth : setup.userspaceAuth = n.isEncrypted := by
            simp only [joinRequest, if_pos hon, Option.some.injEq] at hsetup
            rw [← hsetup, meshSetup, henc]
            cases n.isEncrypted <;> rfl
          rw [hauth]
          exact (hspec (henc ▸ hon)).2
        · simp [joinRequest, hon] at hsetup

/-- A round of `joinMeshes`. -/
theorem Joins.joinNetif (hphys : (netifs.map (·.phyIndex)).Nodup)
    (hnames : ∀ n ∈ netifs, n.maybeIfName = none ∨ n.maybeIfName = some E.flags.interfaceName)
    {netif : Netif} (hmem : netif ∈ netifs) :
    Preserves (Joins E netifs) (joinNetif E netif) := by
  unfold Nl80211Handler.joinNetif
  split
  next hvalid =>
    intro s h
    have h₁ := Joins.stable.setLinkFlags true netif s h
    cases hup : (setLinkFlags E true netif s).2 with
    | some e => rwa [andThen_of_some hup]
    | none =>
      obtain ⟨ifName, i, hname, hi, hindexed, hlink⟩ := setLinkFlags_spec hup
      have howned : Owned E s.sent := by
        refine h.owned ⟨_, hi, ?_⟩
        rcases hnames _ hmem with hnone | hsome
        · simp [hnone] at hname
        · exact Option.some.inj (hname.symm.trans hsome)
      rw [andThen_of_none hup]
      exact h₁.initAndJoin hphys hmem hvalid hindexed hlink
        ((stable_sent fun _ _ h => h.append _).setLinkFlags true netif s howned)
  next => exact preserves_skip

/-- All rounds. -/
theorem Joins.joinMeshes (hphys : (netifs.map (·.phyIndex)).Nodup)
    (hnames : ∀ n ∈ netifs, n.maybeIfName = none ∨ n.maybeIfName = some E.flags.interfaceName)
    (h : Joins E netifs s) (hsame : s.netifs = netifs) :
    Joins E netifs (Nl80211Handler.joinMeshes E s).1 :=
  Preserves.forEach (fun _ hn => Joins.joinNetif hphys hnames (hsame ▸ hn)) s h

/-! ### Before and after -/

/-- An interface less. -/
theorem Owns.delInterface (h : Owns E s) (i : ℕ) : Owns E (s.request E (.delInterface i)) := by
  rintro ⟨j, hj, hname⟩
  refine (h ?_).append _
  unfold State.request at hj
  split at hj
  · exact ⟨j, List.mem_of_mem_filter hj, hname⟩
  · exact ⟨j, hj, hname⟩

/-- The handler's own interface. -/
theorem Owns.newInterface (h : Owns E s) (wiphy : ℕ) (mac : Option MacAddress) :
    Owns E (s.request E (.newInterface wiphy E.flags.interfaceName mac)) := by
  unfold State.request
  split
  next hanswer =>
    refine fun _ => .inr ⟨wiphy, mac, ?_⟩
    rw [hanswer]
    exact List.mem_append_right _ (List.mem_singleton_self _)
  next => exact fun hi => (h hi).append _

/-- The destructor joins nothing. -/
theorem Joins.tearDown : Preserves (Joins E netifs) (tearDown E) := by
  intro s h
  refine Preserves.forEach (fun n _ => ?_) s h
  split
  · refine (preserves_deleteInterface (fun i h => ?_) _).handle _
    exact h.request (h.owned.delInterface i) fun a ha => by cases ha
  · exact preserves_skip

/-- Neither was a request to join a mesh sent, nor was a configuration copied. -/
structure Apart (s : State) : Prop where
  sent : ∀ a error, (.joinMesh a, error) ∉ s.sent
  calls : s.calls = []

/-- One more request, for something else. -/
theorem Apart.request (h : Apart s) {r : Request} (hr : ∀ a, r ≠ .joinMesh a) :
    Apart (s.request E r) where
  sent a error hmem := by
    rw [sent_request, List.mem_append, List.mem_singleton] at hmem
    rcases hmem with hmem | heq
    · exact h.sent a error hmem
    · exact hr a (Prod.mk.inj heq).1.symm
  calls := by
    rw [calls_request]
    exact h.calls

/-- After the interface with the configured name is deleted, or could not be deleted. -/
theorem owns_deleteInterface (hname : E.flags.interfaceName ≠ []) {base : List KernelInterface}
    (h : Tidy E base s) : Owns E (deleteInterface E E.flags.interfaceName s).1 := by
  rintro ⟨i, hi, hiname⟩
  by_cases hdel : Deletable (deleteInterface E E.flags.interfaceName s).1
  · exact absurd hiname (gone_deleteInterface hname h hdel i hi)
  · unfold Deletable at hdel
    push Not at hdel
    exact .inl hdel

/-- What the constructor has asked for. -/
theorem Initial.owns (h : Initial s) (hdone : (Nl80211Handler.construct E s).2 = none) :
    Apart (Nl80211Handler.construct E s).1 ∧ Owns E (Nl80211Handler.construct E s).1 := by
  rcases construct_cases (E := E) h.unused with
    ⟨netifs, e, hfail⟩ | ⟨-, hname, netif, hmem, -, netif', hc, heq⟩
  · simp [hfail] at hdone
  have hifName := hc.fromFlags.ifName
  have hapart : Apart (s.update netif'.phyIndex fun _ => netif') := by
    refine ⟨fun a error hmem => ?_, h.calls⟩
    rw [State.update, h.sent] at hmem
    cases hmem
  have htidy : Tidy E (s.interfaces.filter (·.1 ≠ E.flags.interfaceName))
      (s.update netif'.phyIndex fun _ => netif') :=
    Tidy.update ⟨h.names, h.indices, rfl, fun n hn => .inl (h.unused n hn)⟩ _ fun _ => .inr hifName
  have hcreate : Preserves (Owns E) (createInterface E netif') := by
    refine preserves_createInterface (fun mac h => ?_) fun _ _ h => h
    rw [hifName]
    exact h.newInterface _ mac
  rw [heq]
  refine ⟨Preserves.andThen ?_ ?_ _ hapart, ?_⟩
  · exact preserves_deleteInterface (fun _ h => h.request (by simp)) _
  · exact preserves_createInterface (fun _ h => h.request (by simp)) fun _ _ h => ⟨h.sent, h.calls⟩
  · have howns := owns_deleteInterface hname htidy
    cases hres : (deleteInterface E E.flags.interfaceName
        (s.update netif'.phyIndex fun _ => netif')).2 with
    | none =>
      rw [andThen_of_none hres]
      exact hcreate _ howns
    | some e => rwa [andThen_of_some hres]

/-- What joining starts from. -/
theorem Initial.joins (h : Initial s) (hdone : (Nl80211Handler.construct E s).2 = none) :
    Joins E (Nl80211Handler.construct E s).1.netifs
      (joinMeshes E (Nl80211Handler.construct E s).1).1 := by
  obtain ⟨hapart, howns⟩ := h.owns hdone
  obtain ⟨-, -, -, hbuilt, htidy⟩ := h.construct hdone
  refine Joins.joinMeshes (hbuilt.phys ▸ h.phys) htidy.netifs ⟨rfl, howns, ?_, ?_⟩ rfl
  · intro before a error after heq
    exact absurd (heq ▸ List.mem_append_right _ List.mem_cons_self) (hapart.sent a error)
  · simp [hapart.calls]

/-- The requests of a whole session: the flags stand in the interfaces that are used. -/
theorem Initial.session (h : Initial s) :
    Apart (session E s).1 ∨
      validateConfiguration E.S E.flags = .ok () ∧
        ∃ netifs : List Netif, Joins E netifs (session E s).1 ∧
          ∀ n ∈ netifs, n.isValid = true → FromFlags E.flags n.toNetInterface := by
  cases hdone : (Nl80211Handler.construct E s).2 with
  | some e =>
    rcases construct_cases (E := E) h.unused with ⟨netifs, e, heq⟩ | ⟨-, -, _, -, -, _, -, heq⟩
    · left
      rw [session_of_construct_isSome (by simp [hdone]), heq]
      exact ⟨by simp [h.sent], h.calls⟩
    · simp [heq] at hdone
  | none =>
    obtain ⟨hvalid, -, -, hbuilt, -⟩ := h.construct hdone
    refine .inr ⟨hvalid, _, session_after_join hdone Joins.stable.leaveMeshes Joins.tearDown
      (h.joins hdone), fun n hn hused => ?_⟩
    rcases hbuilt.used n hn with hnone | ⟨hflags, -⟩
    · simp [NetInterface.isValid, hnone] at hused
    · exact hflags

/-- Whatever the kernel refuses, a request to join a mesh is sent only after the kernel accepted the
interface (unless it refused to delete one with the name) and that its link is up. If the peering is
done in userspace, the registrations for the frames of the peers have been sent by then and, on an
encrypted mesh, the two group keys, with answers that are not taken for a failure. -/
theorem join_requests_prepared {E : Environment} {s : State} (h : Initial s)
    {before after : List (Request × ℤ)} {a : JoinMesh} {error : ℤ}
    (hsent : (session E s).1.sent = before ++ (.joinMesh a, error) :: after) :
    ((∃ i error, (.delInterface i, error) ∈ before ∧ error ≠ 0) ∨
        ∃ wiphy mac, (.newInterface wiphy E.flags.interfaceName mac, 0) ∈ before) ∧
      (.changeLink a.ifIndex true, 0) ∈ before ∧
      ∀ setup, a.setup = some setup →
        ∀ r ∈ preparation E a.ifIndex setup.userspaceAuth, r.Done before := by
  rcases h.session (E := E) with hapart | ⟨-, netifs, hjoins, -⟩
  · exact absurd (hsent ▸ List.mem_append_right _ List.mem_cons_self) (hapart.sent a error)
  · obtain ⟨howned, hlink, hsetup⟩ := (hjoins.ready before a error after hsent).2
    exact ⟨howned, hlink, hsetup⟩

/-- An encrypted mesh with the other flags at their defaults, and a kernel that refuses the
registrations for frames only. -/
def encryptedEnvironment : Environment :=
  sampleEnvironment { enableEncryption := true } fun
    | .registerFrame .. => -114
    | _ => 0

/-- The request that joins it. -/
def encryptedJoin : JoinMesh where
  meshId := ascii "mesh-soma"
  ifIndex := 2
  wiphyFreq := 5805
  channelWidth := .width40
  centerFreq1 := 5795
  centerFreq2 := 0
  rssiThreshold := some (-80)
  maxPeerLinks := 32
  ttl := 31
  elementTtl := 31
  hwmpActivePathTimeout := 30000
  hwmpRannInterval := 3000
  setup := some ⟨true, true, some 1, some rsnInformationElements⟩
  mcastRate := some 120

/-- An encrypted mesh is joined after all that prepares it. -/
theorem join_requests_prepared_encrypted :
    (.joinMesh encryptedJoin, 0) ∈ (session encryptedEnvironment startWithLeftOver).1.sent ∧
      ∀ r ∈ preparation encryptedEnvironment 2 true,
        r.Done ((session encryptedEnvironment startWithLeftOver).1.sent.take 11) := by
  have hsent : (session encryptedEnvironment startWithLeftOver).1.sent =
      (session encryptedEnvironment startWithLeftOver).1.sent.take 11 ++
        (.joinMesh encryptedJoin, 0) ::
          (session encryptedEnvironment startWithLeftOver).1.sent.drop 12 := by decide +kernel
  refine ⟨?_, (join_requests_prepared initial_startWithLeftOver hsent).2.2 _ rfl⟩
  rw [hsent]
  exact List.mem_append_right _ List.mem_cons_self

/-- The request carries the flags, without loss. -/
structure JoinMesh.Carries (flags : HandlerFlags) (a : JoinMesh) : Prop where
  meshId : a.meshId = flags.meshId
  wiphyFreq : a.wiphyFreq = flags.meshFrequency.toUInt32
  channelWidth : channelWidthOf flags.meshChannelType = .ok a.channelWidth
  centerFreq1 : a.centerFreq1 = flags.meshCenterFreq1.toUInt32
  centerFreq2 : a.centerFreq2 = flags.meshCenterFreq2.toUInt32
  rssiThreshold : a.rssiThreshold = some flags.meshRssiThreshold.toUInt32
  maxPeerLinks : a.maxPeerLinks.toNat = flags.meshMaxPeerLinks.toNat
  ttl : a.ttl.toNat = flags.meshTtl.toNat
  elementTtl : a.elementTtl.toNat = flags.meshTtlElement.toNat
  hwmpActivePathTimeout : a.hwmpActivePathTimeout = flags.meshHwmpActivePathTimeout
  hwmpRannInterval : a.hwmpRannInterval = flags.meshHwmpRannInterval
  setup : a.setup.isSome = (flags.userspaceMeshPeering || flags.enableEncryption)
  secure : ∀ setup, a.setup = some setup →
    setup.userspaceAuth = flags.enableEncryption ∧ setup.userspaceAmpe = flags.enableEncryption ∧
      setup.authProtocol = (if flags.enableEncryption then some 1 else none) ∧
      setup.ie = (if flags.enableEncryption then some rsnInformationElements else none)
  mcastRate : a.mcastRate =
    if flags.userspaceMeshPeering || flags.enableEncryption then some 120 else none

/-- What the checks of the flags say about the numbers that are narrowed. -/
theorem validateConfiguration_ranges {S : AuthsaeSizes} {flags : HandlerFlags}
    (h : validateConfiguration S flags = .ok ()) :
    flags.meshMaxPeerLinks ≤ 255 ∧ flags.meshTtl ≤ 255 ∧ flags.meshTtlElement ≤ 255 := by
  unfold validateConfiguration at h
  simp only [reject_bind_eq_ok_iff] at h
  obtain ⟨-, -, -, hlinks, httl, helement, -⟩ := h
  simp only [not_or, UInt32.not_lt] at hlinks httl helement
  exact ⟨hlinks, httl.2, helement.2⟩

private theorem toNat_toUInt8_of_le {x : UInt32} (h : x ≤ 255) : x.toUInt8.toNat = x.toNat := by
  have hx : x.toNat ≤ 255 := UInt32.le_iff_toNat_le.mp h
  rw [UInt32.toNat_toUInt8, Nat.mod_eq_of_lt (by omega)]

private theorem carries_joinRequest (hvalid : validateConfiguration E.S E.flags = .ok ())
    {n : Netif}
    (h : FromFlags E.flags n.toNetInterface)
    (hrate : (E.flags.userspaceMeshPeering || n.isEncrypted) = true → n.mcastRate = kMcastRate)
    (ifIndex : ℕ) : (joinRequest E n ifIndex).Carries E.flags := by
  obtain ⟨hlinks, httl, helement⟩ := validateConfiguration_ranges hvalid
  rw [h.isEncrypted] at hrate
  refine {
    meshId := h.meshId
    wiphyFreq := congrArg Int32.toUInt32 h.frequency
    channelWidth := h.channelWidth
    centerFreq1 := congrArg Int32.toUInt32 h.centerFreq1
    centerFreq2 := congrArg Int32.toUInt32 h.centerFreq2
    rssiThreshold := congrArg (Option.map Int32.toUInt32) h.rssiThreshold
    maxPeerLinks := ?_
    ttl := (congrArg UInt8.toNat h.ttl).trans (toNat_toUInt8_of_le httl)
    elementTtl := (congrArg UInt8.toNat h.elementTtl).trans (toNat_toUInt8_of_le helement)
    hwmpActivePathTimeout := h.hwmpActivePathTimeout
    hwmpRannInterval := h.hwmpRannInterval
    setup := ?_
    secure := ?_
    mcastRate := ?_ }
  · have hle : E.flags.meshMaxPeerLinks.toNat ≤ 255 := UInt32.le_iff_toNat_le.mp hlinks
    refine (congrArg UInt16.toNat h.maxPeerLinks).trans ?_
    rw [UInt32.toNat_toUInt16, Nat.mod_eq_of_lt (by omega)]
  · simp only [joinRequest, h.isEncrypted]
    split <;> simp_all
  · intro setup hsetup
    simp only [joinRequest, h.isEncrypted, meshSetup] at hsetup
    split at hsetup
    · obtain rfl := Option.some.inj hsetup
      cases E.flags.enableEncryption <;> simp
    · cases hsetup
  · simp only [joinRequest, h.isEncrypted]
    by_cases hon : (E.flags.userspaceMeshPeering || E.flags.enableEncryption) = true
    · rw [hrate hon, hon]
      rfl
    · simp [hon]

/-- Every request to join a mesh carries the configuration of the flags: none of the numbers is cut
off on its way through the interface, and the attributes of a secured mesh are there exactly if
encryption is on. -/
theorem join_requests_as_configured {E : Environment} {s : State} (h : Initial s) {a : JoinMesh}
    {error : ℤ} (hmem : (.joinMesh a, error) ∈ (session E s).1.sent) : a.Carries E.flags := by
  rcases h.session (E := E) with hapart | ⟨hvalid, netifs, hjoins, hflags⟩
  · exact absurd hmem (hapart.sent a error)
  obtain ⟨before, after, hsent⟩ := List.append_of_mem hmem
  obtain ⟨⟨netif, hnetif, hused, n, hn, hrate, ha⟩, -⟩ := hjoins.ready before a error after hsent
  rw [ha]
  exact carries_joinRequest hvalid (hn ▸ hflags _ hnetif hused) hrate _

/-- The request to join it carries the flags. -/
theorem join_requests_as_configured_encrypted :
    encryptedJoin.Carries encryptedEnvironment.flags := by
  have hmem : (.joinMesh encryptedJoin, 0) ∈
      (session encryptedEnvironment startWithLeftOver).1.sent := by decide +kernel
  exact join_requests_as_configured initial_startWithLeftOver hmem

end Nl80211Handler

end Fbmeshd
