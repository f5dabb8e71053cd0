import Fbmeshd.Dot11s.PeeringRuns

/-!
# The order of the requests about a peer

The kernel wants a station before anything is done to it, and a key is of use only for a station
that is authenticated. The requests of a run are compared with those before them for which
`sendAndReceive` returned, that is, which the kernel accepted or refused without notice. Nothing is
assumed of authsae.
-/

namespace Fbmeshd

namespace Peering

open Fallible

/-- `sendAndReceive` returned from a request for a station with the address. -/
def Created (log : List (Request × ℤ)) (m : MacAddress) : Prop :=
  ∃ (r : Request) (error : ℤ), r.creates = some m ∧ (r, error) ∈ log ∧
    Nl.NetlinkSocket.passes error = true

/-- `sendAndReceive` returned from the request that authenticates the station. -/
def Authenticated (log : List (Request × ℤ)) (m : MacAddress) : Prop :=
  ∃ (mfp : Bool) (error : ℤ), (.setAuthenticated m mfp, error) ∈ log ∧
    Nl.NetlinkSocket.passes error = true

variable (E : Environment)

/-- What the requests before this one have to be. -/
def Request.Prepared (log : List (Request × ℤ)) : Request → Prop
  | .setAuthenticated m _ => Created log m
  | .delStation m => Created log m
  | .newKey (some m) cipher _ _ keyData =>
    Created log m ∧ Authenticated log m ∧ keyData.length = E.keyLength cipher
  | _ => True

/-- Each request is prepared, and a mark stands for a station that was asked for. -/
structure InOrder (s : State) : Prop where
  wellFormed : s.WellFormed E
  marked : ∀ c ∈ s.peers, c.inKernel = true → Created s.sent c.peerMac
  prepared : ∀ before r error after, s.sent = before ++ (r, error) :: after → r.Prepared E before

variable {E} {s s' : State} {m : MacAddress}

private theorem Created.append {log : List (Request × ℤ)} (h : Created log m)
    (log' : List (Request × ℤ)) : Created (log ++ log') m := by
  obtain ⟨r, error, hr, hmem, hpasses⟩ := h
  exact ⟨r, error, hr, List.mem_append_left _ hmem, hpasses⟩

private theorem Authenticated.append {log : List (Request × ℤ)} (h : Authenticated log m)
    (log' : List (Request × ℤ)) : Authenticated (log ++ log') m := by
  obtain ⟨mfp, error, hmem, hpasses⟩ := h
  exact ⟨mfp, error, List.mem_append_left _ hmem, hpasses⟩

/-- One more request, which is prepared. -/
theorem prepared_concat {log : List (Request × ℤ)} {r : Request} {error : ℤ}
    (h : ∀ before r error after, log = before ++ (r, error) :: after → r.Prepared E before)
    (hr : r.Prepared E log) :
    ∀ before r' error' after, log ++ [(r, error)] = before ++ (r', error') :: after →
      r'.Prepared E before := by
  intro before r' error' after hlog
  rcases List.eq_nil_or_concat after with rfl | ⟨after', x, rfl⟩
  · obtain ⟨rfl, hx⟩ := List.append_inj' hlog rfl
    obtain ⟨rfl, -⟩ := Prod.mk.inj (List.cons.inj hx).1
    exact hr
  · rw [List.concat_eq_append, ← List.cons_append, ← List.append_assoc] at hlog
    exact h before r' error' after' (List.append_inj' hlog rfl).1

/-- The list of candidates only loses marks. -/
theorem InOrder.of_peers (h : InOrder E s) (hwf : s'.WellFormed E) (hsent : s'.sent = s.sent)
    (hpeers : ∀ c' ∈ s'.peers, c'.inKernel = true →
      ∃ c ∈ s.peers, c.peerMac = c'.peerMac ∧ c.inKernel = true) : InOrder E s' where
  wellFormed := hwf
  marked c' hc' hkernel := by
    obtain ⟨c, hc, hmac, hmarked⟩ := hpeers c' hc' hkernel
    rw [hsent, ← hmac]
    exact h.marked c hc hmarked
  prepared := hsent ▸ h.prepared

/-- A request that is prepared, other than for a new station. -/
theorem InOrder.send (h : InOrder E s) {r : Request} (hnew : r.creates = none)
    (hr : r.Prepared E s.sent) : InOrder E (Peering.send E r s).1 where
  wellFormed := ((isNeutral_send hnew).apply h.wellFormed).1
  marked c hc hkernel := by
    obtain ⟨hpeers, hsent, -⟩ := send_eq (E := E) r s
    rw [hsent]
    exact (h.marked c (hpeers ▸ hc) hkernel).append _
  prepared := by
    rw [(send_eq r s).2.1]
    exact prepared_concat h.prepared hr

private theorem prepared_of_creates {r : Request} (h : r.creates = some m)
    (log : List (Request × ℤ)) :
    r.Prepared E log := by
  cases r with
  | newStation => trivial
  | setAuthenticated | setPlinkState | delStation | newKey | setKey | frame | setMeshConfig =>
    simp [Request.creates] at h

private theorem InOrder.ensureStation (h : InOrder E s) (netif : MeshNetif) (elems : InfoElems)
    {cand : Candidate} (hcand : s.Holds m cand) :
    InOrder E (Peering.ensureStation E netif m elems cand s).1 ∧
      ((Peering.ensureStation E netif m elems cand s).2 = none →
        Created (Peering.ensureStation E netif m elems cand s).1.sent m) := by
  obtain ⟨c, hc, hid, hmac, hkernel⟩ := hcand
  unfold Peering.ensureStation
  split
  next hmarked => exact ⟨h, fun _ => hmac ▸ h.marked c hc (hkernel.trans hmarked)⟩
  next hnew =>
    rcases createUnauthenticatedStation_cases E netif m elems s with
      ⟨e, heq⟩ | ⟨r, hr, ⟨e, heq⟩ | ⟨hpasses, heq⟩⟩
    · rw [andThen_of_some (by rw [heq]), heq]
      exact ⟨h, nofun⟩
    · rw [andThen_of_some (by rw [heq]), heq]
      refine ⟨⟨⟨h.wellFormed.id_lt, h.wellFormed.ids, h.wellFormed.reports⟩,
        fun c hc hkernel => (h.marked c hc hkernel).append _, ?_⟩, nofun⟩
      exact prepared_concat h.prepared (prepared_of_creates hr _)
    · rw [andThen_of_none (by rw [heq]), heq]
      have hcreated : Created (s.sent ++ [(r, E.reply s.sent r)]) m :=
        ⟨r, _, hr, List.mem_append_right _ (List.mem_singleton_self _), hpasses⟩
      refine ⟨⟨?_, fun c' hc' hkernel' => ?_, ?_⟩, fun _ => hcreated⟩
      · exact wellFormed_update cand.id (fun _ => rfl)
          ⟨h.wellFormed.id_lt, h.wellFormed.ids, h.wellFormed.reports⟩
      · obtain ⟨c'', hc'', rfl⟩ := List.mem_map.mp hc'
        by_cases hid' : c''.id = cand.id
        · -- the candidate that was marked just now
          obtain rfl := h.wellFormed.eq_of_id hc'' hc (hid'.trans hid.symm)
          simp only [hid', if_true]
          exact hmac ▸ hcreated
        · simp only [hid', if_false] at hkernel' ⊢
          exact (h.marked c'' hc'' hkernel').append _
      · exact prepared_concat h.prepared (prepared_of_creates hr _)

/-- The key of a station that is authenticated. -/
theorem preserves_installKey (netif : MeshNetif) (cipher : Cipher) (keyType : KeyType)
    (keyIdx : UInt8) (keyData : List UInt8) :
    Preserves (fun s => InOrder E s ∧ Created s.sent m ∧ Authenticated s.sent m)
      (installKey E netif (some m) cipher keyType keyIdx keyData) := by
  refine (preserves_check _).andThen ?_
  split
  · exact fun _ hs => hs
  next hlen =>
    refine Preserves.andThen ?_ ?_
    · rintro s ⟨h, hcreated, hauth⟩
      refine ⟨h.send rfl ⟨hcreated, hauth, ?_⟩, ?_⟩
      · rw [List.length_take]
        omega
      · rw [(send_eq _ s).2.1]
        exact ⟨hcreated.append _, hauth.append _⟩
    · rintro s ⟨h, hcreated, hauth⟩
      refine ⟨h.send rfl trivial, ?_⟩
      rw [(send_eq _ s).2.1]
      exact ⟨hcreated.append _, hauth.append _⟩

private theorem preserves_installKeys (keys : LinkKeys) :
    Preserves (fun s => InOrder E s ∧ Created s.sent m ∧ Authenticated s.sent m)
      (installKeys E m keys) := by
  refine .andThen (preserves_installKey _ _ _ _ _) (.andThen (preserves_installKey _ _ _ _ _) ?_)
  split
  · exact fun _ hs => hs
  · exact preserves_installKey _ _ _ _ _

/-- The interface of the mesh has its index. -/
theorem setStationAuthenticated_mesh (m : MacAddress) :
    setStationAuthenticated E E.mesh m =
      send E (.setAuthenticated m (E.mesh.conf.isSecure && E.mesh.pmf)) := by
  have hcheck : check (E.mesh.maybeIfIndex.isSome = true) = skip := by
    simp [check, E.hasIfIndex]
  unfold setStationAuthenticated
  rw [hcheck]
  rfl

private theorem InOrder.establish (h : InOrder E s) (keys : LinkKeys) {cand : Candidate}
    (hcand : s.Holds m cand) : InOrder E (Peering.establish E m keys cand s).1 := by
  unfold Peering.establish
  split
  next => exact h
  next =>
    obtain ⟨hs₁, hcreated⟩ := h.ensureStation E.mesh cand.ies hcand
    cases hres : (Peering.ensureStation E E.mesh m cand.ies cand s).2 with
    | some e =>
      rw [andThen_of_some hres]
      exact hs₁
    | none =>
      rw [andThen_of_none hres, setStationAuthenticated_mesh]
      have hc := hcreated hres
      generalize (Peering.ensureStation E E.mesh m cand.ies cand s).1 = s₁ at hs₁ hc
      generalize hr : Request.setAuthenticated m (E.mesh.conf.isSecure && E.mesh.pmf) = r
      have hs₂ : InOrder E (Peering.send E r s₁).1 := hr ▸ hs₁.send rfl hc
      cases hsent : (Peering.send E r s₁).2 with
      | some e =>
        rw [andThen_of_some hsent]
        exact hs₂
      | none =>
        rw [andThen_of_none hsent]
        obtain ⟨-, hlog, hiff⟩ := send_eq (E := E) r s₁
        split
        · refine (preserves_installKeys keys _ ⟨hs₂, ?_, ?_⟩).1
          · rw [hlog]
            exact hc.append _
          · rw [hlog, ← hr]
            exact ⟨_, _, List.mem_append_right _ (List.mem_singleton_self _),
              hr ▸ hiff.mp hsent⟩
        · exact hs₂

private theorem InOrder.deletePeerByAddr (peer : MacAddress) :
    Preserves (InOrder E) (Peering.deletePeerByAddr E peer) := by
  intro s h
  unfold Peering.deletePeerByAddr
  split
  next => exact h
  next cand hfound =>
    have hmem : cand ∈ s.peers ∧ cand.peerMac = peer := by
      rcases Option.or_eq_some_iff.mp hfound with h | ⟨_, h⟩ <;> exact mem_of_find h
    split
    next hkernel => exact h.send rfl (hmem.2 ▸ h.marked cand hmem.1 hkernel)
    next =>
      exact h.of_peers (wellFormed_filter h.wellFormed) rfl fun c hc hkernel =>
        ⟨c, List.mem_of_mem_filter hc, rfl, hkernel⟩

/-- Marks are neither set nor moved to another address. -/
theorem InOrder.update (h : InOrder E s) (id : ℕ) {f : Candidate → Candidate}
    (hf : ∀ c, (f c).id = c.id ∧ (f c).peerMac = c.peerMac ∧ (f c).inKernel = c.inKernel) :
    InOrder E (s.update id f) := by
  refine h.of_peers (wellFormed_update id (fun c => (hf c).1) h.wellFormed) rfl ?_
  intro c' hc' hkernel
  obtain ⟨c, hc, rfl⟩ := List.mem_map.mp hc'
  by_cases hid : c.id = id
  · simp only [hid, if_true] at hkernel ⊢
    exact ⟨c, hc, (hf c).2.1.symm, (hf c).2.2.symm.trans hkernel⟩
  · simp only [hid, if_false] at hkernel ⊢
    exact ⟨c, hc, rfl, hkernel⟩

private theorem InOrder.create (h : InOrder E s) (peer : MacAddress) (associationId : UInt16) :
    InOrder E (Peering.create peer associationId s) := by
  refine h.of_peers (wellFormed_create peer associationId h.wellFormed) rfl fun c hc hkernel => ?_
  rcases List.mem_append.mp hc with hc | hc
  · exact ⟨c, hc, rfl, hkernel⟩
  · obtain rfl := List.mem_singleton.mp hc
    exact absurd hkernel Bool.false_ne_true

private theorem InOrder.delete (h : InOrder E s) (id : ℕ) : InOrder E (s.delete id) :=
  h.of_peers (wellFormed_filter h.wellFormed) rfl fun c hc hkernel =>
    ⟨c, List.mem_of_mem_filter hc, rfl, hkernel⟩

/-- Fewer or other messages. -/
theorem InOrder.events (h : InOrder E s) {events : List Event}
    (hreports : ∀ e ∈ events, ∀ m, e.deletes E = some m → e = deletion E m) :
    InOrder E { s with events } :=
  h.of_peers ⟨h.wellFormed.id_lt, h.wellFormed.ids, hreports⟩ rfl fun c hc hkernel =>
    ⟨c, hc, rfl, hkernel⟩

private theorem stable_inOrder : Stable E (fun _ _ => True) (InOrder E) where
  update id _ hf h := h.update id hf
  create peer associationId _ h := h.create peer associationId
  discard id _ h := h.delete id
  send r hr := by
    cases r <;> first | exact fun _ h => h.send rfl trivial | simp [Request.isQuiet] at hr
  deletePeerByAddr peer := InOrder.deletePeerByAddr peer
  ensureStation netif _ elems _ h hcand := (h.ensureStation netif elems hcand).1
  establish keys _ h hcand := h.establish keys hcand

private theorem preserves_inOrder_calls (calls : List AuthsaeCall) :
    Preserves (InOrder E) (forEach (AuthsaeCall.run E) calls) :=
  fun _ h => stable_inOrder.calls (.of_forall fun _ _ => trivial) h

private theorem InOrder.processEvent (h : InOrder E s) {e : Event}
    (hreport : ∀ m, e.deletes E = some m → e = deletion E m) (calls : List AuthsaeCall)
    (failed : Bool) (close : List AuthsaeCall) :
    InOrder E (Peering.processEvent E calls failed close e s).1 := by
  cases hdel : e.deletes E with
  | none => exact stable_inOrder.processEvent (.of_forall fun _ _ => trivial) failed close hdel h
  | some peer =>
    obtain rfl := hreport peer hdel
    rw [processEvent_deletion]
    split
    next => exact h
    next cand _ =>
      exact Preserves.andThen (preserves_inOrder_calls close) (fun _ h => h.delete cand.id) s h

/-- One move of any party. -/
theorem InOrder.step (h : InOrder E s) (mv : Move) : InOrder E (Peering.step E mv s).1 := by
  cases mv with
  | handle calls failed close =>
    simp only [Peering.step]
    split
    next => exact h
    next e events hevents =>
      have hrest : InOrder E { s with events } := h.events fun e he =>
        h.wellFormed.reports e (hevents ▸ List.mem_cons_of_mem _ he)
      exact hrest.processEvent (h.wellFormed.reports e (hevents ▸ List.mem_cons_self))
        calls failed close
  | timer calls => exact preserves_inOrder_calls calls s h
  | announce e =>
    simp only [Peering.step]
    split
    next => exact h
    next hdel =>
      rw [Bool.not_eq_true, Option.isSome_eq_false_iff, Option.isNone_iff_eq_none] at hdel
      exact h.events ((Neutral.announce hdel).wellFormed h.wellFormed).reports
  | expire peer =>
    have hwf := (Neutral.removeStation (E := E) (s := s) peer).wellFormed h.wellFormed
    simp only [Peering.step, State.removeStation] at hwf ⊢
    split
    next hmem =>
      rw [if_pos hmem] at hwf
      exact h.of_peers hwf rfl fun c hc hkernel => ⟨c, hc, rfl, hkernel⟩
    next => exact h
  | lose i =>
    exact h.events fun e he => h.wellFormed.reports e (List.mem_of_mem_eraseIdx he)

private theorem inOrder_of_reachable {allowed : State → Move → Prop} (h : Reachable E allowed s) :
    InOrder E s := by
  induction h with
  | start => exact ⟨⟨by simp, by simp, by simp⟩, by simp, by simp⟩
  | move _ _ ih => exact ih.step _

/-- The requests about a peer come in order: a station is authenticated or deleted only after
`sendAndReceive` returned from the request for it, and a key is installed for a peer only after it
returned from the request for the station and from the one that authenticates it, and with exactly
the bytes that its cipher asks for. -/
theorem requests_in_order {allowed : State → Move → Prop} (h : Reachable E allowed s)
    {before after : List (Request × ℤ)} {r : Request} {error : ℤ}
    (hsent : s.sent = before ++ (r, error) :: after) :
    (∀ m mfp, r = .setAuthenticated m mfp → Created before m) ∧
      (∀ m, r = .delStation m → Created before m) ∧
      ∀ m cipher keyType keyIdx keyData, r = .newKey (some m) cipher keyType keyIdx keyData →
        Created before m ∧ Authenticated before m ∧ keyData.length = E.keyLength cipher := by
  have hprepared := (inOrder_of_reachable h).prepared before r error after hsent
  refine ⟨?_, ?_, ?_⟩
  · rintro m mfp rfl
    exact hprepared
  · rintro m rfl
    exact hprepared
  · rintro m cipher keyType keyIdx keyData rfl
    exact hprepared

/-- A key of the sample run. -/
def sampleKey : List UInt8 := List.replicate 16 1

/-- The link to the station of the sample run is established. -/
def linkEstablished : State :=
  (step (sampleEnvironment true)
    (.timer [.setConf 0, .estabPeerLink (some 5) ⟨sampleKey, sampleKey, none, 0⟩])
    (stationCreated true)).1

/-- The requests for a station that is heard first by its beacon. -/
theorem requests_in_order_beacon :
    let before : List (Request × ℤ) :=
      [(.newStation 5 1 none none none, 0), (.setAuthenticated 5 true, 0)]
    (∃ after, linkEstablished.sent =
        before ++ (.newKey (some 5) .ccmp .pairwise 0 sampleKey, 0) :: after) ∧
      Created before 5 ∧ Authenticated before 5 ∧ sampleKey.length = 16 := by
  intro before
  have hreachable : Reachable (sampleEnvironment true) (fun _ _ => True) linkEstablished :=
    .move (.move (.move .start trivial) trivial) trivial
  have hsent : linkEstablished.sent =
      before ++ (.newKey (some 5) .ccmp .pairwise 0 sampleKey, 0) ::
        [(.setKey false 0, 0), (.newKey (some 5) .ccmp .group 1 sampleKey, 0),
          (.setKey false 1, 0)] := by decide
  exact ⟨⟨_, hsent⟩, (requests_in_order hreachable hsent).2.2 5 .ccmp .pairwise 0 sampleKey rfl⟩

end Peering

end Fbmeshd
