import Fbmeshd.Dot11s.PeeringBalance

/-!
# Stations and candidates over a whole run

No station of the kernel is without its candidate, however the parties take turns, as long as
authsae gives up no candidate that is marked. The converse holds as well if authsae has one
candidate for an address, no message of the kernel is lost, the links of deleted stations are closed
without an error, and no refusal of a station is absorbed by `receive`.
-/

namespace Fbmeshd

namespace Peering

open Fallible

variable {E : Environment} {s s' : State}

variable (E) in
/-- No message is lost, and closing the link of a deleted station does not fail. -/
def Undisturbed (s : State) : Move → Prop
  | .lose _ => False
  | .handle calls failed close =>
    ∀ e ∈ s.events.head?, (e.deletes E).isSome →
      (step E (.handle calls failed close) s).2 = none
  | _ => True

/-- authsae has one candidate for an address, and gives it up only if it is not marked. -/
def AuthsaeCall.Orderly (c : AuthsaeCall) (s : State) : Prop := c.KeepsMarked s ∧ c.TakesOnce s

variable (E) in
/-- A move in which authsae is orderly and nothing goes wrong. -/
def Orderly (s : State) (m : Move) : Prop := m.Obeys E AuthsaeCall.Orderly s ∧ Undisturbed E s m

/-! ### A sample run -/

/-- The mesh "m" on interface 7 of phy 0. -/
def sampleNetif (isSecure : Bool) : MeshNetif where
  phyIndex := 0
  maybeIfIndex := some 7
  conf :=
    { is5GHz := true, meshid := [109], meshidLen := 1, interface := [], isSecure,
      controlFreq := 5805, centerFreq1 := 5795, centerFreq2 := 0, channelWidth := .width40,
      maxPlinks := 32 }

/-- The list is searched from its start, and the kernel accepts everything. -/
def sampleEnvironment (isSecure : Bool) : Environment where
  netifs := [sampleNetif isSecure]
  mesh := sampleNetif isSecure
  mesh_mem := List.mem_singleton_self _
  ifIndex := 7
  hasIfIndex := rfl
  findPeer peers mac accept := peers.find? fun c => c.peerMac = mac && (!accept || c.accepted)
  findPeer_some h := by
    have hp := List.find?_some h
    simp only [Bool.and_eq_true, decide_eq_true_eq, Bool.or_eq_true, Bool.not_eq_true'] at hp
    refine ⟨List.mem_of_find?_eq_some h, hp.1, fun haccept => ?_⟩
    simpa [haccept] using hp.2
  findPeer_none h c hc := by simpa using List.find?_eq_none.mp h c hc
  reply _ _ := 0
  keyLength _ := 16
  parseMac _ := .error (.invalidArgument [])
  mgmtFrameSize := 64

private theorem noticesStations_sample (isSecure : Bool) :
    (sampleEnvironment isSecure).NoticesStations :=
  fun _ _ _ _ => rfl

/-- The elements of a beacon of the mesh. -/
def sampleElems : InfoElems := { meshId := some [109], rsn := some [48] }

/-- Station 5 sends a beacon of the mesh. -/
def sampleBeacon : Event := ⟨some 0, .newPeerCandidate (some ⟨5, 6⟩) (some sampleElems)⟩

/-- The message about the beacon is waiting. -/
def beaconHeard (isSecure : Bool) : State :=
  (step (sampleEnvironment isSecure) (.announce sampleBeacon) {}).1

private theorem reachable_beaconHeard (isSecure : Bool) :
    Reachable (sampleEnvironment isSecure) (Orderly (sampleEnvironment isSecure))
      (beaconHeard isSecure) :=
  .move .start ⟨trivial, trivial⟩

/-- The message has been read, and authsae has taken up the station. -/
def stationCreated (isSecure : Bool) : State :=
  (step (sampleEnvironment isSecure) (.handle [.create 5 1] false []) (beaconHeard isSecure)).1

private theorem orderly_handle_beacon (isSecure : Bool) :
    Orderly (sampleEnvironment isSecure) (beaconHeard isSecure) (.handle [.create 5 1] false []) :=
  ⟨⟨⟨⟨trivial, nofun⟩, fun _ => trivial⟩, nofun⟩, fun _ _ _ => by cases isSecure <;> rfl⟩

private theorem reachable_stationCreated (isSecure : Bool) :
    Reachable (sampleEnvironment isSecure) (Orderly (sampleEnvironment isSecure))
      (stationCreated isSecure) :=
  .move (reachable_beaconHeard isSecure) (orderly_handle_beacon isSecure)

/-! ### No station without its candidate -/

variable (E) in
/-- The stations of the kernel, and those whose deletion is still to be read, are candidates that
are marked. -/
structure Covered (s : State) : Prop where
  wellFormed : s.WellFormed E
  le_known : ∀ m, s.listed m + s.pending E m ≤ s.known m

/-- A new candidate has a new number. -/
theorem wellFormed_create (peer : MacAddress) (associationId : UInt16) (h : s.WellFormed E) :
    (Peering.create peer associationId s).WellFormed E := by
  refine ⟨fun c hc => ?_, ?_, h.reports⟩
  · rcases List.mem_append.mp hc with hc | hc
    · exact Nat.lt_succ_of_lt (h.id_lt c hc)
    · obtain rfl := List.mem_singleton.mp hc
      exact Nat.lt_succ_self _
  · simp only [Peering.create, List.map_append]
    rw [List.nodup_append]
    refine ⟨h.ids, List.nodup_singleton _, fun i hi j hj => ?_⟩
    obtain ⟨c, hc, rfl⟩ := List.mem_map.mp hi
    obtain rfl := List.mem_singleton.mp hj
    exact (h.id_lt c hc).ne

/-- A new candidate is not marked. -/
theorem known_create (peer : MacAddress) (associationId : UInt16) (m : MacAddress) :
    (Peering.create peer associationId s).known m = s.known m := by
  simp [State.known, Peering.create]

private theorem exists_of_known_pos {m : MacAddress} (h : 0 < s.known m) :
    ∃ c ∈ s.peers, c.peerMac = m ∧ c.inKernel = true := by
  obtain ⟨c, hc, hp⟩ := List.countP_pos_iff.mp h
  rw [Bool.and_eq_true, decide_eq_true_eq] at hp
  exact ⟨c, hc, hp.1, hp.2⟩

private theorem Covered.neutral (h : Covered E s) (hn : Neutral E s s') : Covered E s' := by
  refine ⟨hn.wellFormed h.wellFormed, fun m => ?_⟩
  have hle := h.le_known m
  have hbalance := hn.balance m
  omega

private theorem stable_covered : Stable E AuthsaeCall.KeepsMarked (Covered E) := by
  refine stable_of_neutral (fun _ _ => id) (fun h => h.wellFormed) (fun h hn => h.neutral hn) ?_ ?_
  · intro s peer associationId _ h
    refine ⟨wellFormed_create peer associationId h.wellFormed, fun m => ?_⟩
    rw [known_create]
    exact h.le_known m
  · intro s s' peer h htold
    cases htold with
    | nothing hn => exact h.neutral hn
    | told c hc hmac hnew hwf hmacs hknown hlisted hpending =>
      refine ⟨hwf, fun m => ?_⟩
      have hle := h.le_known m
      rw [hknown, hpending]
      rcases hlisted with hlisted | ⟨-, hlisted⟩
      · rw [hlisted]
        split <;> omega
      · rw [hlisted]
        omega

/-- Reading a message that reports no deleted station of the mesh interface. -/
theorem Neutral.pop {e : Event} {events : List Event} (hevents : s.events = e :: events)
    (hdel : e.deletes E = none) : Neutral E s { s with events } where
  wellFormed h :=
    ⟨h.id_lt, h.ids, fun e' he' => h.reports e' (hevents ▸ List.mem_cons_of_mem e he')⟩
  balance m := by
    have hne : e ≠ deletion E m := by
      rintro rfl
      simp at hdel
    simp only [State.known, State.listed, State.pending, hevents, List.count_cons_of_ne hne]
  macs := .refl _

/-- Another message. -/
theorem Neutral.announce {e : Event} (hdel : e.deletes E = none) :
    Neutral E s { s with events := s.events ++ [e] } where
  wellFormed h := by
    refine ⟨h.id_lt, h.ids, fun e' he' m hdel' => ?_⟩
    rcases List.mem_append.mp he' with he' | he'
    · exact h.reports e' he' m hdel'
    · obtain rfl := List.mem_singleton.mp he'
      simp [hdel] at hdel'
  balance m := by
    have hne : e ≠ deletion E m := by
      rintro rfl
      simp at hdel
    simp only [State.known, State.listed, State.pending, List.count_append,
      List.count_singleton, beq_eq_false_iff_ne.mpr hne, Bool.false_eq_true, if_false, Nat.add_zero]
  macs := .refl _

/-- Fewer messages. -/
theorem Covered.sublist (h : Covered E s) {events : List Event} (hsub : events.Sublist s.events) :
    Covered E { s with events } where
  wellFormed := ⟨h.wellFormed.id_lt, h.wellFormed.ids,
    fun e he => h.wellFormed.reports e (hsub.subset he)⟩
  le_known m := by
    have hle := h.le_known m
    have hcount : events.count (deletion E m) ≤ s.events.count (deletion E m) := hsub.count_le _
    simp only [State.known, State.listed, State.pending] at hle ⊢
    omega

/-- Closing a link does not touch the list. -/
theorem peers_close {close : List AuthsaeCall} (hclose : ∀ c ∈ close, c.isClosing = true)
    (s : State) : (forEach (AuthsaeCall.run E) close s).1.peers = s.peers := by
  have hsend : ∀ r, Preserves (fun t => t.peers = s.peers) (send E r) :=
    fun r t ht => (send_eq r t).1.trans ht
  refine Preserves.forEach (I := fun t => t.peers = s.peers) (fun c hc => ?_) s rfl
  have hc := hclose c hc
  cases c with
  | meshdWriteMgmt frame =>
    simp only [AuthsaeCall.run, meshdWriteMgmt, txFrame]
    split
    · exact fun _ ht => ht
    · split
      · exact fun _ ht => ht
      · exact hsend _
  | setPlinkState peer state =>
    refine Preserves.andThen ?_ (hsend _)
    unfold check
    split <;> exact fun _ ht => ht
  | create | accept | setConf | discard | fin | estabPeerLink | deletePeer | meshdSetMeshConf =>
    cases hc

/-- The message about a deleted station is read, and the candidate goes unless closing its link
fails. -/
theorem handle_deletion (hwf : s.WellFormed E) {peer : MacAddress} {events : List Event}
    (hevents : s.events = deletion E peer :: events) (calls : List AuthsaeCall) (failed : Bool)
    {close : List AuthsaeCall} (hclosing : ∀ c ∈ close, c.isClosing = true) :
    let t : State := { s with events }
    (∀ m, t.pending E m + (if peer = m then 1 else 0) = s.pending E m) ∧
      ((s.find E peer false = none ∧
          processEvent E calls failed close (deletion E peer) t = (t, none)) ∨
        ∃ cand u, s.find E peer false = some cand ∧ Neutral E t u ∧ u.peers = s.peers ∧
          ((∃ e, processEvent E calls failed close (deletion E peer) t = (u, some e)) ∨
            processEvent E calls failed close (deletion E peer) t = (u.delete cand.id, none))) := by
  intro t
  have htwf : t.WellFormed E :=
    ⟨hwf.id_lt, hwf.ids, fun e he => hwf.reports e (hevents ▸ List.mem_cons_of_mem _ he)⟩
  refine ⟨fun m => ?_, ?_⟩
  · simp only [State.pending, hevents, t, List.count_cons, beq_iff_eq,
      (deletion_injective E).eq_iff]
  · rw [processEvent_deletion]
    cases hfind : t.find E peer false with
    | none => exact .inl ⟨hfind, rfl⟩
    | some cand =>
      have hclose :=
        (IsNeutral.forEach close fun c hc => isNeutral_closing (hclosing c hc)).apply htwf
      refine .inr ⟨cand, (forEach (AuthsaeCall.run E) close t).1, hfind, hclose.2,
        peers_close hclosing t, ?_⟩
      cases hres : (forEach (AuthsaeCall.run E) close t).2 with
      | none => exact .inr (by simp only [andThen_of_none hres, modify_apply])
      | some e => exact .inl ⟨e, by simp only [andThen_of_some hres]⟩

private theorem Covered.handle (h : Covered E s) {calls : List AuthsaeCall} (failed : Bool)
    {close : List AuthsaeCall}
    (hobeys : Move.Obeys E AuthsaeCall.KeepsMarked s (.handle calls failed close)) :
    Covered E (step E (.handle calls failed close) s).1 := by
  obtain ⟨halong, hclosing⟩ := hobeys
  simp only [step]
  split
  next => exact h
  next e events hevents =>
    rw [hevents, List.tail_cons] at halong
    cases hdel : e.deletes E with
    | none =>
      exact stable_covered.processEvent halong failed close hdel (h.neutral (.pop hevents hdel))
    | some peer =>
      obtain rfl := h.wellFormed.reports e (hevents ▸ List.mem_cons_self) peer hdel
      have ht : Covered E { s with events } := h.sublist (hevents ▸ List.sublist_cons_self _ _)
      obtain ⟨hpending, ⟨-, heq⟩ | ⟨cand, u, hfind, hn, hpeers, ⟨e, heq⟩ | heq⟩⟩ :=
        handle_deletion h.wellFormed hevents calls failed hclosing
      · rw [heq]
        exact ht
      · rw [heq]
        exact ht.neutral hn
      · rw [heq]
        have hu := hn.wellFormed ht.wellFormed
        obtain ⟨hmem, hmac⟩ := mem_of_find hfind
        refine ⟨wellFormed_filter hu, fun m => ?_⟩
        -- one message less, and at most one marked candidate less
        have hknown := known_delete hu (hpeers ▸ hmem) m
        have hle := h.le_known m
        have hbalance := hn.balance m
        have hread := hpending m
        rw [hmac] at hknown
        change s.listed m + s.pending E m ≤ s.known m at hle
        change u.known m + (s.listed m + _) = s.known m + _ at hbalance
        change u.listed m + u.pending E m ≤ (u.delete cand.id).known m
        by_cases hm : peer = m
        · simp only [hm, if_true, true_and] at hread hknown
          split at hknown <;> omega
        · simp only [hm, if_false, false_and] at hread hknown
          omega

/-- One move of any party. -/
theorem Covered.step (h : Covered E s) {m : Move} (hm : m.Obeys E AuthsaeCall.KeepsMarked s) :
    Covered E (Peering.step E m s).1 := by
  cases m with
  | handle calls failed close => exact h.handle failed hm
  | timer calls => exact stable_covered.calls hm h
  | announce e =>
    simp only [Peering.step]
    split
    next => exact h
    next hdel =>
      rw [Bool.not_eq_true, Option.isSome_eq_false_iff, Option.isNone_iff_eq_none] at hdel
      exact h.neutral (.announce hdel)
  | expire peer => exact h.neutral (.removeStation peer)
  | lose i => exact h.sublist (List.eraseIdx_sublist _ i)

private theorem covered_of_reachable (h : Reachable E (Move.Obeys E AuthsaeCall.KeepsMarked) s) :
    Covered E s := by
  induction h with
  | start => exact ⟨⟨by simp, by simp, by simp⟩, fun m => by simp [State.listed, State.pending]⟩
  | move _ hm ih => exact ih.step hm

/-- No station without its candidate: however the kernel, authsae and the handler take turns,
whichever requests are refused and whichever messages are lost, each station of the kernel and each
deletion that is still to be read has its own candidate that is marked as known to the kernel, if
authsae gives up no candidate that is marked. -/
theorem station_has_candidate (h : Reachable E (Move.Obeys E AuthsaeCall.KeepsMarked) s)
    (m : MacAddress) :
    s.listed m + s.pending E m ≤ s.known m ∧
      (m ∈ s.stations ∨ deletion E m ∈ s.events →
        ∃ c ∈ s.peers, c.peerMac = m ∧ c.inKernel = true) := by
  have hle := (covered_of_reachable h).le_known m
  refine ⟨hle, fun hm => ?_⟩
  have hpos : 0 < s.known m := by
    rcases hm with hm | hm
    · simp only [State.listed, hm, if_true] at hle
      omega
    · have hpending : 0 < s.pending E m := List.count_pos_iff.mpr hm
      omega
  exact exists_of_known_pos hpos

/-- The station of the sample run, which authsae has taken up twice. -/
theorem station_has_candidate_beacon :
    let s := (step (sampleEnvironment true) (.timer [.create 5 2, .discard 1])
      (stationCreated true)).1
    (5 : MacAddress) ∈ s.stations ∧ ∃ c ∈ s.peers, c.peerMac = 5 ∧ c.inKernel = true := by
  intro s
  have hmem : (5 : MacAddress) ∈ s.stations := by decide
  have hbeacon : Reachable (sampleEnvironment true)
      (Move.Obeys (sampleEnvironment true) AuthsaeCall.KeepsMarked) (stationCreated true) :=
    .move (.move .start trivial) ⟨⟨trivial, fun _ => trivial⟩, nofun⟩
  have hnew : ∀ c ∈ (Peering.create 5 2 (stationCreated true)).peers, c.id = 1 →
      c.inKernel = false := by decide
  have hs : Reachable (sampleEnvironment true)
      (Move.Obeys (sampleEnvironment true) AuthsaeCall.KeepsMarked) s :=
    .move hbeacon ⟨trivial, fun _ => ⟨hnew, fun _ => trivial⟩⟩
  exact ⟨hmem, (station_has_candidate hs 5).2 (.inl hmem)⟩

/-! ### No candidate without its station -/

variable (E) in
/-- The two sides agree. -/
structure Exact (s : State) : Prop where
  wellFormed : s.WellFormed E
  single : (s.peers.map (·.peerMac)).Nodup
  known_eq : ∀ m, s.known m = s.listed m + s.pending E m

private theorem Exact.neutral (h : Exact E s) (hn : Neutral E s s') : Exact E s' := by
  refine ⟨hn.wellFormed h.wellFormed, h.single.sublist hn.macs, fun m => ?_⟩
  have heq := h.known_eq m
  have hbalance := hn.balance m
  omega

/-- The candidates of an address are all the same. -/
theorem Exact.eq_of_peerMac (h : Exact E s) {c c' : Candidate} (hc : c ∈ s.peers)
    (hc' : c' ∈ s.peers) (hmac : c.peerMac = c'.peerMac) : c = c' :=
  List.inj_on_of_nodup_map h.single hc hc' hmac

private theorem Exact.known_of_new (h : Exact E s) {c : Candidate} (hc : c ∈ s.peers)
    (hnew : c.inKernel = false) : s.known c.peerMac = 0 := by
  by_contra hpos
  obtain ⟨c', hc', hmac, hkernel⟩ := exists_of_known_pos (Nat.pos_of_ne_zero hpos)
  rw [h.eq_of_peerMac hc' hc hmac, hnew] at hkernel
  exact Bool.false_ne_true hkernel

private theorem known_pos {c : Candidate} (hc : c ∈ s.peers) (hkernel : c.inKernel = true) :
    0 < s.known c.peerMac :=
  List.countP_pos_iff.mpr ⟨c, hc, by simp [hkernel]⟩

private theorem Exact.known_le_one (h : Exact E s) (m : MacAddress) : s.known m ≤ 1 := by
  calc s.known m
      ≤ s.peers.countP fun c => c.peerMac = m :=
        List.countP_mono_left fun c _ hc => (Bool.and_eq_true _ _ ▸ hc).1
    _ = (s.peers.map (·.peerMac)).count m := by
        rw [List.count, List.countP_map]
        exact List.countP_congr fun c _ => by simp
    _ ≤ 1 := List.nodup_iff_count_le_one.mp h.single m

private theorem single_create {peer : MacAddress} (associationId : UInt16)
    (honce : ∀ c ∈ s.peers, c.peerMac ≠ peer) (h : (s.peers.map (·.peerMac)).Nodup) :
    ((Peering.create peer associationId s).peers.map (·.peerMac)).Nodup := by
  simp only [Peering.create, List.map_append]
  rw [List.nodup_append]
  refine ⟨h, List.nodup_singleton _, fun m hm m' hm' => ?_⟩
  obtain ⟨c, hc, rfl⟩ := List.mem_map.mp hm
  obtain rfl := List.mem_singleton.mp hm'
  exact honce c hc

private theorem stable_exact (hnotices : E.NoticesStations) :
    Stable E AuthsaeCall.Orderly (Exact E) := by
  refine stable_of_neutral (fun _ _ h => h.1) (fun h => h.wellFormed) (fun h hn => h.neutral hn)
    ?_ ?_
  · intro s peer associationId honce h
    refine ⟨wellFormed_create peer associationId h.wellFormed,
      single_create associationId honce.2 h.single, fun m => ?_⟩
    rw [known_create]
    exact h.known_eq m
  · intro s s' peer h htold
    cases htold with
    | nothing hn => exact h.neutral hn
    | told c hc hmac hnew hwf hmacs hknown hlisted hpending =>
      refine ⟨hwf, hmacs ▸ h.single, fun m => ?_⟩
      have heq := h.known_eq m
      replace hlisted := hlisted.resolve_right fun habsorbed => habsorbed.1 hnotices
      rw [hknown, hlisted, hpending]
      split
      next hm =>
        -- the only candidate of the address is not marked, so the kernel has no station for it
        have hzero := h.known_of_new hc hnew
        rw [hmac, hm] at hzero
        omega
      next => omega

private theorem Exact.handle (hnotices : E.NoticesStations) (h : Exact E s)
    {calls : List AuthsaeCall} {failed : Bool} {close : List AuthsaeCall}
    (hm : Orderly E s (.handle calls failed close)) :
    Exact E (step E (.handle calls failed close) s).1 := by
  obtain ⟨⟨halong, hclosing⟩, hdone⟩ := hm
  simp only [Undisturbed, step] at hdone ⊢
  split
  next => exact h
  next e events hevents =>
    simp only [hevents, List.head?_cons, Option.mem_some_iff, forall_eq'] at hdone
    rw [hevents, List.tail_cons] at halong
    cases hdel : e.deletes E with
    | none =>
      exact (stable_exact hnotices).processEvent halong failed close hdel
        (h.neutral (.pop hevents hdel))
    | some peer =>
      obtain rfl := h.wellFormed.reports e (hevents ▸ List.mem_cons_self) peer hdel
      replace hdone := hdone (by simp)
      have heq := h.known_eq peer
      have hpos : 0 < s.pending E peer := by
        simp [State.pending, hevents]
      obtain ⟨c, hc, hmac, hkernel⟩ := exists_of_known_pos (s := s) (m := peer) (by omega)
      obtain ⟨hpending, ⟨hnone, -⟩ | ⟨cand, u, hfind, hn, hpeers, ⟨e, heq⟩ | heq'⟩⟩ :=
        handle_deletion h.wellFormed hevents calls failed hclosing
      · exact absurd hmac (E.findPeer_none hnone c hc)
      · simp [heq] at hdone
      · rw [heq']
        obtain ⟨hmem, hmac'⟩ := mem_of_find hfind
        obtain rfl := h.eq_of_peerMac hc hmem (hmac.trans hmac'.symm)
        have hu : u.WellFormed E := hn.wellFormed ⟨h.wellFormed.id_lt, h.wellFormed.ids,
          fun e he => h.wellFormed.reports e (hevents ▸ List.mem_cons_of_mem _ he)⟩
        refine ⟨wellFormed_filter hu, ?_, fun m => ?_⟩
        · exact (hpeers ▸ h.single).sublist ((List.filter_sublist).map _)
        · have hknown := known_delete hu (hpeers ▸ hc) m
          have heq := h.known_eq m
          have hbalance := hn.balance m
          have hread := hpending m
          change u.known m + (s.listed m + _) = s.known m + _ at hbalance
          change (u.delete c.id).known m = u.listed m + u.pending E m
          rw [hmac] at hknown
          by_cases hm : peer = m
          · simp only [hm, if_true, hkernel, and_self] at hread hknown
            omega
          · simp only [hm, if_false, false_and] at hread hknown
            omega

/-- One orderly move. -/
theorem Exact.step (hnotices : E.NoticesStations) (h : Exact E s) {m : Move}
    (hm : Orderly E s m) : Exact E (Peering.step E m s).1 := by
  cases m with
  | handle calls failed close => exact h.handle hnotices hm
  | timer calls => exact (stable_exact hnotices).calls hm.1 h
  | announce e =>
    simp only [Peering.step]
    split
    next => exact h
    next hdel =>
      rw [Bool.not_eq_true, Option.isSome_eq_false_iff, Option.isNone_iff_eq_none] at hdel
      exact h.neutral (.announce hdel)
  | expire peer => exact h.neutral (.removeStation peer)
  | lose => exact hm.2.elim

private theorem exact_of_reachable (hnotices : E.NoticesStations)
    (h : Reachable E (Orderly E) s) : Exact E s := by
  induction h with
  | start =>
    exact ⟨⟨by simp, by simp, by simp⟩, by simp,
      fun m => by simp [State.known, State.listed, State.pending]⟩
  | move _ hm ih => exact ih.step hnotices hm

private theorem Exact.marked_iff (h : Exact E s) (m : MacAddress) :
    (∃ c ∈ s.peers, c.peerMac = m ∧ c.inKernel = true) ↔
      m ∈ s.stations ∨ deletion E m ∈ s.events := by
  have hknown := h.known_eq m
  have hpending : deletion E m ∈ s.events ↔ 0 < s.pending E m := List.count_pos_iff.symm
  have hlisted : m ∈ s.stations ↔ 0 < s.listed m := by
    by_cases hm : m ∈ s.stations <;> simp [State.listed, hm]
  rw [hpending, hlisted]
  constructor
  · rintro ⟨c, hc, hmac, hkernel⟩
    have hpos := known_pos hc hkernel
    rw [hmac] at hpos
    omega
  · intro hm
    exact exists_of_known_pos (by omega)

/-- The mark tells the truth: with one candidate for an address, and if the refusal of a station is
noticed, a candidate is marked exactly while the kernel has its station or has deleted it and the
message about that is still to be read, and it is never both. -/
theorem marked_iff_station_or_pending (hnotices : E.NoticesStations)
    (h : Reachable E (Orderly E) s) (m : MacAddress) :
    ((∃ c ∈ s.peers, c.peerMac = m ∧ c.inKernel = true) ↔
        m ∈ s.stations ∨ deletion E m ∈ s.events) ∧
      ¬(m ∈ s.stations ∧ deletion E m ∈ s.events) ∧ s.pending E m ≤ 1 := by
  have hexact := exact_of_reachable hnotices h
  have hknown := hexact.known_eq m
  have hsmall := hexact.known_le_one m
  refine ⟨hexact.marked_iff m, ?_, by omega⟩
  rintro ⟨hmem, hdel⟩
  have hlisted : s.listed m = 1 := by simp [State.listed, hmem]
  have hpending : 0 < s.pending E m := List.count_pos_iff.mpr hdel
  omega

/-- The kernel gives up the station of the sample run. -/
theorem marked_iff_station_or_pending_beacon :
    let s := (step (sampleEnvironment true) (.expire 5) (stationCreated true)).1
    (∃ c ∈ s.peers, c.peerMac = 5 ∧ c.inKernel = true) ∧ (5 : MacAddress) ∉ s.stations := by
  intro s
  have hs : Reachable (sampleEnvironment true) (Orderly (sampleEnvironment true)) s :=
    .move (reachable_stationCreated true) ⟨trivial, trivial⟩
  have h := marked_iff_station_or_pending (noticesStations_sample true) hs 5
  have hdel : deletion (sampleEnvironment true) 5 ∈ s.events := by decide
  exact ⟨h.1.mpr (.inr hdel), fun hmem => h.2.1 ⟨hmem, hdel⟩⟩

/-! ### Every candidate gets its station -/

/-- Telling the kernel about a candidate leaves it marked, unless it fails. -/
theorem marked_of_ensureStation {netif : MeshNetif} {elems : InfoElems} {peer : MacAddress}
    {cand : Candidate} (hcand : s.Holds peer cand)
    (hdone : (ensureStation E netif peer elems cand s).2 = none) :
    ∃ c ∈ (ensureStation E netif peer elems cand s).1.peers,
      c.peerMac = peer ∧ c.inKernel = true := by
  obtain ⟨c, hc, hid, hmac, hkernel⟩ := hcand
  unfold ensureStation at hdone ⊢
  split at hdone
  next hmarked =>
    rw [if_pos hmarked]
    exact ⟨c, hc, hmac, hkernel.trans hmarked⟩
  next hnew =>
    rw [if_neg hnew]
    rcases createUnauthenticatedStation_cases E netif peer elems s with
      ⟨e, heq⟩ | ⟨r, -, ⟨e, heq⟩ | ⟨-, heq⟩⟩
    · simp [andThen_of_some (show (createUnauthenticatedStation E netif peer elems s).2 = some e
        by rw [heq])] at hdone
    · simp [andThen_of_some (show (createUnauthenticatedStation E netif peer elems s).2 = some e
        by rw [heq])] at hdone
    · rw [andThen_of_none (by rw [heq]), heq]
      exact ⟨{ c with inKernel := true }, List.mem_map.mpr ⟨c, hc, if_pos hid⟩, hmac, rfl⟩

private theorem marked_of_admitCandidate {netif : MeshNetif} {elems : InfoElems} {peer : MacAddress}
    (hdone : (admitCandidate E netif peer elems s).2 = none) {c : Candidate}
    (hc : c ∈ (admitCandidate E netif peer elems s).1.peers) (hmac : c.peerMac = peer) :
    ∃ c ∈ (admitCandidate E netif peer elems s).1.peers,
      c.peerMac = peer ∧ c.inKernel = true := by
  unfold admitCandidate at hdone hc ⊢
  cases hfind : s.find E peer false with
  | none =>
    simp only [hfind, skip] at hc
    exact absurd hmac (E.findPeer_none hfind c hc)
  | some cand =>
    simp only [hfind, andThen_modify] at hdone ⊢
    obtain ⟨hmem, hmac'⟩ := mem_of_find hfind
    exact marked_of_ensureStation ⟨{ cand with ies := elems },
      List.mem_map.mpr ⟨cand, hmem, if_pos rfl⟩, rfl, hmac', rfl⟩ hdone

/-- What passes the checks of a candidate is processed. -/
theorem processEvent_candidate {wiphy : Option ℕ} {mac : Option MacAttr} {ie : Option InfoElems}
    {netif : MeshNetif} {peer : MacAddress} {elems : InfoElems}
    (hcheck : checkCandidate E wiphy mac ie = .ok (.proceed (netif, peer, elems)))
    (calls : List AuthsaeCall) (close : List AuthsaeCall) :
    processEvent E calls false close ⟨wiphy, .newPeerCandidate mac ie⟩ =
      andThen (forEach (AuthsaeCall.run E) calls) (admitCandidate E netif peer elems) := by
  have hphy : wiphy.any (fun phyIndex => (E.netifs.find? (·.phyIndex = phyIndex)).isNone) =
      false := by
    unfold checkCandidate at hcheck
    cases mac with
    | none => simp at hcheck
    | some mac =>
      cases ie with
      | none => simp at hcheck
      | some elems =>
        cases wiphy with
        | none => rfl
        | some phyIndex =>
          obtain ⟨netif', hlookup, -⟩ := Except.bind_eq_ok_iff.mp hcheck
          unfold lookupNetifFromPhy at hlookup
          split at hlookup
          next hfound => simp [hfound]
          next => simp at hlookup
  simp only [processEvent, hphy, Bool.false_eq_true, if_false, handleNewCandidate, hcheck]

/-- A candidate that authsae takes up is not left without a station: after the message of the kernel
about it has been handled, the kernel has its station, or has deleted it and the message about that
is still to be read. -/
theorem candidate_gets_station (hnotices : E.NoticesStations)
    (h : Reachable E (Orderly E) s) {wiphy : Option ℕ} {mac : Option MacAttr}
    {ie : Option InfoElems} {events : List Event}
    (hevents : s.events = ⟨wiphy, .newPeerCandidate mac ie⟩ :: events)
    {netif : MeshNetif} {peer : MacAddress} {elems : InfoElems}
    (hcheck : checkCandidate E wiphy mac ie = .ok (.proceed (netif, peer, elems)))
    {calls close : List AuthsaeCall}
    (hobeys : Move.Obeys E AuthsaeCall.Orderly s (.handle calls false close))
    (hdone : (step E (.handle calls false close) s).2 = none)
    (htaken : ∃ c ∈ (step E (.handle calls false close) s).1.peers, c.peerMac = peer) :
    peer ∈ (step E (.handle calls false close) s).1.stations ∨
      deletion E peer ∈ (step E (.handle calls false close) s).1.events := by
  have horderly : Orderly E s (.handle calls false close) := ⟨hobeys, fun _ _ _ => hdone⟩
  have hexact := exact_of_reachable hnotices (.move h horderly)
  simp only [step, hevents, processEvent_candidate hcheck] at hdone htaken hexact ⊢
  obtain ⟨c, hc, hmac⟩ := htaken
  obtain ⟨-, heq⟩ := andThen_eq_none hdone
  rw [heq] at hdone hc hexact ⊢
  obtain ⟨c', hc', hmac', hkernel⟩ := marked_of_admitCandidate hdone hc hmac
  exact (hexact.marked_iff peer).mp ⟨c', hc', hmac', hkernel⟩

/-- A station that is heard by its beacon gets its station in the kernel. -/
theorem candidate_gets_station_beacon :
    (5 : MacAddress) ∈ (stationCreated true).stations ∨
      deletion (sampleEnvironment true) 5 ∈ (stationCreated true).events :=
  have hcheck : checkCandidate (sampleEnvironment true) (some 0) (some ⟨5, 6⟩) (some sampleElems) =
      .ok (.proceed (sampleNetif true, 5, sampleElems)) := rfl
  candidate_gets_station (noticesStations_sample true) (reachable_beaconHeard true) rfl hcheck
    (orderly_handle_beacon true).1 rfl
    ⟨{ id := 0, peerMac := 5, inKernel := true, associationId := 1, ies := sampleElems },
      by decide, rfl⟩

end Peering

end Fbmeshd
