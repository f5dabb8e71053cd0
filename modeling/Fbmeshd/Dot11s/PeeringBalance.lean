import Fbmeshd.Dot11s.Peering
import Mathlib.Data.List.Nodup

/-!
# What peering does to stations and candidates

A station of the kernel is on its way out from the moment the kernel removes it until the handler
has read the message about it. The stations and the messages that are still to be read are
compared, address by address, with the candidates that are marked as known to the kernel. Nearly
all actions leave the two sides as they are; the rules at the end say what an invariant has to
survive to hold whatever authsae does.
-/

namespace Fbmeshd

namespace Peering

open Fallible

variable (E : Environment)

/-! ### The two sides of the count -/

namespace State

/-- The candidates with an address that are marked as known to the kernel. -/
def known (s : State) (m : MacAddress) : ℕ := s.peers.countP fun c => c.peerMac = m && c.inKernel

/-- The messages about a deleted station that are still to be read. -/
def pending (s : State) (m : MacAddress) : ℕ := s.events.count (deletion E m)

/-- Whether the kernel has a station, as a number. -/
def listed (s : State) (m : MacAddress) : ℕ := if m ∈ s.stations then 1 else 0

/-- What is true of the lists in every run. -/
structure WellFormed (s : State) : Prop where
  id_lt : ∀ c ∈ s.peers, c.id < s.nextPeer
  ids : (s.peers.map (·.id)).Nodup
  reports : ∀ e ∈ s.events, ∀ m, e.deletes E = some m → e = deletion E m

end State

/-- The report of a deleted station names it. -/
@[simp] theorem deletes_deletion (m : MacAddress) : (deletion E m).deletes E = some m := by
  simp [deletion, Event.deletes]

/-- The reports of different stations differ. -/
theorem deletion_injective : Function.Injective (deletion E) := by
  intro m m' h
  have := congrArg (Event.deletes E) h
  simpa using this

/-- The change from one state to another moves nothing from one side to the other and adds no
candidate. -/
structure Neutral (s s' : State) : Prop where
  wellFormed : s.WellFormed E → s'.WellFormed E
  balance : ∀ m, s'.known m + (s.listed m + s.pending E m) =
    s.known m + (s'.listed m + s'.pending E m)
  macs : (s'.peers.map (·.peerMac)).Sublist (s.peers.map (·.peerMac))

variable {E} {s s' : State}

private theorem Neutral.refl (s : State) : Neutral E s s := ⟨id, fun _ => rfl, .refl _⟩

private theorem Neutral.trans {s'' : State} (h : Neutral E s s') (h' : Neutral E s' s'') :
    Neutral E s s'' where
  wellFormed hwf := h'.wellFormed (h.wellFormed hwf)
  balance m := by
    have h₁ := h.balance m
    have h₂ := h'.balance m
    omega
  macs := h'.macs.trans h.macs

/-- A change that leaves candidates, stations and messages alone. -/
theorem Neutral.of_eq (hpeers : s'.peers = s.peers) (hnext : s'.nextPeer = s.nextPeer)
    (hstations : s'.stations = s.stations) (hevents : s'.events = s.events) : Neutral E s s' where
  wellFormed hwf := ⟨hpeers ▸ hnext ▸ hwf.id_lt, hpeers ▸ hwf.ids, hevents ▸ hwf.reports⟩
  balance m := by
    simp only [State.known, State.listed, State.pending, hpeers, hstations, hevents]
  macs := by rw [hpeers]

/-! ### Single steps -/

private theorem known_update (id : ℕ) {f : Candidate → Candidate}
    (hf : ∀ c, (f c).peerMac = c.peerMac ∧ (f c).inKernel = c.inKernel) (m : MacAddress) :
    (s.update id f).known m = s.known m := by
  simp only [State.known, State.update, List.countP_map]
  refine List.countP_congr fun c _ => ?_
  by_cases hc : c.id = id <;> simp [hc, hf c]

/-- A candidate keeps its number. -/
theorem wellFormed_update (id : ℕ) {f : Candidate → Candidate} (hf : ∀ c, (f c).id = c.id)
    (h : s.WellFormed E) : (s.update id f).WellFormed E := by
  have hid : ∀ c : Candidate, (if c.id = id then f c else c).id = c.id := fun c => by
    split <;> simp [hf]
  refine ⟨fun c hc => ?_, ?_, h.reports⟩
  · obtain ⟨c', hc', rfl⟩ := List.mem_map.mp hc
    rw [hid]
    exact h.id_lt c' hc'
  · have : (s.update id f).peers.map (·.id) = s.peers.map (·.id) := by
      simp [State.update, Function.comp_def, hid]
    rw [this]
    exact h.ids

private theorem macs_update (id : ℕ) {f : Candidate → Candidate}
    (hf : ∀ c, (f c).peerMac = c.peerMac) :
    (s.update id f).peers.map (·.peerMac) = s.peers.map (·.peerMac) := by
  have hmac : ∀ c : Candidate, (if c.id = id then f c else c).peerMac = c.peerMac := fun c => by
    split <;> simp [hf]
  simp [State.update, Function.comp_def, hmac]

private theorem Neutral.update (id : ℕ) {f : Candidate → Candidate}
    (hf : ∀ c, (f c).id = c.id ∧ (f c).peerMac = c.peerMac ∧ (f c).inKernel = c.inKernel) :
    Neutral E s (s.update id f) where
  wellFormed := wellFormed_update id fun c => (hf c).1
  balance m := by
    rw [known_update id fun c => (hf c).2]
    rfl
  macs := by rw [macs_update id fun c => (hf c).2.1]

/-- Where a candidate is, its number is. -/
theorem State.WellFormed.eq_of_id (h : s.WellFormed E) {c c' : Candidate} (hc : c ∈ s.peers)
    (hc' : c' ∈ s.peers) (hid : c.id = c'.id) : c = c' :=
  List.inj_on_of_nodup_map h.ids hc hc' hid

/-- The other candidates have other numbers. -/
theorem State.WellFormed.exists_split (h : s.WellFormed E) {c : Candidate} (hc : c ∈ s.peers) :
    ∃ before after, s.peers = before ++ c :: after ∧
      (∀ d ∈ before, d.id ≠ c.id) ∧ ∀ d ∈ after, d.id ≠ c.id := by
  obtain ⟨before, after, hsplit⟩ := List.append_of_mem hc
  have hids := h.ids
  rw [hsplit, List.map_append, List.map_cons, List.nodup_middle, List.nodup_cons] at hids
  simp only [List.mem_append, List.mem_map, not_or, not_exists, not_and] at hids
  exact ⟨before, after, hsplit, hids.1.1, hids.1.2⟩

/-- A candidate that is marked counts from then on. -/
theorem known_mark (h : s.WellFormed E) {c : Candidate} (hc : c ∈ s.peers)
    (hnew : c.inKernel = false) (m : MacAddress) :
    (s.update c.id fun c => { c with inKernel := true }).known m =
      s.known m + if c.peerMac = m then 1 else 0 := by
  obtain ⟨before, after, hsplit, hbefore, hafter⟩ := h.exists_split hc
  have hsame : ∀ l : List Candidate, (∀ d ∈ l, d.id ≠ c.id) →
      l.map (fun d => if d.id = c.id then { d with inKernel := true } else d) = l := by
    intro l hl
    refine (List.map_congr_left fun d hd => ?_).trans (List.map_id l)
    rw [if_neg (hl d hd), id]
  simp only [State.known, State.update, hsplit, List.map_append, List.map_cons,
    hsame before hbefore, hsame after hafter, List.countP_append, List.countP_cons, hnew]
  by_cases hm : c.peerMac = m
  · simp only [hm, decide_true, Bool.and_true, Bool.and_false, Bool.false_eq_true,
      if_false, if_true]
    omega
  · simp [hm]

/-- A candidate that is deleted no longer counts. -/
theorem known_delete (h : s.WellFormed E) {c : Candidate} (hc : c ∈ s.peers) (m : MacAddress) :
    (s.delete c.id).known m + (if c.peerMac = m ∧ c.inKernel = true then 1 else 0) =
      s.known m := by
  obtain ⟨before, after, hsplit, hbefore, hafter⟩ := h.exists_split hc
  have hsame : ∀ l : List Candidate, (∀ d ∈ l, d.id ≠ c.id) →
      l.filter (fun d => d.id ≠ c.id) = l := by
    intro l hl
    exact List.filter_eq_self.mpr fun d hd => by simpa using hl d hd
  simp only [State.known, State.delete, hsplit, List.filter_append, hsame before hbefore,
    List.filter_cons, hsame after hafter, List.countP_append, List.countP_cons]
  simp only [ne_eq, not_true_eq_false, decide_false, Bool.false_eq_true, if_false,
    Bool.and_eq_true, decide_eq_true_eq]
  omega

/-- Candidates may be removed. -/
theorem wellFormed_filter {p : Candidate → Bool} (h : s.WellFormed E) :
    State.WellFormed E { s with peers := s.peers.filter p } where
  id_lt c hc := h.id_lt c (List.mem_of_mem_filter hc)
  ids := h.ids.sublist ((List.filter_sublist).map _)
  reports := h.reports

/-- A candidate may go that is not marked. -/
theorem Neutral.delete (id : ℕ) (hnew : ∀ c ∈ s.peers, c.id = id → c.inKernel = false) :
    Neutral E s (s.delete id) where
  wellFormed := wellFormed_filter
  balance m := by
    have hknown : (s.delete id).known m = s.known m := by
      simp only [State.known, State.delete, List.countP_filter]
      refine List.countP_congr fun c hc => ?_
      by_cases hid : c.id = id <;> simp [hid, hnew c hc]
    rw [hknown]
    rfl
  macs := (List.filter_sublist).map _

/-- A station that goes is reported. -/
theorem Neutral.removeStation (m : MacAddress) : Neutral E s (s.removeStation E m) := by
  unfold State.removeStation
  split
  next hmem =>
    refine ⟨fun h => ⟨h.id_lt, h.ids, fun e he m' hdel => ?_⟩, fun m' => ?_, .refl _⟩
    · rcases List.mem_append.mp he with he | he
      · exact h.reports e he m' hdel
      · obtain rfl := List.mem_singleton.mp he
        rw [deletes_deletion, Option.some_inj] at hdel
        rw [hdel]
    · simp only [State.known, State.listed, State.pending, List.count_append, List.count_singleton,
        beq_iff_eq, (deletion_injective E).eq_iff, Finset.mem_erase]
      by_cases hm : m = m'
      · subst hm
        simp [hmem]
        omega
      · simp [hm, Ne.symm hm]
  next => exact .refl s

/-! ### Requests -/

private theorem accept_eq (r : Request) (s : State) :
    (s.accept E r).peers = s.peers ∧ (s.accept E r).sent = s.sent := by
  cases r with
  | delStation peer =>
    simp only [State.accept, State.removeStation]
    split <;> exact ⟨rfl, rfl⟩
  | newStation | setAuthenticated | setPlinkState | newKey | setKey | frame | setMeshConfig =>
    exact ⟨rfl, rfl⟩

/-- A request is logged with its answer, and does not touch the list of candidates. -/
theorem send_eq (r : Request) (s : State) :
    (send E r s).1.peers = s.peers ∧
      (send E r s).1.sent = s.sent ++ [(r, E.reply s.sent r)] ∧
        ((send E r s).2 = none ↔ Nl.NetlinkSocket.passes (E.reply s.sent r) = true) := by
  simp only [send]
  refine ⟨?_, ?_, by simp⟩
  · split
    · exact (accept_eq r _).1
    · rfl
  · split
    · exact (accept_eq r _).2
    · rfl

/-! ### Actions that are neutral -/

variable (E) in
/-- The action moves nothing from one side to the other, also if it fails. -/
def IsNeutral (a : Action State Failure) : Prop :=
  ∀ s₀, Preserves (fun s => s.WellFormed E ∧ Neutral E s₀ s) a

variable {a b : Action State Failure}

private theorem isNeutral_of (h : ∀ s, s.WellFormed E → Neutral E s (a s).1) : IsNeutral E a :=
  fun _ s ⟨hwf, hn⟩ => ⟨(h s hwf).wellFormed hwf, hn.trans (h s hwf)⟩

/-- A neutral action on a well-formed state. -/
theorem IsNeutral.apply (h : IsNeutral E a) (hwf : s.WellFormed E) :
    (a s).1.WellFormed E ∧ Neutral E s (a s).1 :=
  h s s ⟨hwf, .refl s⟩

private theorem IsNeutral.andThen (ha : IsNeutral E a) (hb : IsNeutral E b) :
    IsNeutral E (Fallible.andThen a b) :=
  fun s₀ => (ha s₀).andThen (hb s₀)

/-- A loop of neutral actions. -/
theorem IsNeutral.forEach {α : Type} {f : α → Action State Failure} (xs : List α)
    (hf : ∀ x ∈ xs, IsNeutral E (f x)) : IsNeutral E (Fallible.forEach f xs) :=
  fun s₀ => .forEach fun x hx => hf x hx s₀

private theorem isNeutral_skip : IsNeutral E skip := isNeutral_of fun s _ => .refl s

private theorem isNeutral_fail (e : Failure) :
    IsNeutral E (fail e) := isNeutral_of fun s _ => .refl s

private theorem isNeutral_check (p : Prop) [Decidable p] : IsNeutral E (check p) := by
  unfold check
  split
  · exact isNeutral_skip
  · exact isNeutral_fail _

/-- The station that a request asks the kernel to create. -/
def Request.creates : Request → Option MacAddress
  | .newStation peer .. => some peer
  | _ => none

/-- Only a new station changes the balance. -/
theorem isNeutral_send {r : Request} (h : r.creates = none) : IsNeutral E (send E r) := by
  refine isNeutral_of fun s _ => ?_
  have hlog : Neutral E s { s with sent := s.sent ++ [(r, E.reply s.sent r)] } :=
    .of_eq rfl rfl rfl rfl
  simp only [send]
  split
  · refine hlog.trans ?_
    cases r with
    | newStation => simp [Request.creates] at h
    | delStation m => exact .removeStation m
    | setAuthenticated | setPlinkState | newKey | setKey | frame | setMeshConfig => exact .refl _
  · exact hlog

private theorem isNeutral_setStationAuthenticated (netif : MeshNetif) (m : MacAddress) :
    IsNeutral E (setStationAuthenticated E netif m) :=
  (isNeutral_check _).andThen (isNeutral_send rfl)

private theorem isNeutral_setPlinkState (m : MacAddress) (state : ℤ) :
    IsNeutral E (setPlinkState E m state) :=
  (isNeutral_check _).andThen (isNeutral_send rfl)

private theorem isNeutral_installKey (netif : MeshNetif) (peer : Option MacAddress)
    (cipher : Cipher)
    (keyType : KeyType) (keyIdx : UInt8) (keyData : List UInt8) :
    IsNeutral E (installKey E netif peer cipher keyType keyIdx keyData) := by
  refine (isNeutral_check _).andThen ?_
  split
  · exact isNeutral_fail _
  · exact (isNeutral_send rfl).andThen (isNeutral_send rfl)

private theorem isNeutral_installKeys (m : MacAddress) (keys : LinkKeys) :
    IsNeutral E (installKeys E m keys) := by
  refine .andThen (isNeutral_installKey _ _ _ _ _ _) ?_
  refine .andThen (isNeutral_installKey _ _ _ _ _ _) ?_
  split
  · exact isNeutral_skip
  · exact isNeutral_installKey _ _ _ _ _ _

private theorem isNeutral_meshdWriteMgmt (frame : Option (List UInt8)) :
    IsNeutral E (meshdWriteMgmt E frame) := by
  unfold meshdWriteMgmt txFrame
  split
  · exact isNeutral_skip
  · split
    · exact isNeutral_skip
    · exact isNeutral_send rfl

/-- A candidate that is found is one of the candidates, and has the address. -/
theorem mem_of_find {m : MacAddress} {accepted : Bool} {c : Candidate}
    (h : s.find E m accepted = some c) : c ∈ s.peers ∧ c.peerMac = m :=
  ⟨(E.findPeer_some h).1, (E.findPeer_some h).2.1⟩

/-- A peer of the kernel stays in the list, and one that is not may go. -/
theorem isNeutral_deletePeerByAddr (m : MacAddress) : IsNeutral E (deletePeerByAddr E m) := by
  refine isNeutral_of fun s hwf => ?_
  unfold deletePeerByAddr
  split
  next => exact .refl s
  next cand hfound =>
    split
    next => exact ((isNeutral_send rfl).apply hwf).2
    next hnew =>
      have hmem : cand ∈ s.peers := by
        rcases Option.or_eq_some_iff.mp hfound with h | ⟨_, h⟩ <;> exact (mem_of_find h).1
      refine .delete cand.id fun c hc hid => ?_
      rw [hwf.eq_of_id hc hmem hid]
      exact Bool.eq_false_iff.mpr hnew

/-- Nothing happens to the candidates while a link is closed. -/
theorem isNeutral_closing {c : AuthsaeCall} (h : c.isClosing = true) : IsNeutral E (c.run E) := by
  cases c with
  | meshdWriteMgmt frame => exact isNeutral_meshdWriteMgmt frame
  | setPlinkState m state => exact isNeutral_setPlinkState m state
  | create | accept | setConf | discard | fin | estabPeerLink | deletePeer | meshdSetMeshConf =>
    cases h

/-! ### New stations -/

/-- A station is asked for: nothing is sent, or the kernel refuses, which may go unnoticed, or has
it from then on. -/
theorem createUnauthenticatedStation_cases (E : Environment) (netif : MeshNetif)
    (peer : MacAddress) (elems : InfoElems) (s : State) :
    (∃ e, createUnauthenticatedStation E netif peer elems s = (s, some e)) ∨
      ∃ r : Request, r.creates = some peer ∧
        ((∃ e, createUnauthenticatedStation E netif peer elems s =
            ({ s with sent := s.sent ++ [(r, E.reply s.sent r)] }, some e)) ∨
          Nl.NetlinkSocket.passes (E.reply s.sent r) = true ∧
            createUnauthenticatedStation E netif peer elems s =
              ({ s with
                  sent := s.sent ++ [(r, E.reply s.sent r)]
                  stations := if E.reply s.sent r = 0 then insert peer s.stations
                    else s.stations }, none)) := by
  unfold createUnauthenticatedStation check
  split
  case isFalse => exact .inl ⟨_, rfl⟩
  rw [andThen_of_none rfl]
  simp only [skip]
  split
  next => exact .inl ⟨_, rfl⟩
  next c _ =>
    split
    next => exact .inl ⟨_, rfl⟩
    next htCap _ =>
      let r : Request := .newStation peer c.associationId elems.supRates htCap elems.vhtCap
      refine .inr ⟨r, rfl, ?_⟩
      by_cases hpasses : Nl.NetlinkSocket.passes (E.reply s.sent r) = true
      · refine .inr ⟨hpasses, ?_⟩
        simp only [send, r, hpasses, if_true]
        split <;> rfl
      · have herror : E.reply s.sent r ≠ 0 := fun hzero => hpasses (by rw [hzero]; rfl)
        refine .inl ⟨.netlinkError (E.reply s.sent r), ?_⟩
        simp only [send, r, herror, if_false, hpasses, Bool.false_eq_true]

/-- The candidate in the list that a pointer was obtained for. -/
def State.Holds (s : State) (peer : MacAddress) (cand : Candidate) : Prop :=
  ∃ c ∈ s.peers, c.id = cand.id ∧ c.peerMac = peer ∧ c.inKernel = cand.inKernel

private theorem holds_of_find {m : MacAddress} {accepted : Bool} {c : Candidate}
    (h : s.find E m accepted = some c) : s.Holds m c :=
  ⟨c, (mem_of_find h).1, rfl, (mem_of_find h).2, rfl⟩

/-- The refusal of a station is noticed: the kernel does not give one of the two answers that are
taken for something else. -/
def Environment.NoticesStations (E : Environment) : Prop :=
  ∀ log (r : Request), r.creates.isSome = true →
    Nl.NetlinkSocket.passes (E.reply log r) = true → E.reply log r = 0

/-- What telling the kernel about a candidate comes to: nothing that matters, or one more candidate
that is marked, and a station that is certainly there unless its refusal was not noticed. -/
inductive Told (E : Environment) (peer : MacAddress) (s s' : State) : Prop where
  | nothing (h : Neutral E s s')
  | told (c : Candidate) (hc : c ∈ s.peers) (hmac : c.peerMac = peer) (hnew : c.inKernel = false)
      (hwf : s'.WellFormed E) (hmacs : s'.peers.map (·.peerMac) = s.peers.map (·.peerMac))
      (hknown : ∀ m, s'.known m = s.known m + if peer = m then 1 else 0)
      (hlisted : (∀ m, s'.listed m = if peer = m then 1 else s.listed m) ∨
        ¬ E.NoticesStations ∧ ∀ m, s'.listed m = s.listed m)
      (hpending : ∀ m, s'.pending E m = s.pending E m)

/-- `ensureStation` does nothing else. -/
theorem told_ensureStation (netif : MeshNetif) (elems : InfoElems) (hwf : s.WellFormed E)
    {peer : MacAddress} {cand : Candidate} (hcand : s.Holds peer cand) :
    Told E peer s (ensureStation E netif peer elems cand s).1 := by
  unfold ensureStation
  split
  case isTrue => exact .nothing (.refl s)
  next hnew =>
    rcases createUnauthenticatedStation_cases E netif peer elems s with
      ⟨e, heq⟩ | ⟨r, hr, ⟨e, heq⟩ | ⟨hpasses, heq⟩⟩
    · rw [andThen_of_some (by rw [heq]), heq]
      exact .nothing (.refl s)
    · rw [andThen_of_some (by rw [heq]), heq]
      exact .nothing (.of_eq rfl rfl rfl rfl)
    · rw [andThen_of_none (by rw [heq]), heq]
      obtain ⟨c, hc, hid, hmac, hkernel⟩ := hcand
      have hnew' : c.inKernel = false := by rw [hkernel, Bool.eq_false_iff]; exact hnew
      rw [← hid, ← hmac]
      refine .told c hc rfl hnew' ?_ ?_ ?_ ?_ fun m => rfl
      · exact wellFormed_update c.id (fun _ => rfl) ⟨hwf.id_lt, hwf.ids, hwf.reports⟩
      · exact macs_update c.id fun _ => rfl
      · exact known_mark ⟨hwf.id_lt, hwf.ids, hwf.reports⟩ hc hnew'
      · by_cases hack : E.reply s.sent r = 0
        · refine .inl fun m => ?_
          simp only [State.listed, State.update, modify_apply, hack, if_true, Finset.mem_insert]
          by_cases hm : c.peerMac = m
          · simp [hm]
          · simp [hm, Ne.symm hm]
        · refine .inr ⟨fun hnotices => hack (hnotices _ r (by simp [hr]) hpasses), fun m => ?_⟩
          simp only [State.listed, State.update, modify_apply, hack, if_false]

/-! ### Rules for invariants -/

/-- The request is about no station, or only about the state of its link. -/
def Request.isQuiet : Request → Bool
  | .setPlinkState .. | .frame _ | .setMeshConfig _ => true
  | _ => false

variable (E) in
/-- What an invariant has to survive to hold whatever authsae does, as far as its calls satisfy
`P`. -/
structure Stable (P : AuthsaeCall → State → Prop) (I : State → Prop) : Prop where
  update : ∀ {s} id {f}, (∀ c, (f c).id = c.id ∧ (f c).peerMac = c.peerMac ∧
    (f c).inKernel = c.inKernel) → I s → I (s.update id f)
  create : ∀ {s} peer associationId, P (.create peer associationId) s → I s →
    I (Peering.create peer associationId s)
  discard : ∀ {s} id, P (.discard id) s → I s → I (s.delete id)
  send : ∀ r, r.isQuiet = true → Preserves I (Peering.send E r)
  deletePeerByAddr : ∀ peer, Preserves I (Peering.deletePeerByAddr E peer)
  ensureStation : ∀ {s} netif {peer} elems {cand}, I s → s.Holds peer cand →
    I (Peering.ensureStation E netif peer elems cand s).1
  establish : ∀ {s peer} keys {cand}, I s → s.Holds peer cand →
    I (Peering.establish E peer keys cand s).1

variable {P : AuthsaeCall → State → Prop} {I : State → Prop}

/-- A check does not change the state. -/
theorem preserves_check (p : Prop) [Decidable p] : Preserves I (check p) := by
  unfold check
  split <;> exact fun _ hs => hs

private theorem Stable.estabPeerLink (hI : Stable E P I) (peer : Option MacAddress)
    (keys : LinkKeys) : Preserves I (Peering.estabPeerLink E peer keys) := by
  intro s hs
  cases peer with
  | none => exact hs
  | some peer =>
    simp only [Peering.estabPeerLink]
    split
    next => exact hs
    next cand hfound =>
      split
      next => exact hs
      next cand' hfound' =>
        split
        next =>
          -- the candidate comes from one of two searches of the same list
          refine hI.establish keys hs ?_
          split at hfound'
          · cases hfound'
            exact holds_of_find hfound
          · exact holds_of_find hfound'
        next => exact hs

private theorem Stable.meshdWriteMgmt (hI : Stable E P I) (frame : Option (List UInt8)) :
    Preserves I (Peering.meshdWriteMgmt E frame) := by
  unfold Peering.meshdWriteMgmt txFrame
  split
  · exact fun _ hs => hs
  · split
    · exact fun _ hs => hs
    · exact hI.send _ rfl

private theorem Stable.setPlinkState (hI : Stable E P I) (peer : MacAddress) (state : ℤ) :
    Preserves I (Peering.setPlinkState E peer state) :=
  (preserves_check _).andThen (hI.send _ rfl)

/-- One call of authsae. -/
theorem Stable.call (hI : Stable E P I) (c : AuthsaeCall) (s : State) (hc : P c s) (hs : I s) :
    I (c.run E s).1 := by
  cases c with
  | create peer associationId => exact hI.create peer associationId hc hs
  | accept id => exact hI.update id (fun _ => ⟨rfl, rfl, rfl⟩) hs
  | setConf id => exact hI.update id (fun _ => ⟨rfl, rfl, rfl⟩) hs
  | discard id => exact hI.discard id hc hs
  | meshdWriteMgmt frame => exact hI.meshdWriteMgmt frame s hs
  | fin reason peer keylen =>
    simp only [AuthsaeCall.run, fin]
    split
    · exact hs
    · exact hI.deletePeerByAddr peer s hs
  | setPlinkState peer state => exact hI.setPlinkState peer state s hs
  | estabPeerLink peer keys => exact hI.estabPeerLink peer keys s hs
  | deletePeer peer => exact hI.deletePeerByAddr peer s hs
  | meshdSetMeshConf htOpmode => exact hI.send _ rfl s hs

/-- Whatever authsae does. -/
theorem Stable.calls (hI : Stable E P I) {calls : List AuthsaeCall}
    (halong : Along P (AuthsaeCall.run E) calls s) (hs : I s) :
    I (forEach (AuthsaeCall.run E) calls s).1 :=
  halong.invariant hI.call hs

private theorem Stable.admitCandidate (hI : Stable E P I) (netif : MeshNetif) (peer : MacAddress)
    (elems : InfoElems) : Preserves I (Peering.admitCandidate E netif peer elems) := by
  intro s hs
  unfold Peering.admitCandidate
  split
  next => exact hs
  next cand hfound =>
    rw [andThen_modify]
    have hs' : I (s.update cand.id fun c => { c with ies := elems }) :=
      hI.update _ (fun _ => ⟨rfl, rfl, rfl⟩) hs
    obtain ⟨hmem, hmac⟩ := mem_of_find hfound
    exact hI.ensureStation _ _ hs' ⟨{ cand with ies := elems },
      List.mem_map.mpr ⟨cand, hmem, if_pos rfl⟩, rfl, hmac, rfl⟩

private theorem Stable.handleNewCandidate (hI : Stable E P I) {calls : List AuthsaeCall}
    (halong : Along P (AuthsaeCall.run E) calls s) (failed : Bool) (wiphy : Option ℕ)
    (mac : Option MacAttr) (ie : Option InfoElems) (hs : I s) :
    I (Peering.handleNewCandidate E calls failed wiphy mac ie s).1 := by
  rcases hcheck : checkCandidate E wiphy mac ie with e | (status | ⟨netif, peer, elems⟩) <;>
    simp only [Peering.handleNewCandidate, hcheck]
  · exact hs
  · exact hs
  · have hcalls := hI.calls halong hs
    cases hres : (forEach (AuthsaeCall.run E) calls s).2 with
    | some e =>
      rw [andThen_of_some hres]
      exact hcalls
    | none =>
      rw [andThen_of_none hres]
      split
      · exact hcalls
      · exact hI.admitCandidate _ _ _ _ hcalls

private theorem deletes_of_checkDeleted (wiphy : Option ℕ) {ifIndex : Option UInt32}
    {mac : Option MacAttr}
    {peer : MacAddress} (h : checkDeleted E ifIndex mac = .ok (.proceed peer)) :
    Event.deletes E ⟨wiphy, .delStation ifIndex mac⟩ = some peer := by
  unfold checkDeleted at h
  cases ifIndex with
  | none => simp at h
  | some i =>
    by_cases hi : i = E.ifIndex
    · cases mac with
      | none => simp [hi] at h
      | some mac =>
        by_cases hlen : mac.len = 6
        · simp only [hi, ne_eq, not_true_eq_false, if_false, hlen, if_true, Except.ok.injEq,
            Verdict.proceed.injEq] at h
          simp [Event.deletes, hi, h]
        · simp [hi, hlen] at h
    · simp [hi] at h

/-- The events that do not report a deleted station of the mesh interface. -/
theorem Stable.processEvent (hI : Stable E P I) {calls : List AuthsaeCall}
    (halong : Along P (AuthsaeCall.run E) calls s) (failed : Bool) (close : List AuthsaeCall)
    {event : Event} (h : event.deletes E = none) (hs : I s) :
    I (Peering.processEvent E calls failed close event s).1 := by
  unfold Peering.processEvent
  split
  · exact hs
  · rcases hcommand : event.command with
      ⟨mac, ie⟩ | ⟨frame | frame, rxSignalDbm⟩ | _ | ⟨ifIndex, mac⟩ | _
    · exact hI.handleNewCandidate halong failed _ _ _ hs
    · exact hs
    · dsimp only
      split
      · exact hI.calls halong hs
      · exact hs
    · exact hs
    · rcases hcheck : checkDeleted E ifIndex mac with e | (status | peer) <;>
        simp only [Peering.handleDeletedPeer, hcheck]
      · exact hs
      · exact hs
      · have hdel := deletes_of_checkDeleted event.wiphy hcheck
        rw [← hcommand] at hdel
        simp [h] at hdel
    · exact hs

/-- The message about a deleted station of the mesh interface. -/
theorem processEvent_deletion (calls : List AuthsaeCall) (failed : Bool) (close : List AuthsaeCall)
    (peer : MacAddress) (s : State) :
    processEvent E calls failed close (deletion E peer) s =
      match s.find E peer false with
      | none => (s, none)
      | some cand => andThen (forEach (AuthsaeCall.run E) close) (modify (·.delete cand.id)) s := by
  have hphy : (E.netifs.find? (·.phyIndex = E.mesh.phyIndex)).isNone = false := by
    rw [Option.isNone_eq_false_iff, List.find?_isSome]
    exact ⟨E.mesh, E.mesh_mem, by simp⟩
  unfold Peering.processEvent
  rw [if_neg (by simp only [deletion, Option.any_some, hphy]; decide)]
  simp only [deletion, handleDeletedPeer, checkDeleted, ne_eq, not_true_eq_false, if_false, if_true]
  rfl

/-! ### Invariants of the balance -/

private theorem IsNeutral.preserves (ha : IsNeutral E a) (hwf : ∀ {s}, I s → s.WellFormed E)
    (hI : ∀ {s s'}, I s → Neutral E s s' → I s') : Preserves I a :=
  fun _ hs => hI hs (ha.apply (hwf hs)).2

/-- An invariant about the two sides of the balance, if no candidate is given up that is marked. -/
theorem stable_of_neutral (hP : ∀ c s, P c s → c.KeepsMarked s)
    (hwf : ∀ {s}, I s → s.WellFormed E) (hneutral : ∀ {s s'}, I s → Neutral E s s' → I s')
    (hcreate : ∀ {s} peer associationId, P (.create peer associationId) s → I s →
      I (Peering.create peer associationId s))
    (htold : ∀ {s s' peer}, I s → Told E peer s s' → I s') : Stable E P I where
  update id _ hf hs := hneutral hs (.update id hf)
  create := hcreate
  discard id hid hs := hneutral hs (.delete id (hP _ _ hid))
  send r hr := by
    refine (isNeutral_send ?_).preserves hwf hneutral
    cases r <;> first | rfl | simp [Request.isQuiet] at hr
  deletePeerByAddr peer := (isNeutral_deletePeerByAddr peer).preserves hwf hneutral
  ensureStation netif _ elems _ hs hcand := htold hs (told_ensureStation _ _ (hwf hs) hcand)
  establish {s peer} keys {cand} hs hcand := by
    unfold Peering.establish
    split
    · exact hs
    · have htold : I (ensureStation E E.mesh peer cand.ies cand s).1 :=
        htold hs (told_ensureStation _ _ (hwf hs) hcand)
      have hrest : IsNeutral E (andThen (setStationAuthenticated E E.mesh peer)
          (if E.mesh.conf.isSecure then installKeys E peer keys else skip)) := by
        refine (isNeutral_setStationAuthenticated _ _).andThen ?_
        split
        · exact isNeutral_installKeys peer keys
        · exact isNeutral_skip
      cases hres : (ensureStation E E.mesh peer cand.ies cand s).2 with
      | none =>
        rw [andThen_of_none hres]
        exact hrest.preserves hwf hneutral _ htold
      | some e =>
        rw [andThen_of_some hres]
        exact htold

end Peering

end Fbmeshd
