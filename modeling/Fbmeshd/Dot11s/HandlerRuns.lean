import Fbmeshd.Dot11s.Handler

/-!
# Joining and leaving

What the handler does between the constructor and the destructor changes little: requests are added
to the record, and each interface learns its index and its multicast rate. The rules below say what
an invariant has to survive to hold all the while. Joining and leaving end with a status, unless
what `initMesh` relies on is not given.
-/

namespace Fbmeshd

namespace Nl80211Handler

open Fallible

variable {E : Environment} {s : State}

/-! ### Interfaces -/

/-- The request neither creates nor deletes an interface, nor joins a mesh. -/
def Request.isInner : Request → Bool
  | .newInterface .. | .delInterface _ | .joinMesh _ => false
  | _ => true

variable (E) in
/-- The interfaces with another name are the given ones. -/
structure Tidy (base : List KernelInterface) (s : State) : Prop where
  names : (s.interfaces.map Prod.fst).Nodup
  indices : (s.interfaces.map Prod.snd).Nodup
  others : s.interfaces.filter (·.1 ≠ E.flags.interfaceName) = base
  netifs : ∀ n ∈ s.netifs, n.maybeIfName = none ∨ n.maybeIfName = some E.flags.interfaceName

variable {base : List KernelInterface}

/-- Nothing is done. -/
theorem preserves_skip {I : State → Prop} : Preserves I skip := fun _ h => h

private theorem preserves_fail {I : State → Prop} (e : Failure) :
    Preserves I (fail e) := fun _ h => h

private theorem preserves_check {I : State → Prop} (p : Prop) [Decidable p] :
    Preserves I (check p) := by
  unfold check
  split <;> exact fun _ h => h

/-- A request does not change the record of the interfaces. -/
theorem netifs_request (r : Request) (s : State) : (s.request E r).netifs = s.netifs := by
  unfold State.request
  split
  · cases r <;> rfl
  · rfl

/-- A request calls nothing of authsae. -/
theorem calls_request (r : Request) (s : State) : (s.request E r).calls = s.calls := by
  unfold State.request
  split
  · cases r <;> rfl
  · rfl

/-- A request is logged with its answer. -/
theorem sent_request (r : Request) (s : State) :
    (s.request E r).sent = s.sent ++ [(r, s.answer E r)] := rfl

/-- A request that changes nothing is only recorded. -/
theorem request_of_accept {r : Request} (h : s.accept E r = s) :
    s.request E r = { s with sent := s.sent ++ [(r, s.answer E r)] } := by
  rw [State.request, h, ite_self]

/-- The inner requests leave the interfaces of the kernel as they are. -/
theorem accept_of_isInner {r : Request} (hr : r.isInner = true) (s : State) :
    s.accept E r = s := by
  cases r <;> first | rfl | simp [Request.isInner] at hr

namespace Tidy

/-- A request that changes no interface keeps the interfaces tidy. -/
theorem request {r : Request} (haccept : s.accept E r = s) (h : Tidy E base s) :
    Tidy E base (s.request E r) := by
  rw [request_of_accept haccept]
  exact ⟨h.names, h.indices, h.others, h.netifs⟩

/-- The record may change as long as interfaces keep their names or take the configured one. -/
theorem update (h : Tidy E base s) (phyIndex : ℕ) {f : Netif → Netif}
    (hf : ∀ n, (f n).maybeIfName = n.maybeIfName ∨
      (f n).maybeIfName = some E.flags.interfaceName) : Tidy E base (s.update phyIndex f) := by
  refine ⟨h.names, h.indices, h.others, fun n' hn' => ?_⟩
  obtain ⟨n, hn, rfl⟩ := List.mem_map.mp hn'
  split
  · rcases hf n with hf | hf
    · rw [hf]
      exact h.netifs n hn
    · exact .inr hf
  · exact h.netifs n hn

private theorem newInterface (wiphy : ℕ) (mac : Option MacAddress) :
    Preserves (Tidy E base)
      (sendAndReceive E (.newInterface wiphy E.flags.interfaceName mac)) := by
  intro s h
  change Tidy E base (s.request E _)
  unfold State.request
  split
  next hanswer =>
    have hnew : E.flags.interfaceName ∉ s.interfaces.map Prod.fst :=
      fun hmem => E.reply_conflict hmem hanswer
    refine ⟨?_, ?_, ?_, h.netifs⟩
    · simp only [State.accept, List.map_append, List.map_cons, List.map_nil]
      rw [← List.concat_eq_append]
      exact List.Nodup.concat hnew h.names
    · simp only [State.accept, List.map_append, List.map_cons, List.map_nil]
      rw [← List.concat_eq_append]
      exact List.Nodup.concat (E.newIndex_fresh _) h.indices
    · simpa [State.accept] using h.others
  next => exact ⟨h.names, h.indices, h.others, h.netifs⟩

/-- Only the interface with the configured name has the index that is deleted. -/
theorem deleteInterface : Preserves (Tidy E base) (deleteInterface E E.flags.interfaceName) := by
  refine (preserves_check _).andThen fun s h => ?_
  split
  next => exact h
  next i hfind =>
    change Tidy E base (s.request E _)
    unfold State.request
    split
    next =>
      have hi : i ∈ s.interfaces := List.mem_of_find?_eq_some hfind
      have hname : i.1 = E.flags.interfaceName := by simpa using List.find?_some hfind
      refine ⟨?_, ?_, ?_, h.netifs⟩
      · exact h.names.sublist (List.filter_sublist.map _)
      · exact h.indices.sublist (List.filter_sublist.map _)
      · rw [← h.others]
        simp only [State.accept, List.filter_filter]
        refine List.filter_congr fun j hj => ?_
        by_cases hsame : j.2 = i.2
        · obtain rfl := List.inj_on_of_nodup_map h.indices hj hi hsame
          simp [hname]
        · simp [hsame]
    next => exact ⟨h.names, h.indices, h.others, h.netifs⟩

end Tidy

/-! ### Rules for invariants -/

/-- The interface that is looked up is one of the radio. -/
theorem withNetif_cases (phyIndex : ℕ) (f : Netif → Action State Failure) (s : State) :
    ((∀ n ∈ s.netifs, n.phyIndex ≠ phyIndex) ∧
        ∃ what, withNetif phyIndex f s = (s, some (.exception (.runtimeError what)))) ∨
      ∃ n ∈ s.netifs, n.phyIndex = phyIndex ∧ withNetif phyIndex f s = f n s := by
  unfold withNetif
  split
  next hempty => exact .inl ⟨by simp [hempty], _, rfl⟩
  next =>
    split
    next hfind => exact .inl ⟨by simpa using hfind, _, rfl⟩
    next n hfind =>
      exact .inr ⟨n, List.mem_of_find?_eq_some hfind, by simpa using List.find?_some hfind, rfl⟩

/-- What every interface preserves is preserved where it is looked up. -/
theorem preserves_withNetif {I : State → Prop} {f : Netif → Action State Failure}
    (hf : ∀ n, Preserves I (f n)) (phyIndex : ℕ) : Preserves I (withNetif phyIndex f) := by
  intro s h
  rcases withNetif_cases phyIndex f s with ⟨-, what, heq⟩ | ⟨n, -, -, heq⟩ <;> rw [heq]
  · exact h
  · exact hf n s h

/-- What every index preserves is preserved where it is looked up. -/
theorem preserves_withIfIndex {I : State → Prop} {f : ℕ → Action State Failure}
    (hf : ∀ i, Preserves I (f i)) (netif : Netif) : Preserves I (withIfIndex netif f) := by
  unfold withIfIndex
  split
  · exact preserves_fail _
  · exact hf _

/-- An invariant of `deleteInterface` survives the one request it makes. -/
theorem preserves_deleteInterface {I : State → Prop}
    (hrequest : ∀ {s} i, I s → I (s.request E (.delInterface i))) (ifName : List UInt8) :
    Preserves I (deleteInterface E ifName) := by
  refine (preserves_check _).andThen fun s h => ?_
  split
  · exact h
  · exact hrequest _ h

private theorem preserves_setMtu {I : State → Prop} : Preserves I (setMtu E) := by
  unfold setMtu
  split <;> exact fun _ h => h

/-- An invariant of `createInterface` survives the request and the new address. -/
theorem preserves_createInterface {I : State → Prop} {netif : Netif}
    (hrequest : ∀ {s} mac, I s →
      I (s.request E (.newInterface netif.phyIndex (netif.maybeIfName.getD []) mac)))
    (hupdate : ∀ {s} phyIndex address, I s →
      I (s.update phyIndex fun n => { n with maybeMacAddress := some address })) :
    Preserves I (createInterface E netif) := by
  unfold createInterface
  split
  · exact preserves_fail _
  · intro s h
    have hnew : Preserves I (sendAndReceive E
        (.newInterface netif.phyIndex (netif.maybeIfName.getD []) netif.maybeMacAddress)) :=
      fun _ h => hrequest _ h
    exact hnew.andThen (preserves_setMtu.andThen fun _ h => hupdate _ _ h) s h

variable (E) in
/-- What an invariant has to survive to hold while a mesh is initialised, as far as the calls that
copy satisfy `P`. -/
structure Inner (P : ConfigCall → Prop) (I : State → Prop) : Prop where
  request : ∀ {s} r, r.isInner = true → I s → I (s.request E r)
  rate : ∀ {s} phyIndex, I s → I (s.update phyIndex fun n => { n with mcastRate := kMcastRate })
  call : ∀ {s} c, P c → I s → I { s with calls := s.calls ++ [c] }

variable (E) in
/-- What it has to survive while a mesh is joined and left. -/
structure Stable (P : ConfigCall → Prop) (I : State → Prop) : Prop extends Inner E P I where
  index : ∀ {s} phyIndex ifIndex, I s →
    I (s.update phyIndex fun n => { n with maybeIfIndex := some ifIndex })

section Rules

variable {P : ConfigCall → Prop} {I : State → Prop}

private theorem Inner.sendAndReceive (hI : Inner E P I) {r : Request} (hr : r.isInner = true) :
    Preserves I (sendAndReceive E r) := fun _ h => hI.request r hr h

/-- The registrations and the keys are inner requests. -/
theorem Inner.registerAndInstallKeys (hI : Inner E P I) (netif : Netif) (isSecure : Bool) :
    Preserves I (registerAndInstallKeys E netif isSecure) := by
  have hsend {r : Request} (hr : r.isInner = true) : Preserves I (send E r) :=
    fun _ h => hI.request r hr h
  have hkey : ∀ cipher keyIdx keyData, Preserves I (installKey E netif cipher keyIdx keyData) :=
    fun _ _ _ => preserves_withIfIndex
      (fun _ => (hI.sendAndReceive rfl).andThen (hI.sendAndReceive rfl)) netif
  refine (preserves_withIfIndex (fun _ => hsend rfl) netif).andThen (Preserves.andThen ?_ ?_)
  · exact preserves_withIfIndex (fun _ => .forEach fun _ _ => hsend rfl) netif
  · split
    · exact (hkey _ _ _).andThen (hkey _ _ _)
    · exact preserves_skip

/-- Copying into authsae's arrays is logged, and then goes on. -/
theorem Inner.copying (hI : Inner E P I) {call : ConfigCall} (hcall : P call) {α : Type}
    {copies : Copying α} {f : α → Action State Failure} (hf : ∀ a, Preserves I (f a)) :
    Preserves I (copying E call copies f) := by
  refine Preserves.andThen (fun s h => hI.call call hcall h) ?_
  split
  · split
    · exact preserves_fail _
    · exact hf _
  · exact preserves_fail _

/-- The configuration of the peering protocol. -/
theorem Inner.initAmpe (hI : Inner E P I) (netif : Netif) (mesh : MeshdConfig) :
    Preserves I (initAmpe E netif mesh) := by
  refine Preserves.andThen (fun s h => hI.rate _ h)
    ((preserves_check _).andThen ((preserves_check _).andThen ?_))
  split
  · exact preserves_fail _
  · split
    · exact preserves_fail _
    · exact hI.registerAndInstallKeys netif _

/-- `initMesh` makes inner requests only, and its calls are about its own interface. -/
theorem Inner.initMesh (hI : Inner E P I) {netif : Netif}
    (hP : (E.flags.userspaceMeshPeering || netif.isEncrypted) = true →
      ∀ c : ConfigCall, c.netif = netif.toNetInterface → P c) :
    Preserves I (initMesh E netif) := by
  unfold Nl80211Handler.initMesh
  split
  next hon =>
    refine hI.copying (hP hon _ rfl) fun saeConfig => ?_
    split
    · exact preserves_fail _
    · exact hI.copying (hP hon _ rfl) (hI.initAmpe netif)
  next => exact preserves_skip

namespace Stable

variable (hI : Stable E P I)
include hI

/-- Setting an interface up or down. -/
theorem setLinkFlags (up : Bool) (netif : Netif) : Preserves I (setLinkFlags E up netif) := by
  unfold Nl80211Handler.setLinkFlags
  split
  · exact preserves_fail _
  · intro s h
    beta_reduce
    split
    · exact h
    · split
      · exact h
      · rw [andThen_modify]
        split
        · exact hI.index _ _ h
        · exact hI.request _ rfl (hI.index _ _ h)

/-- Leaving all meshes. -/
theorem leaveMeshes : Preserves I (leaveMeshes E) := by
  intro s h
  refine Preserves.forEach (fun netif _ => ?_) s h
  unfold leaveNetif
  split
  · refine (hI.setLinkFlags false netif).andThen (Preserves.handle ?_ _)
    exact preserves_withNetif (fun n => preserves_withIfIndex (fun _ => hI.sendAndReceive rfl) n) _
  · exact preserves_skip

end Stable

/-- An invariant that any request to join a mesh keeps. -/
theorem Stable.joinNetif (hI : Stable E (fun _ => True) I)
    (hjoin : ∀ {s} a, I s → I (s.request E (.joinMesh a))) (netif : Netif) :
    Preserves I (joinNetif E netif) := by
  unfold Nl80211Handler.joinNetif
  split
  · refine (hI.setLinkFlags true netif).andThen (Preserves.handle ?_ _)
    refine (preserves_withNetif (fun n => hI.initMesh fun _ _ _ => trivial) _).andThen
      (preserves_withNetif (fun n => preserves_withIfIndex (fun _ _ h => hjoin _ h) n) _)
  · exact preserves_skip

/-- What a stable invariant needs in addition to survive joining. -/
theorem Stable.joinMeshes (hI : Stable E (fun _ => True) I)
    (hjoin : ∀ {s} a, I s → I (s.request E (.joinMesh a))) : Preserves I (joinMeshes E) :=
  fun s h => Preserves.forEach (fun netif _ => hI.joinNetif hjoin netif) s h

/-- Two stable invariants hold together. -/
theorem Stable.and {J : State → Prop} (hI : Stable E P I) (hJ : Stable E P J) :
    Stable E P fun s => I s ∧ J s where
  request r hr h := ⟨hI.request r hr h.1, hJ.request r hr h.2⟩
  rate phyIndex h := ⟨hI.rate phyIndex h.1, hJ.rate phyIndex h.2⟩
  call c hc h := ⟨hI.call c hc h.1, hJ.call c hc h.2⟩
  index phyIndex ifIndex h := ⟨hI.index phyIndex ifIndex h.1, hJ.index phyIndex ifIndex h.2⟩

end Rules

/-- Joining and leaving keep the interfaces tidy. -/
theorem Tidy.stable : Stable E (fun _ => True) (Tidy E base) where
  request _ hr h := h.request (accept_of_isInner hr _)
  rate phyIndex h := h.update phyIndex fun _ => .inl rfl
  call _ _ h := ⟨h.names, h.indices, h.others, h.netifs⟩
  index phyIndex _ h := h.update phyIndex fun _ => .inl rfl

/-- So does creating the interface with the configured name. -/
theorem Tidy.createInterface {netif : Netif}
    (hname : netif.maybeIfName = some E.flags.interfaceName) :
    Preserves (Tidy E base) (createInterface E netif) := by
  refine preserves_createInterface (fun mac h => ?_) fun phyIndex _ h =>
    h.update _ fun _ => .inl rfl
  rw [hname]
  exact Tidy.newInterface _ mac _ h

/-- And so does the destructor. -/
theorem Tidy.tearDown : Preserves (Tidy E base) (tearDown E) := by
  intro s h
  have hnetifs := h.netifs
  refine Preserves.forEach (fun n hn => ?_) s h
  rcases hnetifs n hn with hname | hname <;> rw [hname]
  · exact preserves_skip
  · exact Tidy.deleteInterface.handle _

/-! ### How joining and leaving end -/

/-- The failures that `joinMeshes` and `leaveMeshes` turn into a status. -/
def Failure.isCaught : Failure → Bool
  | .status _ => true
  | e => e.isRuntimeError

/-- A refused request throws `std::runtime_error`. -/
theorem throws_sendAndReceive (r : Request) (s : State) :
    Throws (fun e => e.isRuntimeError = true) (sendAndReceive E r) s := by
  intro e he
  simp only [sendAndReceive] at he
  split at he
  · cases he
  · obtain rfl := Option.some.inj he
    rfl

private theorem isCaught_of_isRuntimeError {e : Failure} (h : e.isRuntimeError = true) :
    e.isCaught = true := by
  cases e <;> first | exact h | rfl

private theorem caught_sendAndReceive (r : Request) (s : State) :
    Throws (fun e => e.isCaught = true) (sendAndReceive E r) s :=
  fun e he => isCaught_of_isRuntimeError (throws_sendAndReceive r s e he)

private theorem caught_fail {e : Failure} (he : e.isCaught = true) (s : State) :
    Throws (fun e => e.isCaught = true) (fail e) s := by
  rintro e' ⟨⟩
  exact he

/-- The index that `setLinkFlags` found stands in each interface of the radio. -/
def Indexed (phyIndex ifIndex : ℕ) (s : State) : Prop :=
  ∀ n ∈ s.netifs, n.phyIndex = phyIndex → n.maybeIfIndex = some ifIndex

/-- The index of an interface survives the inner requests. -/
theorem Indexed.inner (phyIndex ifIndex : ℕ) :
    Inner E (fun _ => True) (Indexed phyIndex ifIndex) where
  request r _ h := by
    unfold Indexed
    rw [netifs_request]
    exact h
  rate phyIndex' h n' hn' hphy := by
    obtain ⟨n, hn, rfl⟩ := List.mem_map.mp hn'
    by_cases hsame : n.phyIndex = phyIndex'
    · rw [if_pos hsame] at hphy ⊢
      exact h n hn hphy
    · rw [if_neg hsame] at hphy ⊢
      exact h n hn hphy
  call _ _ h := h

private theorem indexed_update (phyIndex ifIndex : ℕ) (s : State) :
    Indexed phyIndex ifIndex
      (s.update phyIndex fun n => { n with maybeIfIndex := some ifIndex }) := by
  intro n' hn' hphy
  obtain ⟨n, hn, rfl⟩ := List.mem_map.mp hn'
  by_cases hsame : n.phyIndex = phyIndex
  · rw [if_pos hsame]
  · rw [if_neg hsame] at hphy
    exact absurd hphy hsame

/-- If the link could be set, the kernel has the interface, its index is known, and the kernel
accepted the request. -/
theorem setLinkFlags_spec {up : Bool} {netif : Netif} (h : (setLinkFlags E up netif s).2 = none) :
    ∃ ifName i, netif.maybeIfName = some ifName ∧ (ifName, i) ∈ s.interfaces ∧
      Indexed netif.phyIndex i (setLinkFlags E up netif s).1 ∧
      (.changeLink i up, 0) ∈ (setLinkFlags E up netif s).1.sent := by
  cases hname : netif.maybeIfName with
  | none => simp [setLinkFlags, hname, fail] at h
  | some ifName =>
    simp only [setLinkFlags, hname] at h ⊢
    split at h
    next => cases h
    next hsocket =>
      cases hfind : rtnlLinkGetKernel E ifName s with
      | none => simp [hfind] at h
      | some i =>
        have hi : (ifName, i.2) ∈ s.interfaces := by
          unfold rtnlLinkGetKernel at hfind
          split at hfind
          · cases hfind
          · have hiname : i.1 = ifName := by simpa using List.find?_some hfind
            exact hiname ▸ List.mem_of_find?_eq_some hfind
        simp only [hfind, andThen_modify] at h ⊢
        rw [if_neg hsocket]
        split at h
        next => cases h
        next halloc =>
          rw [if_neg halloc]
          refine ⟨ifName, i.2, rfl, hi,
            (Indexed.inner _ _).request _ rfl (indexed_update _ _ s), ?_⟩
          simp only [rtnlLinkChange, ite_eq_left_iff, reduceCtorEq, imp_false, not_not] at h
          simp only [rtnlLinkChange, sent_request, h]
          exact List.mem_append_right _ (List.mem_singleton_self _)

private theorem throws_setLinkFlags (up : Bool) (netif : Netif) (s : State) :
    Throws (fun e => ∃ code, e = .status code) (setLinkFlags E up netif) s := by
  have hstatus {e : Failure} {code : ErrorCode} (h : some (.status code) = some e) :
      ∃ code, e = .status code := ⟨code, (Option.some.inj h).symm⟩
  intro e he
  cases hname : netif.maybeIfName with
  | none =>
    simp only [setLinkFlags, hname, fail] at he
    exact hstatus he
  | some ifName =>
    simp only [setLinkFlags, hname] at he
    split at he
    · exact hstatus he
    · split at he
      · exact hstatus he
      · rw [andThen_modify] at he
        split at he
        · exact hstatus he
        · simp only [rtnlLinkChange] at he
          split at he
          · cases he
          · exact hstatus he

private theorem caught_withNetif {phyIndex : ℕ} {f : Netif → Action State Failure}
    (hf : ∀ n ∈ s.netifs, n.phyIndex = phyIndex → Throws (fun e => e.isCaught = true) (f n) s) :
    Throws (fun e => e.isCaught = true) (withNetif phyIndex f) s := by
  unfold Throws
  rcases withNetif_cases phyIndex f s with ⟨-, what, heq⟩ | ⟨n, hn, hphy, heq⟩ <;> rw [heq]
  · rintro e ⟨⟩
    rfl
  · exact hf n hn hphy

private theorem caught_withIfIndex {netif : Netif} {ifIndex : ℕ}
    (h : netif.maybeIfIndex = some ifIndex)
    {f : ℕ → Action State Failure}
    (hf : Throws (fun e => e.isCaught = true) (f ifIndex) s) :
    Throws (fun e => e.isCaught = true) (withIfIndex netif f) s := by
  rwa [withIfIndex, h]

private theorem caught_registerAndInstallKeys {netif : Netif} {ifIndex : ℕ}
    (h : netif.maybeIfIndex = some ifIndex) (isSecure : Bool) (s : State) :
    Throws (fun e => e.isCaught = true) (registerAndInstallKeys E netif isSecure) s := by
  have hkey (cipher : Peering.Cipher) (keyIdx : UInt8) (keyData : List UInt8) (s : State) :
      Throws (fun e => e.isCaught = true) (installKey E netif cipher keyIdx keyData) s :=
    caught_withIfIndex h
      ((caught_sendAndReceive _ s).andThen fun _ => caught_sendAndReceive _ _)
  refine Throws.andThen (caught_withIfIndex h (.of_none rfl)) fun _ => ?_
  refine Throws.andThen (caught_withIfIndex h (.of_none rfl)) fun _ => ?_
  split
  · exact (hkey _ _ _ _).andThen fun _ => hkey _ _ _ _
  · exact .of_none rfl

private theorem setSupportedBasicRates_error {phyIndex : ℕ} {is5GHz : Bool} {rates : List UInt16}
    {e : StdException} (h : setSupportedBasicRates phyIndex is5GHz rates = .error e) :
    ∃ what, e = .runtimeError what := by
  unfold setSupportedBasicRates at h
  dsimp only at h
  split_ifs at h <;> exact ⟨_, (Except.error.inj h).symm⟩

private theorem createMeshConfig_error {S : AuthsaeSizes} {netif : NetInterface} {e : StdException}
    (h : (createMeshConfig S netif).eval = .error e) : ∃ what, e = .runtimeError what := by
  cases hname : netif.maybeIfName with
  | none =>
    rw [createMeshConfig, hname] at h
    exact ⟨_, (Except.error.inj h).symm⟩
  | some ifName =>
    rw [createMeshConfig, hname] at h
    cases h

variable (E) in
/-- Nothing that `initMesh` does for the interface ends the process. -/
structure Fits (netif : Netif) : Prop where
  sae : (createSaeConfig E.S netif.toNetInterface).Within E.S.size
  mesh : (createMeshConfig E.S netif.toNetInterface).Within E.S.size
  reported : netif.bandRates ≠ []
  rates : netif.bandRates.length ≤ E.S.ratesSize

private theorem throws_copying {P : Failure → Prop} {call : ConfigCall} {α : Type}
    {copies : Copying α}
    {f : α → Action State Failure} (hwithin : copies.Within E.S.size)
    (herror : ∀ e, copies.eval = .error e → P (.exception e)) (hf : ∀ a t, Throws P (f a) t)
    (s : State) : Throws P (copying E call copies f) s := by
  refine Throws.andThen (.of_none rfl) fun _ => ?_
  rw [if_pos hwithin]
  split
  next e he =>
    rintro e' ⟨⟩
    exact herror e he
  next a _ => exact hf a _

/-- A check that holds does nothing. -/
theorem check_of_true {p : Prop} [Decidable p] (hp : p) : check p = skip := if_pos hp

private theorem caught_initAmpe {netif : Netif} {ifIndex : ℕ}
    (h : netif.maybeIfIndex = some ifIndex)
    (hfits : Fits E netif) (mesh : MeshdConfig) (s : State) :
    Throws (fun e => e.isCaught = true) (initAmpe E netif mesh) s := by
  rw [initAmpe, check_of_true hfits.reported, check_of_true hfits.rates]
  refine Throws.andThen (.of_none rfl) fun _ => Throws.andThen (.of_none rfl) fun _ =>
    Throws.andThen (.of_none rfl) fun _ => ?_
  split
  next e herror =>
    obtain ⟨what, rfl⟩ := setSupportedBasicRates_error herror
    exact caught_fail rfl _
  next =>
    split
    · exact caught_fail rfl _
    · exact caught_registerAndInstallKeys h _ _

private theorem caught_initMesh {netif : Netif} {ifIndex : ℕ}
    (h : netif.maybeIfIndex = some ifIndex)
    (hfits : (E.flags.userspaceMeshPeering || netif.isEncrypted) = true → Fits E netif)
    (s : State) : Throws (fun e => e.isCaught = true) (initMesh E netif) s := by
  unfold initMesh
  split
  next hon =>
    obtain ⟨saeConfig, hsae, -⟩ := exists_createSaeConfig E.S netif.toNetInterface
    refine throws_copying (hfits hon).sae (fun e he => by simp [hsae] at he) (fun _ t => ?_) s
    split
    · exact caught_fail rfl t
    · refine throws_copying (hfits hon).mesh (fun e he => ?_) (caught_initAmpe h (hfits hon)) t
      obtain ⟨what, rfl⟩ := createMeshConfig_error he
      rfl
  next => exact .of_none rfl

private theorem returnRuntimeError_throws {a : Action State Failure}
    (ha : Throws (fun e => e.isCaught = true) a s) :
    Throws (fun e => ∃ code, e = .status code) (returnRuntimeError a) s := by
  refine ha.handle fun e e' he heq => ?_
  obtain rfl := Option.some.inj heq
  cases e with
  | status code => exact ⟨code, rfl⟩
  | exception | netlinkError | spawnError => exact ⟨_, if_pos he⟩
  | abort | outOfBounds => cases he

/-- What joining and leaving do not change in an interface. -/
def Netif.core (n : Netif) : Netif := { n with maybeIfIndex := none, mcastRate := 0 }

/-- Up to what joining and leaving change, the interfaces are the given ones. -/
def Kept (netifs : List Netif) (s : State) : Prop :=
  s.netifs.map Netif.core = netifs.map Netif.core

section Kept

variable {netifs : List Netif}

/-- The record keeps what the joins read, if the update does. -/
theorem Kept.update (h : Kept netifs s) (phyIndex : ℕ) {f : Netif → Netif}
    (hf : ∀ n, (f n).core = n.core) : Kept netifs (s.update phyIndex f) := by
  rw [Kept, ← h]
  simp only [State.update, List.map_map]
  refine List.map_congr_left fun n _ => ?_
  simp only [Function.comp_apply]
  split
  · exact hf n
  · rfl

/-- A request changes nothing of it. -/
theorem Kept.request (h : Kept netifs s) (r : Request) : Kept netifs (s.request E r) := by
  rw [Kept, netifs_request]
  exact h

/-- Neither does joining or leaving. -/
theorem Kept.stable {P : ConfigCall → Prop} : Stable E P (Kept netifs) where
  request r _ h := h.request r
  rate phyIndex h := h.update phyIndex fun _ => rfl
  call _ _ h := h
  index phyIndex _ h := h.update phyIndex fun _ => rfl

/-- Each interface is still there. -/
theorem Kept.exists_core (h : Kept netifs s) {n : Netif} (hn : n ∈ s.netifs) :
    ∃ netif ∈ netifs, n.core = netif.core := by
  have hmem : n.core ∈ netifs.map Netif.core := h ▸ List.mem_map_of_mem hn
  obtain ⟨netif, hnetif, heq⟩ := List.mem_map.mp hmem
  exact ⟨netif, hnetif, heq.symm⟩

/-- The radio has one interface. -/
theorem Kept.core_eq (hphys : (netifs.map (·.phyIndex)).Nodup) (h : Kept netifs s)
    {netif n : Netif} (hmem : netif ∈ netifs) (hn : n ∈ s.netifs)
    (hphy : n.phyIndex = netif.phyIndex) : n.core = netif.core := by
  obtain ⟨netif', hmem', hcore⟩ := h.exists_core hn
  have hphy' : n.phyIndex = netif'.phyIndex := congrArg (·.phyIndex) hcore
  obtain rfl := List.inj_on_of_nodup_map hphys hmem hmem' (hphy.symm.trans hphy')
  exact hcore

end Kept

private theorem Fits.of_core {n netif : Netif} (hcore : n.core = netif.core) (h : Fits E netif) :
    Fits E n := by
  have hinterface : n.toNetInterface = netif.toNetInterface := congrArg (·.toNetInterface) hcore
  have hrates : n.bandRates = netif.bandRates :=
    show n.core.bandRates = netif.core.bandRates by rw [hcore]
  exact ⟨hinterface ▸ h.sae, hinterface ▸ h.mesh, hrates ▸ h.reported, hrates ▸ h.rates⟩

/-- Joining ends with a status, if nothing that `initMesh` does ends the process. -/
theorem joinMeshes_throws (hphys : (s.netifs.map (·.phyIndex)).Nodup)
    (hfits : ∀ n ∈ s.netifs, n.isValid = true →
      (E.flags.userspaceMeshPeering || n.isEncrypted) = true → Fits E n) :
    Throws (fun e => ∃ code, e = .status code) (joinMeshes E) s := by
  -- `netif` is the interface as the loop found it, `n` the same at a later time
  refine Throws.forEach (I := Kept s.netifs) (fun netif hmem t ht => ⟨?_, ?_⟩) rfl
  · unfold joinNetif
    split
    next hvalid =>
      refine (throws_setLinkFlags true netif t).andThen fun hup => ?_
      have ht₁ := Kept.stable.setLinkFlags (E := E) (P := fun _ => True) true netif t ht
      obtain ⟨-, i, -, -, hindexed, -⟩ := setLinkFlags_spec hup
      refine returnRuntimeError_throws (Throws.andThen (caught_withNetif ?_) fun hinit => ?_)
      · intro n hn hphy
        have hcore := ht₁.core_eq hphys hmem hn hphy
        have henc : n.isEncrypted = netif.isEncrypted := congrArg (·.isEncrypted) hcore
        exact caught_initMesh (hindexed n hn hphy)
          (fun hon => (hfits netif hmem hvalid (henc ▸ hon)).of_core hcore) _
      · refine caught_withNetif fun n hn hphy => ?_
        have hindex := preserves_withNetif
          (fun n => (Indexed.inner _ _).initMesh fun _ _ _ => trivial) _ _ hindexed n hn hphy
        exact caught_withIfIndex hindex (caught_sendAndReceive _ _)
    next => exact .of_none rfl
  · exact Kept.stable.joinNetif (fun a h => h.request _) netif t ht

/-- Leaving always does. -/
theorem leaveMeshes_throws (s : State) :
    Throws (fun e => ∃ code, e = .status code) (leaveMeshes E) s := by
  refine Throws.forEach (I := fun _ => True) (fun netif _ s _ => ⟨?_, trivial⟩) trivial
  unfold leaveNetif
  split
  · refine (throws_setLinkFlags false netif s).andThen fun hdown => ?_
    obtain ⟨-, i, -, -, hindexed, -⟩ := setLinkFlags_spec hdown
    exact returnRuntimeError_throws (caught_withNetif fun n hn hphy =>
      caught_withIfIndex (hindexed n hn hphy) (caught_sendAndReceive _ _))
  · exact .of_none rfl

end Nl80211Handler

end Fbmeshd
