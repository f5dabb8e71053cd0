import Fbmeshd.Dot11s.HandlerRuns

/-!
# What the handler leaves behind

Over a whole session the handler touches no interface of the kernel but the one with the configured
name, and its destructor leaves none with that name, if the kernel lets it. The destructor is
reached if authsae's arrays are large enough, the rates are known and so is the address of the
interface.
-/

namespace Fbmeshd

namespace Nl80211Handler

open Fallible

variable {E : Environment} {s : State} {base : List KernelInterface}

/-! ### The constructor -/

/-- What the constructor starts from: it knows the radios, uses none of them yet and has sent no
request. -/
structure Initial (s : State) : Prop where
  unused : ∀ n ∈ s.netifs, n.maybeIfName = none
  phys : (s.netifs.map (·.phyIndex)).Nodup
  names : (s.interfaces.map Prod.fst).Nodup
  indices : (s.interfaces.map Prod.snd).Nodup
  sent : s.sent = []
  calls : s.calls = []

private theorem throws_createInterface (netif : Netif) (s : State) :
    Throws (fun e => e.isRuntimeError = true) (createInterface E netif) s := by
  unfold createInterface
  split
  · rintro e ⟨⟩
    rfl
  · refine (throws_sendAndReceive _ s).andThen fun _ => Throws.andThen ?_ fun _ => .of_none rfl
    unfold setMtu
    split
    · rintro e ⟨⟩
      rfl
    · exact .of_none rfl

/-- With a name, the check passes, and the interface is deleted if the kernel has it. -/
theorem deleteInterface_eq {ifName : List UInt8} (h : ifName ≠ []) (s : State) :
    deleteInterface E ifName s =
      match s.interfaces.find? (·.1 = ifName) with
      | none => (s, none)
      | some i => sendAndReceive E (.delInterface i.2) s := by
  rw [deleteInterface, check, if_pos h]
  rfl

private theorem throws_deleteInterface {ifName : List UInt8} (h : ifName ≠ []) (s : State) :
    Throws (fun e => e.isRuntimeError = true) (deleteInterface E ifName) s := by
  unfold Throws
  rw [deleteInterface_eq h]
  split
  · simp
  · exact throws_sendAndReceive _ s

private theorem logRuntimeError_eq {a : Action State Failure}
    (h : Throws (fun e => e.isRuntimeError = true) a s) :
    logRuntimeError a s = ((a s).1, none) := by
  cases hres : (a s).2 with
  | none => simp [logRuntimeError, handle, hres]
  | some e => simp [logRuntimeError, handle, hres, h e hres]

variable (E) in
/-- The interface with the configuration. -/
def Configured (netif netif' : Netif) : Prop :=
  ∃ configured, configure E.flags E.parseMac netif.toNetInterface = .ok configured ∧
    netif' = { netif with toNetInterface := configured }

/-- Flags that can be read are applied, unless the interface is to have no name. -/
theorem useInterface_cases {netif : Netif} {configured : NetInterface}
    (h : configure E.flags E.parseMac netif.toNetInterface = .ok configured) (s : State) :
    let netif' : Netif := { netif with toNetInterface := configured }
    E.flags.interfaceName = [] ∧
        useInterface E netif s = (s.update netif'.phyIndex fun _ => netif', some .abort) ∨
      E.flags.interfaceName ≠ [] ∧ useInterface E netif s =
        ((andThen (deleteInterface E E.flags.interfaceName) (createInterface E netif')
          (s.update netif'.phyIndex fun _ => netif')).1, none) := by
  simp only [useInterface, h, andThen_modify]
  by_cases hname : E.flags.interfaceName = []
  · have hcheck : deleteInterface E E.flags.interfaceName = fail .abort := by
      funext s
      rw [deleteInterface, check, if_neg (by simp [hname])]
      rfl
    refine .inl ⟨hname, ?_⟩
    rw [logRuntimeError, handle, andThen_of_some (by rw [hcheck]; rfl), hcheck]
    rfl
  · exact .inr ⟨hname, logRuntimeError_eq ((throws_deleteInterface hname _).andThen fun _ =>
      throws_createInterface _ _)⟩

/-- Without interfaces that are used there is nothing to tear down. -/
theorem tearDown_of_unused (hunused : ∀ n ∈ s.netifs, n.maybeIfName = none) :
    tearDown E s = (s, none) :=
  forEach_of_unchanged fun n hn => by rw [hunused n hn]; rfl

/-- The constructor fails before it sends anything, or it takes one interface. -/
theorem construct_cases (hunused : ∀ n ∈ s.netifs, n.maybeIfName = none) :
    (∃ netifs e, construct E s = ({ s with netifs }, some e)) ∨
      validateConfiguration E.S E.flags = .ok () ∧ E.flags.interfaceName ≠ [] ∧
        ∃ netif ∈ s.netifs, netif.isSkipped E.flags = false ∧
          ∃ netif', Configured E netif netif' ∧ construct E s =
            ((andThen (deleteInterface E E.flags.interfaceName) (createInterface E netif')
              (s.update netif'.phyIndex fun _ => netif')).1, none) := by
  cases hvalid : validateConfiguration E.S E.flags with
  | error e => exact .inl ⟨s.netifs, .exception e, by simp [construct, hvalid, fail]⟩
  | ok u =>
    have hconstruct : construct E s = applyConfiguration E s := by simp only [construct, hvalid]
    rw [hconstruct, applyConfiguration]
    cases hfind : s.netifs.find? (!·.isSkipped E.flags) with
    | none =>
      have hnothing := tearDown_of_unused (E := E) hunused
      dsimp only
      rw [andThen_of_none (by rw [hnothing]), hnothing]
      exact .inl ⟨s.netifs, _, rfl⟩
    | some netif =>
      dsimp only
      cases hconfigured : configure E.flags E.parseMac netif.toNetInterface with
      | error e => exact .inl ⟨s.netifs, .exception e, by simp [useInterface, hconfigured, fail]⟩
      | ok configured =>
        rcases useInterface_cases hconfigured s with ⟨-, huse⟩ | ⟨hname, huse⟩
        · exact .inl ⟨_, _, huse⟩
        · have hskipped : netif.isSkipped E.flags = false := by simpa using List.find?_some hfind
          exact .inr ⟨rfl, hname, netif, List.mem_of_find?_eq_some hfind, hskipped, _,
            ⟨configured, hconfigured, rfl⟩, huse⟩

/-- A configured interface has what the flags say. -/
theorem Configured.fromFlags {netif netif' : Netif} (h : Configured E netif netif') :
    FromFlags E.flags netif'.toNetInterface := by
  obtain ⟨configured, hconfigured, rfl⟩ := h
  exact (configure_ok hconfigured).1

private theorem Configured.phyIndex {netif netif' : Netif} (h : Configured E netif netif') :
    netif'.phyIndex = netif.phyIndex := by
  obtain ⟨configured, hconfigured, rfl⟩ := h
  exact (configure_ok hconfigured).2.1

variable (E) in
/-- One of the interfaces has the configured name. -/
def Named (s : State) : Prop := ∃ n ∈ s.netifs, n.maybeIfName = some E.flags.interfaceName

private theorem Named.update (h : Named E s) (phyIndex : ℕ) {f : Netif → Netif}
    (hf : ∀ n, (f n).maybeIfName = n.maybeIfName) : Named E (s.update phyIndex f) := by
  obtain ⟨n, hn, hname⟩ := h
  refine ⟨_, List.mem_map_of_mem hn, ?_⟩
  split
  · exact (hf n).trans hname
  · exact hname

private theorem Named.request (h : Named E s) (r : Request) : Named E (s.request E r) := by
  unfold Named
  rw [netifs_request]
  exact h

private theorem Named.stable : Stable E (fun _ => True) (Named E) where
  request r _ h := h.request r
  rate phyIndex h := h.update phyIndex fun _ => rfl
  call _ _ h := h
  index phyIndex _ h := h.update phyIndex fun _ => rfl

variable (E) in
/-- What the constructor makes of the radios: one interface each, and the flags stand in those that
are used. -/
structure Built (radios : List Netif) (s : State) : Prop where
  phys : s.netifs.map (·.phyIndex) = radios.map (·.phyIndex)
  used : ∀ n ∈ s.netifs, n.maybeIfName = none ∨ FromFlags E.flags n.toNetInterface ∧
    ∃ radio ∈ radios, radio.isSkipped E.flags = false ∧
      n.rates2GHz = radio.rates2GHz ∧ n.rates5GHz = radio.rates5GHz

section Built

variable {radios : List Netif}

private theorem Built.request (h : Built E radios s) (r : Request) :
    Built E radios (s.request E r) := by
  refine ⟨?_, ?_⟩ <;> rw [netifs_request]
  · exact h.phys
  · exact h.used

private theorem Built.address (h : Built E radios s) (phyIndex : ℕ) (address : MacAddress) :
    Built E radios
      (s.update phyIndex fun n => { n with maybeMacAddress := some address }) := by
  refine ⟨?_, fun n' hn' => ?_⟩
  · rw [← h.phys]
    simp only [State.update, List.map_map]
    refine List.map_congr_left fun n _ => ?_
    simp only [Function.comp_apply]
    split <;> rfl
  · obtain ⟨n, hn, rfl⟩ := List.mem_map.mp hn'
    rcases h.used n hn with hnone | ⟨hflags, hradio⟩
    · left
      split <;> exact hnone
    · right
      split
      · exact ⟨hflags.withMacAddress _, hradio⟩
      · exact ⟨hflags, hradio⟩

private theorem Configured.built (hunused : ∀ n ∈ s.netifs, n.maybeIfName = none)
    {netif netif' : Netif} (hmem : netif ∈ s.netifs) (hskipped : netif.isSkipped E.flags = false)
    (h : Configured E netif netif') :
    Built E s.netifs (s.update netif'.phyIndex fun _ => netif') := by
  refine ⟨?_, fun n' hn' => ?_⟩
  · simp only [State.update, List.map_map]
    refine List.map_congr_left fun n _ => ?_
    simp only [Function.comp_apply]
    split
    next hsame => exact hsame.symm
    next => rfl
  · obtain ⟨n, hn, rfl⟩ := List.mem_map.mp hn'
    split
    · refine .inr ⟨h.fromFlags, netif, hmem, hskipped, ?_⟩
      obtain ⟨configured, -, rfl⟩ := h
      exact ⟨rfl, rfl⟩
    · exact .inl (hunused n hn)

end Built

/-- The constructor leaves one interface with the configured name, and the others as they are. -/
theorem Initial.construct (h : Initial s) (hdone : (construct E s).2 = none) :
    validateConfiguration E.S E.flags = .ok () ∧ E.flags.interfaceName ≠ [] ∧
      Named E (construct E s).1 ∧ Built E s.netifs (construct E s).1 ∧
      Tidy E (s.interfaces.filter (·.1 ≠ E.flags.interfaceName)) (construct E s).1 := by
  rcases construct_cases (E := E) h.unused with
    ⟨netifs, e, hfail⟩ | ⟨hvalid, hname, netif, hmem, hskipped, netif', hc, heq⟩
  · simp [hfail] at hdone
  · have hifName := hc.fromFlags.ifName
    have hnamed : Named E (s.update netif'.phyIndex fun _ => netif') :=
      ⟨_, List.mem_map_of_mem hmem, by rw [if_pos hc.phyIndex.symm, hifName]⟩
    have htidy : Tidy E (s.interfaces.filter (·.1 ≠ E.flags.interfaceName))
        (s.update netif'.phyIndex fun _ => netif') :=
      Tidy.update ⟨h.names, h.indices, rfl, fun n hn => .inl (h.unused n hn)⟩ _ fun _ =>
        .inr hifName
    have hboth {I : State → Prop} (hrequest : ∀ {s} r, I s → I (s.request E r))
        (hupdate : ∀ {s} phyIndex address, I s →
          I (s.update phyIndex fun n => { n with maybeMacAddress := some address })) :
        Preserves I (andThen (deleteInterface E E.flags.interfaceName)
          (createInterface E netif')) :=
      (preserves_deleteInterface (fun _ h => hrequest _ h) _).andThen
        (preserves_createInterface (fun _ h => hrequest _ h) hupdate)
    rw [heq]
    refine ⟨hvalid, hname, hboth (fun r h => h.request r)
        (fun _ _ h => h.update _ fun _ => rfl) _ hnamed,
      hboth (fun r h => h.request r) (fun phyIndex address h => h.address phyIndex address) _
        (hc.built h.unused hmem hskipped),
      Tidy.deleteInterface.andThen (Tidy.createInterface hifName) _ htidy⟩

/-- What `initMesh` relies on: the password and the groups fit into their arrays, and the radios
have reported rates of the band, which fit as well. -/
structure Sound (E : Environment) (s : State) : Prop where
  password : E.flags.encryptionPassword.length ≤ E.S.SAE_MAX_PASSWORD_LEN
  groups : ∀ groups, parseCsvFlag stoi E.flags.encryptionSaeGroups = .ok groups →
    groups.length ≤ E.S.SAE_MAX_EC_GROUPS
  rates : ∀ n ∈ s.netifs, n.isSkipped E.flags = false →
    let rates := if E.flags.meshFrequency > 2484 then n.rates5GHz else n.rates2GHz
    rates ≠ [] ∧ rates.length ≤ E.S.ratesSize

private theorem Sound.fits {t : State} (h : Sound E s)
    (hvalid : validateConfiguration E.S E.flags = .ok ()) (hbuilt : Built E s.netifs t) {n : Netif}
    (hn : n ∈ t.netifs) (hused : n.isValid = true) : Fits E n := by
  obtain ⟨hid, hname, -⟩ := validateConfiguration_ok hvalid
  rcases hbuilt.used n hn with hnone | ⟨hflags, radio, hradio, hskipped, h2GHz, h5GHz⟩
  · simp [NetInterface.isValid, hnone] at hused
  · have hrates := h.rates radio hradio hskipped
    rw [← h2GHz, ← h5GHz, ← hflags.frequency] at hrates
    refine ⟨within_createSaeConfig_iff.mpr ⟨h.groups _ hflags.groups, ?_⟩,
      within_createMeshConfig hflags.ifName ?_ (hname.trans E.S.interface_fits), hrates.1, hrates.2⟩
    · rw [hflags.password]
      exact h.password
    · rw [hflags.meshId]
      exact hid.trans E.S.meshid_fits

/-! ### The address of the interface -/

/-- The interfaces that are used have an address. -/
def Addressed (s : State) : Prop :=
  ∀ n ∈ s.netifs, n.maybeIfName.isSome = true → n.maybeMacAddress.isSome = true

private theorem Addressed.update (h : Addressed s) (phyIndex : ℕ) {f : Netif → Netif}
    (hf : ∀ n, (f n).maybeIfName = n.maybeIfName ∧
      (n.maybeMacAddress.isSome = true → (f n).maybeMacAddress.isSome = true)) :
    Addressed (s.update phyIndex f) := by
  intro n' hn' hname
  obtain ⟨n, hn, rfl⟩ := List.mem_map.mp hn'
  by_cases hsame : n.phyIndex = phyIndex
  · rw [if_pos hsame] at hname ⊢
    exact (hf n).2 (h n hn ((hf n).1 ▸ hname))
  · rw [if_neg hsame] at hname ⊢
    exact h n hn hname

private theorem Addressed.request (h : Addressed s) (r : Request) : Addressed (s.request E r) := by
  unfold Addressed
  rw [netifs_request]
  exact h

private theorem Addressed.stable : Stable E (fun _ => True) Addressed where
  request r _ h := h.request r
  rate phyIndex h := h.update phyIndex fun _ => ⟨rfl, id⟩
  call _ _ h := h
  index phyIndex _ h := h.update phyIndex fun _ => ⟨rfl, id⟩

private theorem meshAddress_isSome (hnamed : Named E s) (h : Addressed s) :
    (meshAddress s).isSome = true := by
  obtain ⟨n, hn, hname⟩ := hnamed
  unfold meshAddress
  cases hfind : s.netifs.find? (·.maybeIfName.isSome) with
  | none => simpa [hname] using List.find?_eq_none.mp hfind n hn
  | some n' =>
    have hused := List.find?_some hfind
    exact h n' (List.mem_of_find?_eq_some hfind) hused

/-- No answer so far has made `sendAndReceive` throw. -/
def Passed (s : State) : Prop := ∀ x ∈ s.sent, Nl.NetlinkSocket.passes x.2 = true

private theorem sendAndReceive_eq_none {r : Request} (h : Passed (sendAndReceive E r s).1) :
    (sendAndReceive E r s).2 = none :=
  if_pos (h _ (List.mem_append_right _ (List.mem_singleton_self _)))

private theorem netifs_deleteInterface (ifName : List UInt8) (s : State) :
    (deleteInterface E ifName s).1.netifs = s.netifs :=
  preserves_deleteInterface (I := fun t => t.netifs = s.netifs)
    (fun _ h => (netifs_request _ _).trans h) ifName s rfl

/-- The address of the interface that is created is taken over, if nothing fails. -/
theorem addressed_createInterface {netif : Netif} (hvalid : netif.isValid = true)
    (hmtu : E.flags.meshMtu = 1500 ∨ E.spawns = true)
    (hname : ∀ n ∈ s.netifs, n.maybeIfName.isSome = true → n.phyIndex = netif.phyIndex)
    (hpassed : Passed (createInterface E netif s).1) : Addressed (createInterface E netif s).1 := by
  have hspawn : setMtu E = skip := if_neg fun h => by simp [h.2, h.1] at hmtu
  have hrefl : Reflects Passed (andThen (setMtu E) (modify (·.update netif.phyIndex fun n =>
      { n with maybeMacAddress := some (E.newAddress s.sent) }))) := by
    rw [hspawn]
    exact fun _ h => h
  simp only [createInterface, hvalid, Bool.not_true, Bool.false_eq_true, if_false] at hpassed ⊢
  rw [andThen_of_none (sendAndReceive_eq_none (hrefl.first hpassed)), hspawn,
    andThen_of_none (by rfl)]
  intro n' hn' hused
  obtain ⟨n, hn, rfl⟩ := List.mem_map.mp hn'
  change n ∈ (s.request E _).netifs at hn
  rw [netifs_request] at hn
  by_cases hsame : n.phyIndex = netif.phyIndex
  · rw [if_pos hsame]
    rfl
  · rw [if_neg hsame] at hused
    exact absurd (hname n hn hused) hsame

/-- The address of the interface is known: it is one of the flags, or nothing has failed that is
done to learn it. -/
def AddressKnown (E : Environment) (s : State) : Prop :=
  E.flags.meshMacAddress ≠ [] ∨
    Passed (construct E s).1 ∧ (E.flags.meshMtu = 1500 ∨ E.spawns = true)

private theorem Configured.address {netif netif' : Netif} (h : Configured E netif netif')
    (hmac : E.flags.meshMacAddress ≠ []) : netif'.maybeMacAddress.isSome = true := by
  obtain ⟨configured, hconfigured, rfl⟩ := h
  have hread := (configure_ok hconfigured).2.2.2
  rw [readMacAddress, if_neg hmac] at hread
  obtain ⟨mac, -, hmac⟩ := Except.map_eq_ok_iff.mp hread
  simp [← hmac]

private theorem Initial.addressed (h : Initial s) (hdone : (Nl80211Handler.construct E s).2 = none)
    (hknown : AddressKnown E s) : Addressed (Nl80211Handler.construct E s).1 := by
  rcases construct_cases (E := E) h.unused with
    ⟨netifs, e, hfail⟩ | ⟨-, hname, netif, hmem, hskipped, netif', hc, heq⟩
  · simp [hfail] at hdone
  -- only the interface of the radio that is used has a name
  have hused : ∀ n ∈ (s.update netif'.phyIndex fun _ => netif').netifs,
      n.maybeIfName.isSome = true → n = netif' := by
    intro n' hn' hname'
    obtain ⟨n, hn, rfl⟩ := List.mem_map.mp hn'
    split
    · rfl
    next hother =>
      rw [if_neg hother, h.unused n hn] at hname'
      cases hname'
  rcases hknown with hmac | ⟨hpassed, hmtu⟩
  · have haddressed : Addressed (s.update netif'.phyIndex fun _ => netif') :=
      fun n hn hname' => hused n hn hname' ▸ hc.address hmac
    rw [heq]
    refine Preserves.andThen ?_ ?_ _ haddressed
    · exact preserves_deleteInterface (fun _ h => h.request _) _
    · exact preserves_createInterface (fun _ h => h.request _)
        fun phyIndex _ h => h.update phyIndex fun _ => ⟨rfl, fun _ => rfl⟩
  · have hvalid : netif'.isValid = true := by
      obtain ⟨configured, hconfigured, rfl⟩ := hc
      obtain ⟨hflags, -, hcapable, -⟩ := configure_ok hconfigured
      simp only [NetInterface.isSkipped, Bool.or_eq_false_iff, Bool.not_eq_false'] at hskipped
      simp [NetInterface.isValid, hflags.ifName, hcapable, hskipped.1.1]
    rw [heq] at hpassed ⊢
    generalize (s.update netif'.phyIndex fun _ => netif') = t at hpassed hused
    have hdeleted := netifs_deleteInterface (E := E) E.flags.interfaceName t
    cases hres : (deleteInterface E E.flags.interfaceName t).2 with
    | none =>
      rw [andThen_of_none hres] at hpassed ⊢
      exact addressed_createInterface hvalid hmtu
        (fun n hn hname' => by rw [hused n (hdeleted ▸ hn) hname']) hpassed
    | some e =>
      -- the interface could be deleted, since all answers passed
      rw [andThen_of_some hres] at hpassed
      rw [deleteInterface_eq hname] at hres hpassed
      split at hres
      · cases hres
      next i hfind =>
        rw [hfind] at hpassed
        rw [sendAndReceive_eq_none hpassed] at hres
        cases hres

/-! ### The destructor -/

/-- The kernel refused no request to delete an interface. -/
def Deletable (s : State) : Prop := ∀ i error, (.delInterface i, error) ∈ s.sent → error = 0

private theorem Deletable.of_request {r : Request} (h : Deletable (s.request E r)) : Deletable s :=
  fun i error hi => h i error (List.mem_append_left _ hi)

variable (E) in
/-- No interface has the configured name. -/
def Gone (s : State) : Prop := ∀ i ∈ s.interfaces, i.1 ≠ E.flags.interfaceName

/-- If the kernel lets it, the interface with the configured name is deleted. -/
theorem gone_deleteInterface (hname : E.flags.interfaceName ≠ []) (h : Tidy E base s)
    (hdel : Deletable (deleteInterface E E.flags.interfaceName s).1) :
    Gone E (deleteInterface E E.flags.interfaceName s).1 := by
  rw [deleteInterface_eq hname] at hdel ⊢
  cases hfind : s.interfaces.find? (·.1 = E.flags.interfaceName) with
  | none =>
    intro i hi
    simpa using List.find?_eq_none.mp hfind i hi
  | some i =>
    have hi : i ∈ s.interfaces := List.mem_of_find?_eq_some hfind
    have hiname : i.1 = E.flags.interfaceName := by simpa using List.find?_some hfind
    simp only [hfind, sendAndReceive] at hdel ⊢
    have hack : s.answer E (.delInterface i.2) = 0 :=
      hdel i.2 _ (List.mem_append_right _ (List.mem_singleton_self _))
    rw [State.request, if_pos hack]
    intro j hj hjname
    obtain ⟨hj, hne⟩ := List.mem_filter.mp hj
    obtain rfl := List.inj_on_of_nodup_map h.names hj hi (hjname.trans hiname.symm)
    simp at hne

private theorem reflects_deleteInterface (ifName : List UInt8) :
    Reflects Deletable (deleteInterface E ifName) := by
  refine Reflects.andThen ?_ fun s h => ?_
  · unfold check
    split <;> exact fun _ h => h
  · beta_reduce at h
    split at h
    · exact h
    · exact h.of_request

private theorem gone_tearDown (hname : E.flags.interfaceName ≠ []) (h : Tidy E base s)
    (hnamed : Named E s) (hdel : Deletable (tearDown E s).1) : Gone E (tearDown E s).1 := by
  -- `Q` relates the interfaces that remain to the state
  let Q (rest : List Netif) (t : State) : Prop :=
    Tidy E base t ∧
      (∀ n ∈ rest, n.maybeIfName = none ∨ n.maybeIfName = some E.flags.interfaceName) ∧
      ((∃ n ∈ rest, n.maybeIfName = some E.flags.interfaceName) ∨ Gone E t)
  have hQ : Q s.netifs s := ⟨h, h.netifs, .inl hnamed⟩
  refine ((forEach_completes (T := Deletable) (fun n => ?_) ?_ hQ hdel).2.2.2).resolve_left
    (by simp)
  · split
    · exact fun s h => reflects_deleteInterface _ s h
    · exact fun _ h => h
  · rintro n rest t ⟨htidy, hrest, hopen⟩ hT
    obtain ⟨hn, hrest⟩ := List.forall_mem_cons.mp hrest
    rcases hn with hn | hn <;> rw [hn] at hT ⊢
    · refine ⟨rfl, htidy, hrest, hopen.imp_left ?_⟩
      rintro ⟨n', hn', hn'name⟩
      rcases List.mem_cons.mp hn' with rfl | hn'
      · simp [hn] at hn'name
      · exact ⟨n', hn', hn'name⟩
    · dsimp only at hT ⊢
      rw [logRuntimeError_eq (throws_deleteInterface hname t)] at hT ⊢
      exact ⟨rfl, Tidy.deleteInterface t htidy, hrest, .inr (gone_deleteInterface hname htidy hT)⟩

/-- The destructor throws nothing. -/
theorem tearDown_eq_none (hname : E.flags.interfaceName ≠ []) (h : Tidy E base s) :
    (tearDown E s).2 = none := by
  have hnetifs := h.netifs
  refine (forEach_total (I := fun _ => True) _ (fun n hn t _ => ⟨?_, trivial⟩) trivial).1
  rcases hnetifs n hn with hn | hn <;> rw [hn]
  · rfl
  · dsimp only
    rw [logRuntimeError_eq (throws_deleteInterface hname t)]

/-! ### Sessions -/

/-- What a constructor leaves that fails. -/
theorem session_of_construct_isSome (h : (construct E s).2.isSome = true) :
    session E s = ((construct E s).1, .terminated) := by
  rcases hc : construct E s with ⟨t, _ | e⟩
  · simp [hc] at h
  · simp only [session, hc]

/-- What holds after joining holds to the end. -/
theorem session_after_join {I : State → Prop} (hdone : (construct E s).2 = none)
    (hleave : Preserves I (leaveMeshes E)) (hdown : Preserves I (tearDown E))
    (h : I (joinMeshes E (construct E s).1).1) : I (session E s).1 := by
  unfold session
  rcases hc : construct E s with ⟨t, _ | e⟩ <;> rw [hc] at h hdone
  · dsimp only
    rcases hj : joinMeshes E t with ⟨u, _ | e⟩ <;> rw [hj] at h
    · have hleft := hleave u h
      dsimp only
      split
      · exact h
      · rcases hl : leaveMeshes E u with ⟨v, _ | e⟩ <;> rw [hl] at hleft
        · exact hdown v hleft
        · cases e <;> first | exact hdown v hleft | exact hleft
    · cases e <;> first | exact hdown u h | exact h
  · cases hdone

/-- Where the destructor is reached, it starts from a state with what holds before it. -/
theorem exists_destroy {I : State → Prop} (hjoin : Preserves I (joinMeshes E))
    (hleave : Preserves I (leaveMeshes E)) (h : (construct E s).2 = none → I (construct E s).1)
    (hdestroyed : (session E s).2 = .destroyed) : ∃ t, I t ∧ session E s = destroy E t := by
  unfold session at hdestroyed ⊢
  rcases hc : construct E s with ⟨t, _ | e⟩ <;> rw [hc] at h hdestroyed
  · have hjoined := hjoin t (h rfl)
    dsimp only at hdestroyed ⊢
    rcases hj : joinMeshes E t with ⟨u, _ | e⟩ <;> rw [hj] at hjoined hdestroyed
    · have hleft := hleave u hjoined
      dsimp only at hdestroyed ⊢
      split at hdestroyed
      · cases hdestroyed
      next haddress =>
        rw [if_neg haddress]
        rcases hl : leaveMeshes E u with ⟨v, _ | e⟩ <;> rw [hl] at hleft hdestroyed
        · exact ⟨v, hleft, rfl⟩
        · cases e <;> first | exact ⟨v, hleft, rfl⟩ | cases hdestroyed
    · cases e <;> first | exact ⟨u, hjoined, rfl⟩ | cases hdestroyed
  · cases hdestroyed

/-- The destructor is reached, if joining and leaving end with a status and the address is known. -/
theorem session_destroyed {I : State → Prop} (hdone : (construct E s).2 = none)
    (hjoin : Preserves I (joinMeshes E)) (hleave : Preserves I (leaveMeshes E))
    (h : I (construct E s).1)
    (hthrows : Throws (fun e => ∃ code, e = .status code) (joinMeshes E) (construct E s).1)
    (haddress : ∀ t, I t → (meshAddress t).isSome = true) (hserves : E.serves = true)
    (hdown : ∀ t, I t → (tearDown E t).2 = none) : (session E s).2 = .destroyed := by
  have hdestroy {t : State} (ht : I t) : (destroy E t).2 = .destroyed := by
    simp [destroy, hdown t ht]
  unfold session
  rcases hc : construct E s with ⟨t, _ | e⟩
  · rw [hc] at h hthrows
    have hjoined := hjoin t h
    dsimp only
    rcases hj : joinMeshes E t with ⟨u, _ | e⟩
    · rw [hj] at hjoined
      have hleft := hleave u hjoined
      have hgo : ¬((meshAddress u).isNone || !E.serves) = true := by
        simp [hserves, Option.isNone_eq_false_iff.mpr (haddress u hjoined)]
      dsimp only
      rw [if_neg hgo]
      rcases hl : leaveMeshes E u with ⟨v, _ | e⟩
      · rw [hl] at hleft
        exact hdestroy hleft
      · obtain ⟨code, rfl⟩ := leaveMeshes_throws u e (by rw [hl])
        rw [hl] at hleft
        exact hdestroy hleft
    · obtain ⟨code, rfl⟩ := hthrows e (by rw [hj])
      rw [hj] at hjoined
      exact hdestroy hjoined
  · simp [hc] at hdone

/-- Whatever the kernel refuses, the handler keeps the interfaces with another name than its own.
If the constructor fails, nothing was changed or asked for. Otherwise the destructor is reached, if
what `initMesh` relies on is given where it is used, the address of the interface is known and the
rest of `main` does not end the process. If the destructor is reached and no request to delete an
interface was refused, no interface with the configured name is left, neither the one that was there
before nor the one that the handler created. -/
theorem session_leaves_no_interface (E : Environment) {s : State} (h : Initial s) :
    (session E s).1.interfaces.filter (·.1 ≠ E.flags.interfaceName) =
        s.interfaces.filter (·.1 ≠ E.flags.interfaceName) ∧
      ((construct E s).2.isSome = true → (session E s).2 = .terminated ∧
        (session E s).1.interfaces = s.interfaces ∧ (session E s).1.sent = []) ∧
      ((construct E s).2 = none →
        ((E.flags.userspaceMeshPeering || E.flags.enableEncryption) = true → Sound E s) →
        AddressKnown E s → E.serves = true → (session E s).2 = .destroyed) ∧
      ((session E s).2 = .destroyed →
        (∀ i error, (.delInterface i, error) ∈ (session E s).1.sent → error = 0) →
        (session E s).1.interfaces = s.interfaces.filter (·.1 ≠ E.flags.interfaceName)) := by
  cases hdone : (construct E s).2 with
  | some e =>
    have hsession := session_of_construct_isSome (E := E) (s := s) (by simp [hdone])
    rcases construct_cases (E := E) h.unused with ⟨netifs, e, heq⟩ | ⟨-, -, _, -, -, _, -, heq⟩
    · rw [hsession, heq]
      exact ⟨rfl, fun _ => ⟨rfl, rfl, h.sent⟩, nofun, nofun⟩
    · simp [heq] at hdone
  | none =>
    obtain ⟨hvalid, hname, hnamed, hbuilt, htidy⟩ := h.construct hdone
    have hstable : Stable E (fun _ => True) fun t => Named E t ∧
        Tidy E (s.interfaces.filter (·.1 ≠ E.flags.interfaceName)) t :=
      Named.stable.and Tidy.stable
    have hjoins := hstable.joinMeshes fun a h => ⟨h.1.request _, h.2.request rfl⟩
    refine ⟨?_, nofun, fun _ hsound hknown hserves => ?_, fun hdestroyed hdel => ?_⟩
    · exact (session_after_join hdone Tidy.stable.leaveMeshes Tidy.tearDown
        (Tidy.stable.joinMeshes (fun a h => h.request rfl) _ htidy)).others
    · have hall := hstable.and Addressed.stable
      refine session_destroyed hdone
        (hall.joinMeshes fun a h => ⟨⟨h.1.1.request _, h.1.2.request rfl⟩, h.2.request _⟩)
        hall.leaveMeshes ⟨⟨hnamed, htidy⟩, h.addressed hdone hknown⟩ ?_
        (fun t ht => meshAddress_isSome ht.1.1 ht.2) hserves fun t ht =>
          tearDown_eq_none hname ht.1.2
      refine joinMeshes_throws (hbuilt.phys ▸ h.phys) fun n hn hused hon => ?_
      refine (hsound ?_).fits hvalid hbuilt hn hused
      rcases hbuilt.used n hn with hnone | ⟨hflags, -⟩
      · simp [NetInterface.isValid, hnone] at hused
      · rwa [hflags.isEncrypted] at hon
    · obtain ⟨t, ⟨hnamed, htidy⟩, hsession⟩ :=
        exists_destroy hjoins hstable.leaveMeshes (fun _ => ⟨hnamed, htidy⟩) hdestroyed
      have hothers := (Tidy.tearDown t htidy).others
      rw [hsession] at hdel ⊢
      rw [← hothers, eq_comm]
      refine List.filter_eq_self.mpr fun i hi => ?_
      simpa using gone_tearDown hname htidy hnamed hdel i hi

/-- An environment with these flags, whose kernel gives the answers `answers`, a conflict of names
apart. -/
def sampleEnvironment (flags : HandlerFlags) (answers : Request → ℤ) : Environment where
  S := authsaeSizes
  flags
  parseMac _ := .error []
  reply _ interfaces r :=
    match r with
    | .newInterface _ ifName _ => if interfaces.any (·.1 = ifName) then -23 else answers r
    | _ => answers r
  reply_conflict {_ interfaces _ ifName _} h := by
    have hany : interfaces.any (·.1 = ifName) = true := by
      obtain ⟨i, hi, hname⟩ := List.mem_map.mp h
      exact List.any_eq_true.mpr ⟨i, hi, by simpa using hname⟩
    simp [hany]
  newIndex interfaces := (interfaces.map Prod.snd).foldr max 0 + 1
  newIndex_fresh interfaces := by
    have hle (l : List ℕ) : ∀ i ∈ l, i ≤ l.foldr max 0 := by
      induction l with
      | nil => simp
      | cons j l ih =>
        intro i hi
        rcases List.mem_cons.mp hi with rfl | hi
        · exact le_max_left _ _
        · exact (ih i hi).trans (le_max_right _ _)
    intro hmem
    exact absurd (hle _ _ hmem) (by omega)
  newAddress _ := 0x02
  spawns := true
  rtnlFailure _ := none
  authsae := ⟨fun _ _ => 1, fun _ => 0⟩
  igtkKeyid := 4
  igtkTx := List.replicate 16 7
  mgtkTx := List.replicate 16 9
  keyLength _ := 16
  serves := true

/-- An interface that is given the configuration. -/
def matchingPhy (flags : HandlerFlags) : NetInterface where
  phyIndex := 0
  isMeshCapable := true
  frequencies := [flags.meshFrequency.toUInt32]
  encryptionDebug := 0
  maxPeerLinks := 0
  ttl := 0
  elementTtl := 0
  hwmpActivePathTimeout := 0
  hwmpRannInterval := 0

/-- One radio for the default flags, and a left-over interface with the configured name. -/
def startWithLeftOver : State where
  netifs := [{ toNetInterface := matchingPhy {}, rates5GHz := [60, 120, 240] }]
  interfaces := [(ascii "lo", 1), (ascii "mesh0", 4)]

/-- A session may start from this state. -/
theorem initial_startWithLeftOver : Initial startWithLeftOver where
  unused := by simp [startWithLeftOver, matchingPhy]
  phys := by decide
  names := by decide
  indices := by decide
  sent := rfl
  calls := rfl

private theorem sound_startWithLeftOver :
    Sound (sampleEnvironment {} fun _ => 0) startWithLeftOver where
  password := by decide
  groups groups h := by
    have hgroups : parseCsvFlag stoi (ascii "19") = .ok [19] := by rfl
    rw [← Except.ok.inj (hgroups.symm.trans h)]
    decide
  rates n hn _ := by
    obtain rfl := List.mem_singleton.mp hn
    decide

/-- The left-over interface is deleted with the one that takes its place. -/
theorem session_deletes_left_over :
    (session (sampleEnvironment {} fun _ => 0) startWithLeftOver).2 = .destroyed ∧
      (session (sampleEnvironment {} fun _ => 0) startWithLeftOver).1.interfaces =
        [(ascii "lo", 1)] := by
  obtain ⟨-, -, hreached, hleaves⟩ :=
    session_leaves_no_interface (sampleEnvironment {} fun _ => 0) initial_startWithLeftOver
  have hpassed : Passed (construct (sampleEnvironment {} fun _ => 0) startWithLeftOver).1 := by
    unfold Passed
    decide +kernel
  have haccepted : ∀ x ∈ (session (sampleEnvironment {} fun _ => 0) startWithLeftOver).1.sent,
      x.2 = 0 := by decide +kernel
  have hdestroyed := hreached (by decide +kernel) (fun _ => sound_startWithLeftOver)
    (.inr ⟨hpassed, .inr rfl⟩) rfl
  refine ⟨hdestroyed, ?_⟩
  rw [hleaves hdestroyed fun i error hi => haccepted _ hi]
  decide

end Nl80211Handler

end Fbmeshd
