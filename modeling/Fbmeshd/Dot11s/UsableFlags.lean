import Fbmeshd.Dot11s.HandlerJoins

/-!
# Flags that are accepted and cannot be used

The constructor checks the flags before it applies them. What it does not check shows later: when
they are applied, or when `initMesh` copies them into the arrays of authsae.

## Main results

* `usable_iff`: the accepted flags that can be used, whatever the kernel, the radios and authsae do.
-/

namespace Fbmeshd

namespace Nl80211Handler

open Fallible

/-- Whatever the radios are and however the kernel and authsae answer, applying the flags does not
throw `std::invalid_argument`, and the calls that copy them are safe. -/
def Usable (S : AuthsaeSizes) (flags : HandlerFlags)
    (parseMac : List UInt8 → Except (List UInt8) MacAddress) : Prop :=
  ∀ (E : Environment) (s : State), E.S = S → E.flags = flags → E.parseMac = parseMac → Initial s →
    (∀ what, (applyConfiguration E s).2 ≠ some (.exception (.invalidArgument what))) ∧
      ((construct E s).2 = none → ∀ c ∈ (joinMeshes E (construct E s).1).1.calls, c.Safe S)

/-- What `validateConfiguration` does not check: that the channel type is known, that groups and
address can be read, and without encryption that password and groups fit. An interface without a
name is not created, so that nothing is copied for it. -/
structure Consistent (S : AuthsaeSizes) (flags : HandlerFlags)
    (parseMac : List UInt8 → Except (List UInt8) MacAddress) : Prop where
  channelType : flags.meshChannelType ∈ channelTypes
  groups : ∀ what,
    parseCsvFlag stoi flags.encryptionSaeGroups ≠ .error (.invalidArgument what)
  macAddress : ∀ groups, parseCsvFlag stoi flags.encryptionSaeGroups = .ok groups →
    flags.meshMacAddress ≠ [] → ∃ mac, parseMac flags.meshMacAddress = .ok mac
  lengths : ∀ groups, parseCsvFlag stoi flags.encryptionSaeGroups = .ok groups →
    flags.interfaceName ≠ [] → flags.userspaceMeshPeering = true →
      flags.encryptionPassword.length < S.SAE_MAX_PASSWORD_LEN ∧
        groups.length ≤ S.SAE_MAX_EC_GROUPS

variable {E : Environment} {s : State}

/-! ### Consistent flags can be used -/

/-- The flags are applied without an `std::invalid_argument`, if they can be read. -/
theorem applyConfiguration_invalidArgument (hunused : ∀ n ∈ s.netifs, n.maybeIfName = none)
    {what : List UInt8}
    (h : (applyConfiguration E s).2 = some (.exception (.invalidArgument what))) :
    ∃ netif ∈ s.netifs,
      configure E.flags E.parseMac netif.toNetInterface = .error (.invalidArgument what) := by
  unfold applyConfiguration at h
  cases hfind : s.netifs.find? (!·.isSkipped E.flags) with
  | none =>
    rw [hfind] at h
    dsimp only at h
    rw [andThen_of_none (by rw [tearDown_of_unused hunused])] at h
    cases h
  | some netif =>
    rw [hfind] at h
    dsimp only at h
    refine ⟨netif, List.mem_of_find?_eq_some hfind, ?_⟩
    cases hconfigured : configure E.flags E.parseMac netif.toNetInterface with
    | error e =>
      simp only [useInterface, hconfigured, fail, Option.some.injEq, Failure.exception.injEq] at h
      rw [h]
    | ok configured =>
      rcases useInterface_cases hconfigured s with ⟨-, huse⟩ | ⟨-, huse⟩ <;> rw [huse] at h <;>
        cases h

/-- Consistent flags can be read. -/
theorem Consistent.configure_ne (h : Consistent E.S E.flags E.parseMac) {netif : NetInterface}
    {what : List UInt8} :
    configure E.flags E.parseMac netif ≠ .error (.invalidArgument what) := by
  rw [ne_eq, configure_eq_error_iff]
  rintro (hchannel | ⟨-, hgroups | ⟨⟨groups, hgroups⟩, hmac⟩⟩)
  · obtain ⟨width, hwidth⟩ := channelWidthOf_eq_ok_iff.mpr h.channelType
    simp [hwidth] at hchannel
  · exact h.groups what hgroups
  · obtain ⟨hne, what', herror, -⟩ := readMacAddress_eq_error_iff.mp hmac
    obtain ⟨mac, hok⟩ := h.macAddress groups hgroups hne
    simp [hok] at herror

/-- An interface with the flags is copied safely, if password and groups fit. -/
theorem safe_of_fromFlags {S : AuthsaeSizes} {flags : HandlerFlags}
    (hvalid : validateConfiguration S flags = .ok ()) {c : ConfigCall}
    (h : FromFlags flags c.netif)
    (hlengths : flags.encryptionPassword.length < S.SAE_MAX_PASSWORD_LEN ∧
      c.netif.encryptionSaeGroups.length ≤ S.SAE_MAX_EC_GROUPS) : c.Safe S := by
  obtain ⟨hid, hname, -⟩ := validateConfiguration_ok hvalid
  cases c with
  | createSaeConfig netif =>
    rw [safe_createSaeConfig_iff]
    exact h.password ▸ hlengths
  | createMeshConfig netif =>
    have hmeshId : netif.meshId = flags.meshId := h.meshId
    refine within_createMeshConfig h.ifName ?_ (hname.trans S.interface_fits)
    rw [hmeshId]
    exact hid.trans S.meshid_fits

variable {S : AuthsaeSizes} {flags : HandlerFlags}
  {parseMac : List UInt8 → Except (List UInt8) MacAddress}

/-- What is consistent can be used. -/
theorem Consistent.usable (hvalid : validateConfiguration S flags = .ok ())
    (h : Consistent S flags parseMac) : Usable S flags parseMac := by
  rintro E s rfl rfl rfl hinitial
  refine ⟨fun what herror => ?_, fun hdone c hc => ?_⟩
  · obtain ⟨netif, -, herror⟩ := applyConfiguration_invalidArgument hinitial.unused herror
    exact h.configure_ne herror
  · obtain ⟨-, hname, -, hbuilt, -⟩ := hinitial.construct hdone
    obtain ⟨netif, hmem, hused, hon, hcall⟩ := (hinitial.joins hdone).calls c hc
    rcases hbuilt.used netif hmem with hnone | ⟨hflags, -⟩
    · simp [NetInterface.isValid, hnone] at hused
    rw [← hcall] at hflags
    refine safe_of_fromFlags hvalid hflags ?_
    have henc : netif.isEncrypted = E.flags.enableEncryption := hcall ▸ hflags.isEncrypted
    rw [henc, Bool.or_eq_true] at hon
    rcases hon with huser | hencrypted
    · exact h.lengths _ hflags.groups hname huser
    · obtain ⟨hlen, groups, hparsed, hcount⟩ := (validateConfiguration_ok hvalid).2.2 hencrypted
      rw [Except.ok.inj (hflags.groups.symm.trans hparsed)]
      exact ⟨hlen, hcount⟩

/-! ### Flags that can be used are consistent -/

/-- The interface can be created and its link be set. -/
structure Obliging (E : Environment) : Prop where
  newInterface : ∀ log wiphy ifName mac, E.reply log [] (.newInterface wiphy ifName mac) = 0
  changeLink : ∀ log interfaces i up, E.reply log interfaces (.changeLink i up) = 0
  spawns : E.spawns = true
  rtnl : ∀ log, E.rtnlFailure log = none

/-- A radio for the flags. -/
def matchingRadio (flags : HandlerFlags) : Netif where
  toNetInterface := matchingPhy flags

/-- One radio, and no interface. -/
def matchingStart (flags : HandlerFlags) : State where
  netifs := [matchingRadio flags]
  interfaces := []

/-- The handler may start like this. -/
theorem initial_matchingStart (flags : HandlerFlags) : Initial (matchingStart flags) where
  unused := by simp [matchingStart, matchingRadio, matchingPhy]
  phys := List.nodup_singleton _
  names := .nil
  indices := .nil
  sent := rfl
  calls := rfl

/-- The radio is used. -/
theorem applyConfiguration_matchingStart (E : Environment) :
    applyConfiguration E (matchingStart E.flags) =
      useInterface E (matchingRadio E.flags) (matchingStart E.flags) := by
  have hused : (matchingRadio E.flags).isSkipped E.flags = false := by
    simp [NetInterface.isSkipped, NetInterface.isFrequencySupported, matchingRadio, matchingPhy]
  have hfind : (matchingStart E.flags).netifs.find? (!·.isSkipped E.flags) =
      some (matchingRadio E.flags) := List.find?_cons_of_pos (by simp [hused])
  rw [applyConfiguration, hfind]

/-- A request that the kernel accepts. -/
theorem request_of_answer {r : Request} (h : s.answer E r = 0) :
    s.request E r = { s.accept E r with sent := s.sent ++ [(r, 0)] } := by
  rw [State.request, h, if_pos rfl]

/-- The kernel creates the interface, and its address is taken over. -/
theorem createInterface_of_answer {netif : Netif} (hused : netif.isValid = true)
    (hspawns : E.spawns = true)
    (h : s.answer E (.newInterface netif.phyIndex (netif.maybeIfName.getD [])
      netif.maybeMacAddress) = 0) :
    createInterface E netif s =
      ((s.request E (.newInterface netif.phyIndex (netif.maybeIfName.getD [])
        netif.maybeMacAddress)).update netif.phyIndex fun n =>
          { n with maybeMacAddress := some (E.newAddress s.sent) }, none) := by
  have hmtu : setMtu E = skip := if_neg fun h => by simp [hspawns] at h
  simp only [createInterface, hused, Bool.not_true, Bool.false_eq_true, if_false, hmtu]
  rw [andThen_of_none (if_pos (by rw [h]; rfl))]
  rfl

/-- The interface is created, if the flags can be read. -/
theorem construct_matchingStart (hE : Obliging E)
    (hvalid : validateConfiguration E.S E.flags = .ok ()) (hname : E.flags.interfaceName ≠ [])
    {configured : NetInterface}
    (hconf : configure E.flags E.parseMac (matchingRadio E.flags).toNetInterface =
      .ok configured) :
    ∃ n : Netif, n.isValid = true ∧ FromFlags E.flags n.toNetInterface ∧
      (construct E (matchingStart E.flags)).2 = none ∧
      (construct E (matchingStart E.flags)).1.netifs = [n] ∧
      ∃ i, (construct E (matchingStart E.flags)).1.interfaces = [(E.flags.interfaceName, i)] := by
  obtain ⟨hflags, hphy, hcapable, -⟩ := configure_ok hconf
  let netif : Netif := { matchingRadio E.flags with toNetInterface := configured }
  let t : State := (matchingStart E.flags).update netif.phyIndex fun _ => netif
  have hused : netif.isValid = true := by
    simp [netif, NetInterface.isValid, hflags.ifName, hcapable, matchingRadio, matchingPhy]
  have ht : t.netifs = [netif] := by
    have hsame : (matchingRadio E.flags).phyIndex = netif.phyIndex := hphy.symm
    simp only [t, State.update, matchingStart, List.map_cons, List.map_nil, if_pos hsame]
  have hanswer : t.answer E (.newInterface netif.phyIndex (netif.maybeIfName.getD [])
      netif.maybeMacAddress) = 0 := hE.newInterface ..
  have hconstruct :
      construct E (matchingStart E.flags) = ((createInterface E netif t).1, none) := by
    have hdelete : deleteInterface E E.flags.interfaceName t = (t, none) :=
      deleteInterface_eq hname t
    rcases useInterface_cases hconf (matchingStart E.flags) with ⟨hempty, -⟩ | ⟨-, huse⟩
    · exact absurd hempty hname
    · rw [construct, hvalid]
      dsimp only
      rw [applyConfiguration_matchingStart, huse, andThen_of_none (by rw [hdelete]), hdelete]
  refine ⟨{ netif with maybeMacAddress := some (E.newAddress []) }, hused,
    hflags.withMacAddress _, by rw [hconstruct], ?_, E.newIndex [], ?_⟩
  · rw [hconstruct, createInterface_of_answer hused hE.spawns hanswer]
    simp only [State.update, netifs_request, ht, List.map_cons, List.map_nil, if_true]
    rfl
  · rw [hconstruct, createInterface_of_answer hused hE.spawns hanswer, request_of_answer hanswer]
    have hifName : netif.maybeIfName = some E.flags.interfaceName := hflags.ifName
    simp only [State.update, State.accept, hifName, Option.getD_some]
    rfl

/-- What is copied stays in the record. -/
theorem stable_mem_calls (c : ConfigCall) : Stable E (fun _ => True) fun s => c ∈ s.calls where
  request r _ h := by
    rw [calls_request]
    exact h
  rate _ h := h
  call _ _ h := List.mem_append_left _ h
  index _ _ h := h

/-- With userspace peering, `initMesh` copies the configuration. -/
theorem createSaeConfig_mem_calls {n : Netif} (huser : E.flags.userspaceMeshPeering = true)
    (s : State) : .createSaeConfig n.toNetInterface ∈ (initMesh E n s).1.calls := by
  have hon : (E.flags.userspaceMeshPeering || n.isEncrypted) = true := by simp [huser]
  have hmem : ConfigCall.createSaeConfig n.toNetInterface ∈
      s.calls ++ [ConfigCall.createSaeConfig n.toNetInterface] :=
    List.mem_append_right _ (List.mem_singleton_self _)
  obtain ⟨saeConfig, hsae, -⟩ := exists_createSaeConfig E.S n.toNetInterface
  rw [initMesh, if_pos hon, initAuthsae, copying, andThen_modify, hsae]
  split
  · dsimp only
    split
    · exact hmem
    · have hstable := stable_mem_calls (E := E) (.createSaeConfig n.toNetInterface)
      exact hstable.copying trivial (hstable.initAmpe n) _ hmem
  · exact hmem

/-- An interface of the kernel is joined up to the copies. -/
theorem exists_createSaeConfig_call (hE : Obliging E) (huser : E.flags.userspaceMeshPeering = true)
    {n : Netif} (hused : n.isValid = true) {ifName : List UInt8} {i : ℕ}
    (hname : n.maybeIfName = some ifName) (hnetifs : s.netifs = [n])
    (hinterfaces : s.interfaces = [(ifName, i)]) :
    .createSaeConfig n.toNetInterface ∈ (joinMeshes E s).1.calls := by
  have hup : (setLinkFlags E true n s).2 = none := by
    simp [setLinkFlags, hname, hE.rtnl, rtnlLinkGetKernel, hinterfaces, andThen_modify,
      rtnlLinkChange, State.answer, hE.changeLink]
  have hkept : Kept [n] (setLinkFlags E true n s).1 :=
    (Kept.stable (P := fun _ => True)).setLinkFlags true n s (by rw [Kept, hnetifs])
  have hjoin : (joinMeshes E s).1 = (andThen (withNetif n.phyIndex (initMesh E))
      (withNetif n.phyIndex (joinMesh E)) (setLinkFlags E true n s).1).1 := by
    rw [joinMeshes, hnetifs, forEach, forEach, andThen_done, joinNetif, if_pos hused,
      andThen_of_none hup]
    rfl
  rw [hjoin]
  generalize (setLinkFlags E true n s).1 = t at hkept
  obtain ⟨n', hn', hcore⟩ : ∃ n' ∈ t.netifs, n'.core = n.core :=
    List.mem_map.mp (hkept ▸ List.mem_singleton_self _)
  have hstable := stable_mem_calls (E := E) (.createSaeConfig n.toNetInterface)
  have hinit : .createSaeConfig n.toNetInterface ∈
      (withNetif n.phyIndex (initMesh E) t).1.calls := by
    rcases withNetif_cases n.phyIndex (initMesh E) t with ⟨hnone, -⟩ | ⟨m, hm, hphy, heq⟩
    · exact absurd (congrArg (·.phyIndex) hcore) (hnone n' hn')
    · have hphys : ([n].map (·.phyIndex)).Nodup := List.nodup_singleton _
      have hsame : m.toNetInterface = n.toNetInterface :=
        congrArg (·.toNetInterface) (hkept.core_eq hphys (List.mem_singleton_self n) hm hphy)
      rw [heq, ← hsame]
      exact createSaeConfig_mem_calls huser t
  have hjoined : Preserves (fun s => ConfigCall.createSaeConfig n.toNetInterface ∈ s.calls)
      (withNetif n.phyIndex (joinMesh E)) := by
    refine preserves_withNetif (fun m => preserves_withIfIndex (fun _ s h => ?_) m) _
    change _ ∈ (s.request E _).calls
    rwa [calls_request]
  cases hres : (withNetif n.phyIndex (initMesh E) t).2 with
  | none =>
    rw [andThen_of_none hres]
    exact hjoined _ hinit
  | some e =>
    rw [andThen_of_some hres]
    exact hinit

/-- Flags that cannot be read are reported. -/
theorem applyConfiguration_of_error {e : StdException}
    (h : configure E.flags E.parseMac (matchingPhy E.flags) = .error e) :
    (applyConfiguration E (matchingStart E.flags)).2 = some (.exception e) := by
  rw [applyConfiguration_matchingStart]
  simp only [useInterface, matchingRadio, h, fail]

/-- What can be used is consistent. -/
theorem Usable.consistent (hvalid : validateConfiguration S flags = .ok ())
    (h : Usable S flags parseMac) : Consistent S flags parseMac := by
  let E : Environment := { sampleEnvironment flags fun _ => 0 with S, parseMac }
  have hE : Obliging E := ⟨fun _ _ _ _ => rfl, fun _ _ _ _ => rfl, rfl, fun _ => rfl⟩
  obtain ⟨hinvalid, hsafe⟩ := h E (matchingStart flags) rfl rfl rfl (initial_matchingStart flags)
  have hread {what : List UInt8} :
      configure flags parseMac (matchingPhy flags) ≠ .error (.invalidArgument what) :=
    fun herror => hinvalid what (applyConfiguration_of_error (E := E) herror)
  have hchannel : flags.meshChannelType ∈ channelTypes := by
    by_contra hnot
    obtain ⟨what, herror⟩ := channelWidthOf_of_notMem hnot
    exact hread (configure_eq_error_iff.mpr (.inl herror))
  have hmac {groups : List ℤ} (hgroups : parseCsvFlag stoi flags.encryptionSaeGroups = .ok groups)
      {e : StdException} :
      readMacAddress flags parseMac (matchingPhy flags).maybeMacAddress ≠ .error e := by
    intro herror
    obtain ⟨-, what, -, rfl⟩ := readMacAddress_eq_error_iff.mp herror
    exact hread (configure_eq_error_iff.mpr (.inr ⟨hchannel, .inr ⟨⟨groups, hgroups⟩, herror⟩⟩))
  refine ⟨hchannel, fun what herror => ?_, fun groups hgroups hne => ?_,
    fun groups hgroups hname huser => ?_⟩
  · exact hread (configure_eq_error_iff.mpr (.inr ⟨hchannel, .inl herror⟩))
  · cases hp : parseMac flags.meshMacAddress with
    | ok mac => exact ⟨mac, rfl⟩
    | error what =>
      exact absurd (readMacAddress_eq_error_iff.mpr ⟨hne, what, hp, rfl⟩) (hmac hgroups)
  · cases hconf : configure flags parseMac (matchingPhy flags) with
    | error e =>
      rcases configure_eq_error_iff.mp hconf with herror | ⟨-, herror | ⟨-, herror⟩⟩
      · obtain ⟨width, hwidth⟩ := channelWidthOf_eq_ok_iff.mpr hchannel
        simp [hwidth] at herror
      · simp [hgroups] at herror
      · exact absurd herror (hmac hgroups)
    | ok configured =>
      obtain ⟨n, hused, hflags, hdone, hnetifs, i, hinterfaces⟩ :=
        construct_matchingStart hE hvalid hname hconf
      have hcall := exists_createSaeConfig_call hE huser hused hflags.ifName hnetifs hinterfaces
      have hlengths := safe_createSaeConfig_iff.mp (hsafe hdone _ hcall)
      rw [hflags.password, ← Except.ok.inj (hgroups.symm.trans hflags.groups)] at hlengths
      exact hlengths

/-- Accepted flags are usable exactly if they are consistent in what is not checked. -/
theorem usable_iff (hvalid : validateConfiguration S flags = .ok ()) :
    Usable S flags parseMac ↔ Consistent S flags parseMac :=
  ⟨Usable.consistent hvalid, Consistent.usable hvalid⟩

/-- The default flags are accepted and can be used. -/
theorem default_flags_usable :
    validateConfiguration authsaeSizes {} = .ok () ∧
      Usable authsaeSizes {} (fun _ => .error []) := by
  have hvalid : validateConfiguration authsaeSizes {} = .ok () := rfl
  have hgroups : parseCsvFlag stoi (ascii "19") = .ok [19] := by rfl
  refine ⟨hvalid, (usable_iff hvalid).mpr ⟨by decide, ?_, ?_, ?_⟩⟩
  · intro what h
    simp [hgroups] at h
  · intro groups _ hne
    exact absurd rfl hne
  · intro groups h _ _
    rw [← Except.ok.inj (hgroups.symm.trans h)]
    decide

/-- A password of 81 bytes and 11 groups, for a mesh without encryption. -/
def longFlags : HandlerFlags where
  encryptionPassword := List.replicate 81 97
  encryptionSaeGroups := ascii "19,20,21,25,26,27,28,29,30,31,32"

/-- An unknown channel type is accepted, and so are a password and groups that are copied beyond
their arrays. -/
theorem accepted_flags_unusable :
    let mistyped : HandlerFlags := { meshChannelType := ascii "HT40" }
    let E := sampleEnvironment longFlags fun _ => 0
    validateConfiguration authsaeSizes mistyped = .ok () ∧
      (applyConfiguration (sampleEnvironment mistyped fun _ => 0) (matchingStart mistyped)).2 =
        some (.exception (.invalidArgument (ascii "Invalid channel type HT40 in config"))) ∧
      validateConfiguration authsaeSizes longFlags = .ok () ∧
      ((joinMeshes E (construct E (matchingStart longFlags)).1).1.calls.flatMap
          (ConfigCall.writes authsaeSizes)).filter (fun w => authsaeSizes.size w.region < w.stop) =
        [⟨.group, 40, 4⟩, ⟨.pwd, 0, 81⟩] :=
  ⟨rfl, by decide +kernel, rfl, by decide +kernel⟩

end Nl80211Handler

end Fbmeshd
