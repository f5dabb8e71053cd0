import Fbmeshd.Lib.Except
import Fbmeshd.Routing.MeshPath

/-!
# The configuration of the mesh interface

`Nl80211Handler` is given its configuration by flags. The constructor checks them in
`validateConfiguration` and writes them into the first interface that can be used. A text is the
bytes of a `std::string`.
-/

namespace Fbmeshd

/-- The bytes of a literal. -/
def ascii (s : String) : List UInt8 := s.toList.map fun c => .ofNat c.toNat

/-- The exceptions that the functions below throw, with the message. -/
inductive StdException where
  | invalidArgument (what : List UInt8)
  | outOfRange (what : List UInt8)
  | runtimeError (what : List UInt8)
  deriving DecidableEq

/-! ### Lists of numbers -/

/-- `isspace` in the C locale. -/
def isSpace (b : UInt8) : Bool := b == 32 || (9 ≤ b && b ≤ 13)

/-- `isdigit`. -/
def isDigit (b : UInt8) : Bool := 48 ≤ b && b ≤ 57

/-- The sign in front of a number, and what follows it. -/
def readSign : List UInt8 → ℤ × List UInt8
  | 45 :: s => (-1, s)
  | 43 :: s => (1, s)
  | s => (1, s)

/-- `std::stoi` in base ten. What follows the digits is ignored. -/
def stoi (s : List UInt8) : Except StdException ℤ :=
  let (sign, s) := readSign (s.dropWhile isSpace)
  match s.takeWhile isDigit with
  | [] => .error (.invalidArgument (ascii "stoi"))
  | digits =>
    let n := sign * (digits.foldl (fun n b => 10 * n + (b.toNat - 48)) 0 : ℕ)
    if Int32.minValue.toInt ≤ n ∧ n ≤ Int32.maxValue.toInt then .ok n
    else .error (.outOfRange (ascii "stoi"))

/-- `parseCsvFlag`. -/
def parseCsvFlag {α : Type} (processFunc : List UInt8 → Except StdException α)
    (csvString : List UInt8) : Except StdException (List α) :=
  if csvString = [] then .ok [] else (csvString.splitOn 44).mapM processFunc

/-! ### Checking the flags -/

/-- The limits of authsae and of the kernel, and the sizes of the arrays for names. -/
structure AuthsaeSizes where
  MESHD_MAX_SSID_LEN : ℕ
  IFNAMSIZ : ℕ
  SAE_MAX_PASSWORD_LEN : ℕ
  SAE_MAX_EC_GROUPS : ℕ
  meshidSize : ℕ
  interfaceSize : ℕ
  /-- `sizeof(mconf->rates)`. -/
  ratesSize : ℕ
  password_pos : 0 < SAE_MAX_PASSWORD_LEN
  meshid_fits : MESHD_MAX_SSID_LEN ≤ meshidSize
  interface_fits : IFNAMSIZ ≤ interfaceSize

/-- The flags with their defaults. The last two are handed to the constructor by `main`. -/
structure HandlerFlags where
  meshId : List UInt8 := ascii "mesh-soma"
  meshChannelType : List UInt8 := ascii "40"
  meshFrequency : Int32 := 5805
  meshCenterFreq1 : Int32 := 5795
  meshCenterFreq2 : Int32 := 0
  enableEncryption : Bool := false
  encryptionPassword : List UInt8 := []
  encryptionSaeGroups : List UInt8 := ascii "19"
  userspacePeeringVerbosity : Int32 := 0
  meshRssiThreshold : Int32 := -80
  meshMacAddress : List UInt8 := []
  meshTtl : UInt32 := 31
  meshTtlElement : UInt32 := 31
  meshMaxPeerLinks : UInt32 := 32
  meshHwmpActivePathTimeout : UInt32 := 30000
  meshHwmpRannInterval : UInt32 := 3000
  meshMtu : UInt32 := 1520
  interfaceName : List UInt8 := ascii "mesh0"
  userspaceMeshPeering : Bool := true

/-- Throw if the check fails. -/
def reject (failed : Prop) [Decidable failed] (what : String) : Except StdException Unit :=
  if failed then .error (.invalidArgument (ascii what)) else .ok ()

variable (S : AuthsaeSizes) (flags : HandlerFlags)

/-- `validateConfiguration`. -/
def validateConfiguration : Except StdException Unit := do
  reject (flags.meshId.length > S.MESHD_MAX_SSID_LEN) "Mesh ID is too long"
  reject (flags.interfaceName.length > S.IFNAMSIZ) "Interface name is too long"
  -- no text is equal to all of these
  reject (flags.meshChannelType = ascii "160" ∧ flags.meshChannelType = ascii "80+80" ∧
    flags.meshChannelType = ascii "80" ∧ flags.meshChannelType = ascii "40" ∧
    flags.meshChannelType = ascii "20" ∧ flags.meshChannelType = ascii "NOHT")
    "Invalid channel type"
  reject (flags.meshMaxPeerLinks > 255) "Max peer links is outside of valid range"
  reject (flags.meshTtl < 1 ∨ flags.meshTtl > 255) "TTL is outside of valid range"
  reject (flags.meshTtlElement < 1 ∨ flags.meshTtlElement > 255)
    "Element TTL is outside of valid range"
  if flags.enableEncryption then
    reject (flags.encryptionPassword.length > S.SAE_MAX_PASSWORD_LEN - 1) "Password is too long"
    let saeGroups ← parseCsvFlag stoi flags.encryptionSaeGroups
    reject (saeGroups.length > S.SAE_MAX_EC_GROUPS) "Too many SAE finite cyclic groups"

/-! ### Applying the flags -/

/-- `nl80211_chan_width`. -/
inductive ChannelWidth where
  | width20NoHt
  | width20
  | width40
  | width80
  | width80P80
  | width160
  deriving DecidableEq

/-- `NetInterface`, without the configuration for authsae. -/
structure NetInterface where
  phyIndex : ℕ
  isMeshCapable : Bool
  frequencies : List UInt32
  maybeIfName : Option (List UInt8) := none
  meshId : List UInt8 := []
  frequency : Int32 := 0
  centerFreq1 : Int32 := 0
  centerFreq2 : Int32 := 0
  channelWidth : ChannelWidth := .width20
  maybeMacAddress : Option MacAddress := none
  isEncrypted : Bool := false
  encryptionPassword : List UInt8 := []
  encryptionSaeGroups : List ℤ := []
  encryptionDebug : Int32
  maxPeerLinks : UInt16
  maybeRssiThreshold : Option Int32 := none
  ttl : UInt8
  elementTtl : UInt8
  hwmpActivePathTimeout : UInt32
  hwmpRannInterval : UInt32

namespace NetInterface

/-- `isFrequencySupported`. -/
def isFrequencySupported (netif : NetInterface) (freq : UInt32) : Bool :=
  netif.frequencies.contains freq

/-- `isValid`. -/
def isValid (netif : NetInterface) : Bool := netif.maybeIfName.isSome && netif.isMeshCapable

end NetInterface

/-- The comparisons with the channel types. -/
def channelWidthOf (channelType : List UInt8) : Except StdException ChannelWidth :=
  if channelType = ascii "160" then .ok .width160
  else if channelType = ascii "80+80" then .ok .width80P80
  else if channelType = ascii "80" then .ok .width80
  else if channelType = ascii "40" then .ok .width40
  else if channelType = ascii "20" then .ok .width20
  else if channelType = ascii "NOHT" then .ok .width20NoHt
  else .error (.invalidArgument
    (ascii "Invalid channel type " ++ channelType ++ ascii " in config"))

/-- The interface is skipped. -/
def NetInterface.isSkipped (netif : NetInterface) : Bool :=
  !netif.isMeshCapable || !netif.isFrequencySupported flags.meshFrequency.toUInt32 ||
    netif.maybeIfName.isSome

variable (parseMac : List UInt8 → Except (List UInt8) MacAddress)

/-- The address of the flag, if there is one. How `folly` reads a text is a parameter. -/
def readMacAddress (old : Option MacAddress) : Except StdException (Option MacAddress) :=
  if flags.meshMacAddress = [] then .ok old
  else ((parseMac flags.meshMacAddress).mapError .invalidArgument).map some

/-- The loop body of `applyConfiguration` for an interface that is not skipped, up to the creation
of the interface. -/
def configure (netif : NetInterface) : Except StdException NetInterface := do
  let channelWidth ← channelWidthOf flags.meshChannelType
  let encryptionSaeGroups ← parseCsvFlag stoi flags.encryptionSaeGroups
  let maybeMacAddress ← readMacAddress flags parseMac netif.maybeMacAddress
  return { netif with
    meshId := flags.meshId
    maybeIfName := some flags.interfaceName
    frequency := flags.meshFrequency
    centerFreq1 := flags.meshCenterFreq1
    centerFreq2 := flags.meshCenterFreq2
    channelWidth
    isEncrypted := flags.enableEncryption
    encryptionPassword := flags.encryptionPassword
    encryptionSaeGroups
    encryptionDebug := flags.userspacePeeringVerbosity
    maybeRssiThreshold := some flags.meshRssiThreshold
    maybeMacAddress
    ttl := flags.meshTtl.toUInt8
    elementTtl := flags.meshTtlElement.toUInt8
    hwmpActivePathTimeout := flags.meshHwmpActivePathTimeout
    hwmpRannInterval := flags.meshHwmpRannInterval
    maxPeerLinks := flags.meshMaxPeerLinks.toUInt16 }

/-! ### What the functions check -/

section Spec

variable {S} {flags} {parseMac}

/-- A check that is passed. -/
theorem reject_eq_ok_iff {failed : Prop} [Decidable failed] {what : String} {u : Unit} :
    reject failed what = .ok u ↔ ¬failed := by
  unfold reject
  split <;> simp [*]

/-- A check at the start. -/
theorem reject_bind_eq_ok_iff {α : Type} {failed : Prop} [Decidable failed] {what : String}
    {f : Unit → Except StdException α} {a : α} :
    (reject failed what >>= f) = .ok a ↔ ¬failed ∧ f () = .ok a := by
  rw [Except.bind_eq_ok_iff]
  simp only [reject_eq_ok_iff]
  exact ⟨fun ⟨_, h⟩ => h, fun h => ⟨(), h⟩⟩

/-- What the accepted flags are known to satisfy. -/
theorem validateConfiguration_ok (h : validateConfiguration S flags = .ok ()) :
    flags.meshId.length ≤ S.MESHD_MAX_SSID_LEN ∧ flags.interfaceName.length ≤ S.IFNAMSIZ ∧
      (flags.enableEncryption = true →
        flags.encryptionPassword.length < S.SAE_MAX_PASSWORD_LEN ∧
          ∃ groups, parseCsvFlag stoi flags.encryptionSaeGroups = .ok groups ∧
            groups.length ≤ S.SAE_MAX_EC_GROUPS) := by
  unfold validateConfiguration at h
  simp only [reject_bind_eq_ok_iff] at h
  obtain ⟨hmesh, hname, -, -, -, -, h⟩ := h
  refine ⟨Nat.le_of_not_lt hmesh, Nat.le_of_not_lt hname, fun henc => ?_⟩
  rw [if_pos henc, reject_bind_eq_ok_iff] at h
  obtain ⟨hpassword, h⟩ := h
  obtain ⟨groups, hgroups, hlen⟩ := Except.bind_eq_ok_iff.mp h
  have hpos := S.password_pos
  exact ⟨by omega, groups, hgroups, Nat.le_of_not_lt (reject_eq_ok_iff.mp hlen)⟩

/-- The channel types that `applyConfiguration` knows. -/
def channelTypes : List (List UInt8) :=
  ["160", "80+80", "80", "40", "20", "NOHT"].map ascii

/-- They are the ones with a width. -/
theorem channelWidthOf_eq_ok_iff {channelType : List UInt8} :
    (∃ width, channelWidthOf channelType = .ok width) ↔ channelType ∈ channelTypes := by
  unfold channelWidthOf channelTypes
  simp only [List.map_cons, List.map_nil, List.mem_cons, List.not_mem_nil, or_false]
  split_ifs <;> simp [*]

/-- The others are reported. -/
theorem channelWidthOf_of_notMem {channelType : List UInt8} (h : channelType ∉ channelTypes) :
    ∃ what, channelWidthOf channelType = .error (.invalidArgument what) := by
  unfold channelTypes at h
  simp only [List.map_cons, List.map_nil, List.mem_cons, List.not_mem_nil, or_false, not_or] at h
  obtain ⟨h160, h80P80, h80, h40, h20, hnoht⟩ := h
  unfold channelWidthOf
  simp only [h160, h80P80, h80, h40, h20, hnoht, if_false]
  exact ⟨_, rfl⟩

/-- An address that cannot be read. -/
theorem readMacAddress_eq_error_iff {old : Option MacAddress} {e : StdException} :
    readMacAddress flags parseMac old = .error e ↔
      flags.meshMacAddress ≠ [] ∧
        ∃ what, parseMac flags.meshMacAddress = .error what ∧ e = .invalidArgument what := by
  unfold readMacAddress
  split
  next h => simp [h]
  next h =>
    cases parseMac flags.meshMacAddress with
    | ok mac => simp [Except.mapError, Except.map]
    | error what => simp [Except.mapError, Except.map, h, eq_comm]

variable {netif : NetInterface}

/-- The flags are read in this order, and the first that cannot be read is reported. -/
theorem configure_eq_error_iff {e : StdException} :
    configure flags parseMac netif = .error e ↔
      channelWidthOf flags.meshChannelType = .error e ∨
        flags.meshChannelType ∈ channelTypes ∧
          (parseCsvFlag stoi flags.encryptionSaeGroups = .error e ∨
            (∃ groups, parseCsvFlag stoi flags.encryptionSaeGroups = .ok groups) ∧
              readMacAddress flags parseMac netif.maybeMacAddress = .error e) := by
  rw [← channelWidthOf_eq_ok_iff]
  simp only [configure, Except.bind_eq_error_iff, ← exists_and_right]
  simp [pure, Except.pure]

/-- The flags as they stand in an interface. -/
structure FromFlags (flags : HandlerFlags) (n : NetInterface) : Prop where
  meshId : n.meshId = flags.meshId
  ifName : n.maybeIfName = some flags.interfaceName
  frequency : n.frequency = flags.meshFrequency
  centerFreq1 : n.centerFreq1 = flags.meshCenterFreq1
  centerFreq2 : n.centerFreq2 = flags.meshCenterFreq2
  channelWidth : channelWidthOf flags.meshChannelType = .ok n.channelWidth
  isEncrypted : n.isEncrypted = flags.enableEncryption
  password : n.encryptionPassword = flags.encryptionPassword
  groups : parseCsvFlag stoi flags.encryptionSaeGroups = .ok n.encryptionSaeGroups
  rssiThreshold : n.maybeRssiThreshold = some flags.meshRssiThreshold
  maxPeerLinks : n.maxPeerLinks = flags.meshMaxPeerLinks.toUInt16
  ttl : n.ttl = flags.meshTtl.toUInt8
  elementTtl : n.elementTtl = flags.meshTtlElement.toUInt8
  hwmpActivePathTimeout : n.hwmpActivePathTimeout = flags.meshHwmpActivePathTimeout
  hwmpRannInterval : n.hwmpRannInterval = flags.meshHwmpRannInterval

/-- Another address in the interface. -/
theorem FromFlags.withMacAddress (h : FromFlags flags netif) (mac : Option MacAddress) :
    FromFlags flags { netif with maybeMacAddress := mac } :=
  { h with }

/-- What a configured interface looks like. -/
theorem configure_ok {netif' : NetInterface} (h : configure flags parseMac netif = .ok netif') :
    FromFlags flags netif' ∧ netif'.phyIndex = netif.phyIndex ∧
      netif'.isMeshCapable = netif.isMeshCapable ∧
      readMacAddress flags parseMac netif.maybeMacAddress = .ok netif'.maybeMacAddress := by
  obtain ⟨width, hwidth, h⟩ := Except.bind_eq_ok_iff.mp h
  obtain ⟨groups, hgroups, h⟩ := Except.bind_eq_ok_iff.mp h
  obtain ⟨mac, hmac, h⟩ := Except.bind_eq_ok_iff.mp h
  obtain rfl := Except.ok.inj h
  exact ⟨⟨rfl, rfl, rfl, rfl, rfl, hwidth, rfl, rfl, hgroups, rfl, rfl, rfl, rfl, rfl, rfl⟩, rfl,
    rfl, hmac⟩

end Spec

end Fbmeshd
