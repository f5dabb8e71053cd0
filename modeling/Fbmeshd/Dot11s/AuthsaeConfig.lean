import Fbmeshd.Dot11s.Configuration
import Fbmeshd.Lib.Writer

/-!
# The configuration for authsae

`initMesh` copies the configuration of an interface into the structures of authsae, whose arrays
have fixed sizes, both when the mesh is encrypted and when peering is done in user space.
-/

namespace Fbmeshd

open Bytes

/-- The arrays of `authsae_sae_config` and `authsae_meshd_config`. -/
inductive AuthsaeArray where
  | group
  | pwd
  | meshid
  | interface
  deriving DecidableEq

/-- The sizes in bytes. A group is an `int`. -/
def AuthsaeSizes.size (S : AuthsaeSizes) : AuthsaeArray → ℕ
  | .group => 4 * S.SAE_MAX_EC_GROUPS
  | .pwd => S.SAE_MAX_PASSWORD_LEN
  | .meshid => S.meshidSize
  | .interface => S.interfaceSize

/-- `authsae_sae_config`. -/
structure SaeConfig where
  group : Buffer
  numGroups : ℕ
  pwd : Buffer
  debug : Int32
  retrans : Int32 := 0
  pmkExpiry : Int32 := Int32.maxValue
  openThreshold : Int32 := 5
  blacklistTimeout : Int32 := 5
  giveupThreshold : Int32 := 0

/-- The part of `authsae_meshd_config` that depends on the interface. -/
structure MeshdConfig where
  is5GHz : Bool
  meshid : Buffer
  meshidLen : ℕ
  interface : Buffer
  isSecure : Bool
  controlFreq : Int32
  centerFreq1 : Int32
  centerFreq2 : Int32
  channelWidth : ChannelWidth
  maxPlinks : UInt16

/-- A computation that copies into the arrays. -/
abbrev Copying := SpanWriter AuthsaeArray StdException

variable (S : AuthsaeSizes)

/-- An array after `memset`. -/
def zeros (a : AuthsaeArray) : Buffer := List.replicate (S.size a) 0

/-- The loop over the groups, from an index on. -/
def copyGroups : ℕ → List ℤ → Buffer → Copying Buffer
  | _, [], b => pure b
  | i, g :: groups, b => do
    let b ← SpanWriter.put .group b (4 * i) (le32 (BitVec.ofInt 32 g).toNat)
    copyGroups (i + 1) groups b

/-- `createSaeConfig`. -/
def createSaeConfig (netif : NetInterface) : Copying SaeConfig := do
  let group ← copyGroups 0 netif.encryptionSaeGroups (zeros S .group)
  let pwd ← SpanWriter.put .pwd (zeros S .pwd) 0 netif.encryptionPassword
  return {
    group
    numGroups := netif.encryptionSaeGroups.length
    pwd
    debug := netif.encryptionDebug }

/-- `createMeshConfig` up to the rates. -/
def createMeshConfig (netif : NetInterface) : Copying MeshdConfig := do
  let meshid ← SpanWriter.put .meshid (zeros S .meshid) 0 netif.meshId
  let ifName ← SpanWriter.lift <| match netif.maybeIfName with
    | some ifName => .ok ifName
    | none => .error (.runtimeError (ascii "Empty Optional cannot be unwrapped"))
  let interface ← SpanWriter.put .interface (zeros S .interface) 0 ifName
  return {
    is5GHz := netif.frequency > 2484
    meshid
    meshidLen := netif.meshId.length
    interface
    isSecure := netif.isEncrypted
    controlFreq := netif.frequency
    centerFreq1 := netif.centerFreq1
    centerFreq2 := netif.centerFreq2
    channelWidth := netif.channelWidth
    maxPlinks := netif.maxPeerLinks }

/-- What authsae answers. -/
structure Authsae where
  saeInitialize : List UInt8 → SaeConfig → Int32
  ampeInitialize : MeshdConfig → Int32

/-! ### What is copied -/

/-- A call of `createSaeConfig` or `createMeshConfig`. -/
inductive ConfigCall where
  | createSaeConfig (netif : NetInterface)
  | createMeshConfig (netif : NetInterface)

/-- The interface of the call. -/
def ConfigCall.netif : ConfigCall → NetInterface
  | .createSaeConfig netif | .createMeshConfig netif => netif

/-- What the call writes. -/
def ConfigCall.writes : ConfigCall → List (Span AuthsaeArray)
  | .createSaeConfig netif => (Fbmeshd.createSaeConfig S netif).writes
  | .createMeshConfig netif => (Fbmeshd.createMeshConfig S netif).writes

section Copies

variable {S} {netif : NetInterface}

/-- The loop over the groups throws nothing. -/
theorem exists_copyGroups (i : ℕ) (groups : List ℤ) (b : Buffer) :
    ∃ b', (copyGroups i groups b).eval = .ok b' := by
  induction groups generalizing i b with
  | nil => exact ⟨b, rfl⟩
  | cons g groups ih => exact ih (i + 1) _

/-- It stays in the array if the last group does. -/
theorem within_copyGroups_iff {size : AuthsaeArray → ℕ} (i : ℕ) (groups : List ℤ) (b : Buffer) :
    (copyGroups i groups b).Within size ↔
      groups = [] ∨ 4 * (i + groups.length) ≤ size .group := by
  induction groups generalizing i b with
  | nil => simp [copyGroups]
  | cons g groups ih =>
    rw [copyGroups, SpanWriter.within_bind_iff rfl, SpanWriter.within_put_iff, ih, length_le32]
    cases groups with
    | nil => simp [Nat.mul_add]
    | cons g' groups =>
      simp only [List.length_cons, reduceCtorEq, false_or]
      omega

/-- The configuration, of which only the password matters here. -/
theorem exists_createSaeConfig (S : AuthsaeSizes) (netif : NetInterface) :
    ∃ c, (createSaeConfig S netif).eval = .ok c ∧
      c.pwd = (zeros S .pwd).write 0 netif.encryptionPassword := by
  obtain ⟨b, hb⟩ := exists_copyGroups 0 netif.encryptionSaeGroups (zeros S .group)
  rw [createSaeConfig, SpanWriter.bind_of_ok hb]
  exact ⟨_, rfl, rfl⟩

/-- `createSaeConfig` stays in its arrays if groups and password fit. -/
theorem within_createSaeConfig_iff :
    (createSaeConfig S netif).Within S.size ↔
      netif.encryptionSaeGroups.length ≤ S.SAE_MAX_EC_GROUPS ∧
        netif.encryptionPassword.length ≤ S.SAE_MAX_PASSWORD_LEN := by
  obtain ⟨b, hb⟩ := exists_copyGroups 0 netif.encryptionSaeGroups (zeros S .group)
  rw [createSaeConfig, SpanWriter.within_bind_iff hb, SpanWriter.within_bind_iff rfl,
    within_copyGroups_iff, SpanWriter.within_put_iff]
  simp only [AuthsaeSizes.size, Nat.zero_add, SpanWriter.within_pure, and_true]
  cases netif.encryptionSaeGroups with
  | nil => simp
  | cons g groups =>
    simp only [reduceCtorEq, false_or]
    omega

/-- `createMeshConfig` does if the names fit. -/
theorem within_createMeshConfig {ifName : List UInt8} (hname : netif.maybeIfName = some ifName)
    (hid : netif.meshId.length ≤ S.meshidSize) (hlen : ifName.length ≤ S.interfaceSize) :
    (createMeshConfig S netif).Within S.size := by
  rw [createMeshConfig, hname, SpanWriter.within_bind_iff rfl, SpanWriter.within_bind_iff rfl,
    SpanWriter.within_bind_iff rfl]
  refine ⟨SpanWriter.within_put_iff.mpr ?_, SpanWriter.within_pure ifName,
    SpanWriter.within_put_iff.mpr ?_, SpanWriter.within_pure _⟩
  · rwa [Nat.zero_add]
  · rwa [Nat.zero_add]

/-- The password, as a whole, is followed by a zero in its array. -/
def SaeConfig.Terminated (c : SaeConfig) (password : List UInt8) : Prop :=
  c.pwd[password.length]? = some 0

/-- There has to be room for the zero. -/
theorem terminated_iff {c : SaeConfig} {password : List UInt8}
    (hc : c.pwd = (zeros S .pwd).write 0 password) :
    c.Terminated password ↔ password.length < S.SAE_MAX_PASSWORD_LEN := by
  rw [SaeConfig.Terminated, hc, Buffer.write, List.takeD_zero, List.nil_append, Nat.zero_add, zeros,
    List.drop_replicate, List.getElem?_append_right (Nat.le_refl _), Nat.sub_self,
    List.getElem?_replicate, Option.ite_none_right_eq_some, AuthsaeSizes.size]
  exact ⟨fun h => Nat.lt_of_sub_pos h.1, fun h => ⟨Nat.sub_pos_of_lt h, rfl⟩⟩

variable (S) in
/-- All that the call copies stays in the arrays, and it leaves the password terminated. -/
def ConfigCall.Safe : ConfigCall → Prop
  | .createSaeConfig netif => (Fbmeshd.createSaeConfig S netif).Within S.size ∧
      ∀ c, (Fbmeshd.createSaeConfig S netif).eval = .ok c → c.Terminated netif.encryptionPassword
  | .createMeshConfig netif => (Fbmeshd.createMeshConfig S netif).Within S.size

/-- `createSaeConfig` is safe for a password and groups that fit. -/
theorem safe_createSaeConfig_iff :
    (ConfigCall.createSaeConfig netif).Safe S ↔
      netif.encryptionPassword.length < S.SAE_MAX_PASSWORD_LEN ∧
        netif.encryptionSaeGroups.length ≤ S.SAE_MAX_EC_GROUPS := by
  obtain ⟨c, hc, hpwd⟩ := exists_createSaeConfig S netif
  rw [ConfigCall.Safe, within_createSaeConfig_iff, hc]
  constructor
  · rintro ⟨⟨hgroups, -⟩, hterminated⟩
    exact ⟨(terminated_iff hpwd).mp (hterminated c rfl), hgroups⟩
  · rintro ⟨hpassword, hgroups⟩
    refine ⟨⟨hgroups, Nat.le_of_lt hpassword⟩, ?_⟩
    rintro c' ⟨⟩
    exact (terminated_iff hpwd).mpr hpassword

end Copies

/-- The sizes in authsae. -/
def authsaeSizes : AuthsaeSizes where
  MESHD_MAX_SSID_LEN := 32
  IFNAMSIZ := 16
  SAE_MAX_PASSWORD_LEN := 80
  SAE_MAX_EC_GROUPS := 10
  meshidSize := 33
  interfaceSize := 17
  ratesSize := 32
  password_pos := by decide
  meshid_fits := by decide
  interface_fits := by decide

end Fbmeshd
