import Fbmeshd.Dot11s.AuthsaeConfig
import Fbmeshd.Dot11s.Peering
import Fbmeshd.Lib.Fallible

/-!
# The mesh interface from the constructor to the destructor

`Nl80211Handler` takes over a radio of the kernel: its constructor checks the flags, writes them
into the first interface that can be used, deletes an interface that has the configured name and
creates its own. `joinMeshes` brings the link up, initialises authsae and joins the mesh,
`leaveMeshes` goes back, and the destructor deletes the interface. The kernel may refuse every
request, and some of its refusals go unnoticed. The sockets themselves are taken to work, and nobody
else creates or deletes interfaces.
-/

namespace Fbmeshd

namespace Nl80211Handler

open Fallible

/-! ### Rates -/

/-- The rates that `set_11a_rates` and `set_11g_rates` look for. -/
def isBasicRate (is5GHz : Bool) (rate : UInt16) : Bool :=
  if is5GHz then rate ∈ [60, 120, 240] else rate ∈ [10, 20, 55, 60, 110, 120, 240]

/-- `setSupportedBasicRates`. The kernel counts in units of 100 kb/s, the standard in 500 kb/s. -/
def setSupportedBasicRates (phyIndex : ℕ) (is5GHz : Bool) (rates : List UInt16) :
    Except StdException (List UInt8) :=
  let supported := rates.map fun rate =>
    if isBasicRate is5GHz rate then (rate / 5).toUInt8 ||| 0x80 else (rate / 5).toUInt8
  let found : ℤ := rates.countP (isBasicRate is5GHz)
  let refuse (band : String) : Except StdException (List UInt8) := .error (.runtimeError
    (ascii s!"phy{phyIndex} does not support the expected basic rate set for the {band} band"))
  if is5GHz then
    let want := 3 - found
    if want ≠ 0 then refuse "5GHz" else .ok supported
  else
    let want := 7 - found
    if want ≠ 0 ∧ want ≠ 3 ∧ want ≠ 6 then refuse "2.4GHz" else .ok supported

/-! ### Requests -/

/-- The nested attribute `NL80211_ATTR_MESH_SETUP`, which always has the flag
`NL80211_MESH_SETUP_USERSPACE_MPM`. -/
structure MeshSetup where
  userspaceAuth : Bool := false
  userspaceAmpe : Bool := false
  authProtocol : Option UInt8 := none
  ie : Option (List UInt8) := none
  deriving DecidableEq

/-- The attributes of `NL80211_CMD_JOIN_MESH`. -/
structure JoinMesh where
  meshId : List UInt8
  ifIndex : ℕ
  wiphyFreq : UInt32
  channelWidth : ChannelWidth
  centerFreq1 : UInt32
  centerFreq2 : UInt32
  rssiThreshold : Option UInt32
  maxPeerLinks : UInt16
  ttl : UInt8
  elementTtl : UInt8
  hwmpActivePathTimeout : UInt32
  hwmpRannInterval : UInt32
  setup : Option MeshSetup
  mcastRate : Option UInt32
  deriving DecidableEq

/-- The requests to the kernel. -/
inductive Request where
  | newInterface (wiphy : ℕ) (ifName : List UInt8) (mac : Option MacAddress)
  | delInterface (ifIndex : ℕ)
  | changeLink (ifIndex : ℕ) (up : Bool)
  | registerFrame (ifIndex : ℕ) (frameType : UInt16) (frameMatch : List UInt8)
  | newKey (ifIndex : ℕ) (cipher : Peering.Cipher) (keyIdx : UInt8) (keyData : List UInt8)
  | setKey (ifIndex : ℕ) (defaultMgmt : Bool) (keyIdx : UInt8)
  | joinMesh (attributes : JoinMesh)
  | leaveMesh (ifIndex : ℕ)
  deriving DecidableEq

/-- The values of `status_t` that are not a success. -/
inductive ErrorCode where
  | ERR_IFNAME
  | ERR_IFINDEX_NOT_FOUND
  | ERR_CHANGE_LINKSTATE
  | ERR_RTNETLINK_ALLOCATE_SOCKET
  | ERR_RTNL_ALLOCATE_OBJ
  | ERR_AUTHSAE
  | ERR_NETLINK_OTHER
  deriving DecidableEq

/-- How a function ends early. -/
inductive Failure where
  | status (code : ErrorCode)
  | exception (e : StdException)
  /-- The `std::runtime_error` of a request that the kernel refuses. -/
  | netlinkError (error : ℤ)
  /-- The `std::runtime_error` of a process that cannot be started. -/
  | spawnError
  /-- A `CHECK` or an `assert` ends the process. -/
  | abort
  /-- A copy goes beyond its array, and what follows is undefined. -/
  | outOfBounds
  deriving DecidableEq

/-- The failure is a `std::runtime_error`. -/
def Failure.isRuntimeError : Failure → Bool
  | .exception (.runtimeError _) | .netlinkError _ | .spawnError => true
  | _ => false

/-- `NetInterface` with what the kernel and authsae tell about it. -/
structure Netif extends NetInterface where
  maybeIfIndex : Option ℕ := none
  rates2GHz : List UInt16 := []
  rates5GHz : List UInt16 := []
  /-- `mcast_rate` of the configuration for authsae. -/
  mcastRate : Int32 := 0

/-- The rates of the band that the interface is configured for. -/
def Netif.bandRates (netif : Netif) : List UInt16 :=
  if netif.frequency > 2484 then netif.rates5GHz else netif.rates2GHz

/-- An interface of the kernel: its name and its index. -/
abbrev KernelInterface := List UInt8 × ℕ

/-- What fails in `setLinkFlags` before a request is sent. -/
inductive RtnlFailure where
  | socketAlloc
  | getKernel
  | linkAlloc
  deriving DecidableEq

/-- The flags, and what the outside answers, given the requests before with their answers. -/
structure Environment where
  S : AuthsaeSizes
  flags : HandlerFlags
  parseMac : List UInt8 → Except (List UInt8) MacAddress
  /-- `nlmsgerr.error` in the answer to a request. -/
  reply : List (Request × ℤ) → List KernelInterface → Request → ℤ
  /-- No two interfaces have the same name. -/
  reply_conflict : ∀ {log interfaces wiphy ifName mac}, ifName ∈ interfaces.map Prod.fst →
    reply log interfaces (.newInterface wiphy ifName mac) ≠ 0
  newIndex : List KernelInterface → ℕ
  newIndex_fresh : ∀ interfaces, newIndex interfaces ∉ interfaces.map Prod.snd
  /-- The address of a new interface. It is whatever stands in memory if the kernel sends none. -/
  newAddress : List (Request × ℤ) → MacAddress
  /-- `/sbin/ip` can be started. -/
  spawns : Bool
  rtnlFailure : List (Request × ℤ) → Option RtnlFailure
  authsae : Authsae
  igtkKeyid : UInt8
  igtkTx : List UInt8
  mgtkTx : List UInt8
  /-- `KEY_LEN_AES_CCMP` and `KEY_LEN_AES_CMAC`. -/
  keyLength : Peering.Cipher → ℕ
  /-- Nothing that `main` does between joining and leaving ends the process, from the parts that it
  creates to the event loop. -/
  serves : Bool

/-- The interfaces in the order of their keys and those of the kernel, with a record of the past. -/
structure State where
  /-- `netInterfaces_`. -/
  netifs : List Netif
  interfaces : List KernelInterface
  /-- The requests with their answers. -/
  sent : List (Request × ℤ) := []
  /-- The calls that copy into the arrays of authsae. -/
  calls : List ConfigCall := []

variable (E : Environment)

namespace State

/-- What the kernel does for a request that it accepts. -/
def accept (s : State) : Request → State
  | .newInterface _ ifName _ =>
    { s with interfaces := s.interfaces ++ [(ifName, E.newIndex s.interfaces)] }
  | .delInterface ifIndex => { s with interfaces := s.interfaces.filter (·.2 ≠ ifIndex) }
  | _ => s

/-- What the kernel answers. -/
def answer (s : State) (r : Request) : ℤ := E.reply s.sent s.interfaces r

/-- A request is sent, and the kernel answers it. -/
def request (s : State) (r : Request) : State :=
  { if s.answer E r = 0 then s.accept E r else s with sent := s.sent ++ [(r, s.answer E r)] }

/-- Change the interface of one radio. -/
def update (s : State) (phyIndex : ℕ) (f : Netif → Netif) : State :=
  { s with netifs := s.netifs.map fun n => if n.phyIndex = phyIndex then f n else n }

end State

/-- `send`. The answer is not waited for. -/
def send (r : Request) : Action State Failure := modify (·.request E r)

/-- `sendAndReceive`. It throws nothing for some of the requests that the kernel refuses. -/
def sendAndReceive (r : Request) : Action State Failure := fun s =>
  (s.request E r,
    if Nl.NetlinkSocket.passes (s.answer E r) then none else some (.netlinkError (s.answer E r)))

/-- The action that does nothing. -/
def skip : Action State Failure := fun s => (s, none)

/-- The action that only fails. -/
def fail (e : Failure) : Action State Failure := fun s => (s, some e)

/-- `CHECK` and `assert`. -/
def check (p : Prop) [Decidable p] : Action State Failure := if p then skip else fail .abort

/-- `catch (std::runtime_error& e)` around an action whose failure is only logged. -/
def logRuntimeError (a : Action State Failure) : Action State Failure :=
  handle (fun e => if e.isRuntimeError then none else some e) a

/-- `catch (std::runtime_error& e)` that returns `ERR_NETLINK_OTHER`. -/
def returnRuntimeError (a : Action State Failure) : Action State Failure :=
  handle (fun e => some (if e.isRuntimeError then .status .ERR_NETLINK_OTHER else e)) a

/-! ### Interfaces -/

/-- `deleteInterface`. -/
def deleteInterface (ifName : List UInt8) : Action State Failure :=
  andThen (check (ifName ≠ [])) fun s =>
    match s.interfaces.find? (·.1 = ifName) with
    | none => (s, none)
    | some i => sendAndReceive E (.delInterface i.2) s

/-- The process that sets the MTU. What it returns is not looked at. -/
def setMtu : Action State Failure :=
  if E.flags.meshMtu ≠ 1500 ∧ E.spawns = false then fail .spawnError else skip

/-- `createInterface`, with the assignment of the address that it returns. -/
def createInterface (netif : Netif) : Action State Failure :=
  if !netif.isValid then
    fail (.exception (.runtimeError
      (ascii "Cannot create interface with incomplete configuration")))
  else fun s =>
    let address := E.newAddress s.sent
    andThen
      (sendAndReceive E
        (.newInterface netif.phyIndex (netif.maybeIfName.getD []) netif.maybeMacAddress))
      (andThen (setMtu E)
        (modify (·.update netif.phyIndex fun n => { n with maybeMacAddress := some address }))) s

/-- `tearDown`. -/
def tearDown : Action State Failure := fun s =>
  forEach (fun n : Netif =>
    match n.maybeIfName with
    | some ifName => logRuntimeError (deleteInterface E ifName)
    | none => skip) s.netifs s

/-- The body of the loop of `applyConfiguration` for the interface that is used. -/
def useInterface (netif : Netif) : Action State Failure :=
  match configure E.flags E.parseMac netif.toNetInterface with
  | .error e => fail (.exception e)
  | .ok configured =>
    let netif := { netif with toNetInterface := configured }
    andThen (modify (·.update netif.phyIndex fun _ => netif))
      (logRuntimeError
        (andThen (deleteInterface E E.flags.interfaceName) (createInterface E netif)))

/-- `applyConfiguration`. -/
def applyConfiguration : Action State Failure := fun s =>
  match s.netifs.find? (!·.isSkipped E.flags) with
  | none =>
    andThen (tearDown E) (fail (.exception (.runtimeError
      (ascii "Failed to apply interface configuration to the detected phys")))) s
  | some netif => useInterface E netif s

/-- The constructor, given the interfaces that `populateNetifs` finds. -/
def construct : Action State Failure :=
  match validateConfiguration E.S E.flags with
  | .error e => fail (.exception e)
  | .ok () => applyConfiguration E

/-! ### Joining and leaving -/

/-- `rtnl_link_change`, which fails for any error of the kernel. -/
def rtnlLinkChange (ifIndex : ℕ) (up : Bool) : Action State Failure := fun s =>
  (s.request E (.changeLink ifIndex up),
    if s.answer E (.changeLink ifIndex up) = 0 then none
    else some (.status .ERR_CHANGE_LINKSTATE))

/-- `rtnl_link_get_kernel`. -/
def rtnlLinkGetKernel (ifName : List UInt8) (s : State) : Option KernelInterface :=
  if E.rtnlFailure s.sent = some .getKernel then none else s.interfaces.find? (·.1 = ifName)

/-- `setLinkFlags`. -/
def setLinkFlags (up : Bool) (netif : Netif) : Action State Failure :=
  match netif.maybeIfName with
  | none => fail (.status .ERR_IFNAME)
  | some ifName => fun s =>
    if E.rtnlFailure s.sent = some .socketAlloc then
      (s, some (.status .ERR_RTNETLINK_ALLOCATE_SOCKET))
    else match rtnlLinkGetKernel E ifName s with
      | none => (s, some (.status .ERR_IFINDEX_NOT_FOUND))
      | some i =>
        andThen (modify (·.update netif.phyIndex fun n => { n with maybeIfIndex := some i.2 }))
          (if E.rtnlFailure s.sent = some .linkAlloc then fail (.status .ERR_RTNL_ALLOCATE_OBJ)
          else rtnlLinkChange E i.2 up) s

/-- `lookupNetifFromPhy`, and what is done with the interface. -/
def withNetif (phyIndex : ℕ) (f : Netif → Action State Failure) : Action State Failure := fun s =>
  match s.netifs with
  | [] =>
    (s, some (.exception (.runtimeError (ascii "No mesh-capable interface has been discovered"))))
  | netifs =>
    match netifs.find? (·.phyIndex = phyIndex) with
    | none => (s, some (.exception (.runtimeError (ascii "Requested phyIndex not found"))))
    | some netif => f netif s

/-- `CHECK(netif.maybeIfIndex.has_value())`, and what is done with the index. -/
def withIfIndex (netif : Netif) (f : ℕ → Action State Failure) : Action State Failure :=
  match netif.maybeIfIndex with
  | none => fail .abort
  | some ifIndex => f ifIndex

/-- `registerForAuthFrames`. -/
def registerForAuthFrames (netif : Netif) : Action State Failure :=
  withIfIndex netif fun ifIndex => send E (.registerFrame ifIndex 0x00B0 [0x3])

/-- `registerForMeshPeeringFrames`. -/
def registerForMeshPeeringFrames (netif : Netif) : Action State Failure :=
  withIfIndex netif fun ifIndex =>
    forEach (fun code => send E (.registerFrame ifIndex 0x00D0 code)) [[15, 1], [15, 2], [15, 3]]

/-- `installKey` for a group key of the interface, which reads as many bytes as the cipher has. -/
def installKey (netif : Netif) (cipher : Peering.Cipher) (keyIdx : UInt8) (keyData : List UInt8) :
    Action State Failure :=
  withIfIndex netif fun ifIndex =>
    andThen (sendAndReceive E (.newKey ifIndex cipher keyIdx (keyData.take (E.keyLength cipher))))
      (sendAndReceive E (.setKey ifIndex (cipher = .aesCmac) keyIdx))

/-- The registrations and the keys of `initMesh`, after authsae is initialised. -/
def registerAndInstallKeys (netif : Netif) (isSecure : Bool) : Action State Failure :=
  andThen (registerForAuthFrames E netif) (andThen (registerForMeshPeeringFrames E netif)
    (if isSecure then
      andThen (installKey E netif .aesCmac E.igtkKeyid E.igtkTx)
        (installKey E netif .ccmp 1 E.mgtkTx)
    else skip))

/-- The multicast rate in `createMeshConfig`, in units of 100 kb/s. -/
def kMcastRate : Int32 := 120

/-- A call that copies into the arrays of authsae, and what is done with the result. -/
def copying {α : Type} (call : ConfigCall) (copies : Copying α) (f : α → Action State Failure) :
    Action State Failure :=
  andThen (modify fun s => { s with calls := s.calls ++ [call] })
    (if copies.Within E.S.size then
      match copies.eval with
      | .error e => fail (.exception e)
      | .ok a => f a
    else fail .outOfBounds)

/-- `createMeshConfig` from the multicast rate on, and the rest of `initMesh`. -/
def initAmpe (netif : Netif) (mesh : MeshdConfig) : Action State Failure :=
  andThen (modify (·.update netif.phyIndex fun n => { n with mcastRate := kMcastRate })) <|
    andThen (check (netif.bandRates ≠ [])) <|
      andThen (check (netif.bandRates.length ≤ E.S.ratesSize)) <|
        match setSupportedBasicRates netif.phyIndex mesh.is5GHz netif.bandRates with
        | .error e => fail (.exception e)
        | .ok _ =>
          if E.authsae.ampeInitialize mesh ≠ 0 then fail (.status .ERR_AUTHSAE)
          else registerAndInstallKeys E netif mesh.isSecure

/-- `initMesh` for an interface whose peering is done here. -/
def initAuthsae (netif : Netif) : Action State Failure :=
  copying E (.createSaeConfig netif.toNetInterface)
    (createSaeConfig E.S netif.toNetInterface) fun saeConfig =>
      if E.authsae.saeInitialize netif.meshId saeConfig ≠ 1 then fail (.status .ERR_AUTHSAE)
      else copying E (.createMeshConfig netif.toNetInterface)
        (createMeshConfig E.S netif.toNetInterface) (initAmpe E netif)

/-- `initMesh`. -/
def initMesh (netif : Netif) : Action State Failure :=
  if E.flags.userspaceMeshPeering || netif.isEncrypted then initAuthsae E netif else skip

/-- `RSN_INFORMATION_ELEMENTS`. -/
def rsnInformationElements : List UInt8 :=
  [0x30, 0x14, 0x1, 0x0, 0x0, 0x0F, 0xAC, 0x4, 0x1, 0x0, 0x0, 0x0F, 0xAC, 0x4, 0x1, 0x0, 0x0, 0x0F,
    0xAC, 0x8, 0x0, 0x0]

/-- The attribute `NL80211_ATTR_MESH_SETUP` of `joinMesh`. -/
def meshSetup (netif : Netif) : MeshSetup :=
  if netif.isEncrypted then
    { userspaceAuth := true, userspaceAmpe := true, authProtocol := some 0x1,
      ie := some rsnInformationElements }
  else {}

/-- The message of `joinMesh`. -/
def joinRequest (netif : Netif) (ifIndex : ℕ) : JoinMesh where
  meshId := netif.meshId
  ifIndex := ifIndex
  wiphyFreq := netif.frequency.toUInt32
  channelWidth := netif.channelWidth
  centerFreq1 := netif.centerFreq1.toUInt32
  centerFreq2 := netif.centerFreq2.toUInt32
  rssiThreshold := netif.maybeRssiThreshold.map (·.toUInt32)
  maxPeerLinks := netif.maxPeerLinks
  ttl := netif.ttl
  elementTtl := netif.elementTtl
  hwmpActivePathTimeout := netif.hwmpActivePathTimeout
  hwmpRannInterval := netif.hwmpRannInterval
  setup :=
    if E.flags.userspaceMeshPeering || netif.isEncrypted then some (meshSetup netif) else none
  mcastRate :=
    if (E.flags.userspaceMeshPeering || netif.isEncrypted) && netif.mcastRate ≠ 0 then
      some netif.mcastRate.toUInt32
    else none

/-- `joinMesh`. -/
def joinMesh (netif : Netif) : Action State Failure :=
  withIfIndex netif fun ifIndex => sendAndReceive E (.joinMesh (joinRequest E netif ifIndex))

/-- The body of the loop of `joinMeshes`. -/
def joinNetif (netif : Netif) : Action State Failure :=
  if netif.isValid then
    andThen (setLinkFlags E true netif)
      (returnRuntimeError (andThen (withNetif netif.phyIndex (initMesh E))
        (withNetif netif.phyIndex (joinMesh E))))
  else skip

/-- `joinMeshes`. -/
def joinMeshes : Action State Failure := fun s => forEach (joinNetif E) s.netifs s

/-- `leaveMesh`. -/
def leaveMesh (netif : Netif) : Action State Failure :=
  withIfIndex netif fun ifIndex => sendAndReceive E (.leaveMesh ifIndex)

/-- The body of the loop of `leaveMeshes`. -/
def leaveNetif (netif : Netif) : Action State Failure :=
  if netif.isValid then
    andThen (setLinkFlags E false netif)
      (returnRuntimeError (withNetif netif.phyIndex (leaveMesh E)))
  else skip

/-- `leaveMeshes`. -/
def leaveMeshes : Action State Failure := fun s => forEach (leaveNetif E) s.netifs s

/-- `lookupMeshNetif().maybeMacAddress`. -/
def meshAddress (s : State) : Option MacAddress :=
  (s.netifs.find? (·.maybeIfName.isSome)).bind (·.maybeMacAddress)

/-- How `main` ends. -/
inductive Ending where
  /-- The destructor of the handler runs. -/
  | destroyed
  /-- The process ends without it. -/
  | terminated
  deriving DecidableEq

/-- The destructor. -/
def destroy (s : State) : State × Ending :=
  ((tearDown E s).1, if (tearDown E s).2.isSome then .terminated else .destroyed)

/-- What `main` does with the handler. Nothing catches an exception there, a failure to join leads
to the destructor at once, and the address of the interface has to be known. -/
def session (s : State) : State × Ending :=
  match construct E s with
  | (s, some _) => (s, .terminated)
  | (s, none) =>
    match joinMeshes E s with
    | (s, some (.status _)) => destroy E s
    | (s, some _) => (s, .terminated)
    | (s, none) =>
      if (meshAddress s).isNone || !E.serves then (s, .terminated)
      else
        match leaveMeshes E s with
        | (s, none) | (s, some (.status _)) => destroy E s
        | (s, some _) => (s, .terminated)

end Nl80211Handler

end Fbmeshd
