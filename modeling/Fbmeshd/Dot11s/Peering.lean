import Fbmeshd.Dot11s.AuthsaeConfig
import Fbmeshd.Lib.Fallible
import Fbmeshd.Nl.NetlinkSocket
import Mathlib.Data.Finset.Basic

/-!
# Peering in user space

When peering is done in user space, three parties know the stations of the mesh: the kernel, which
has a table of them, authsae, which has a list of candidates, and `Nl80211Handler`, which marks the
candidates that it has told the kernel about. The handler is called by authsae through the
functions of `AuthsaeCallbackHelpers` and by the event loop when the kernel reports something.

authsae is not part of the repository. What it does between two calls is any list of `AuthsaeCall`s,
and how it searches its list is a parameter; what else is known of it is stated where it is used, as
a condition on its calls. The kernel is part of the state: it answers each request as it likes,
gives up stations by itself, and reports every station that is gone.
-/

namespace Fbmeshd

namespace Peering

open Fallible

/-! ### The parties -/

/-- `ht_cap_ie`: the field that is changed, and the rest. -/
structure HtCapIe where
  capInfo : UInt16
  rest : List UInt8 := []
  deriving DecidableEq

/-- The elements of a beacon that the handler reads, as `parse_ies` finds them. -/
structure InfoElems where
  meshId : Option (List UInt8) := none
  rsn : Option (List UInt8) := none
  supRates : Option (List UInt8) := none
  htCap : Option HtCapIe := none
  /-- The field `ht_param` of `ht_info`. -/
  htInfo : Option UInt8 := none
  vhtCap : Option (List UInt8) := none
  deriving DecidableEq

/-- `candidate`, as far as the handler reads it. The number stands for its address. -/
structure Candidate where
  id : ℕ
  peerMac : MacAddress
  /-- The state is `SAE_ACCEPTED`. -/
  accepted : Bool := false
  /-- The pointer `conf` is set. -/
  hasConf : Bool := false
  inKernel : Bool := false
  associationId : UInt16 := 0
  ies : InfoElems := {}
  deriving DecidableEq

/-- The interface of a phy. -/
structure MeshNetif where
  phyIndex : ℕ
  maybeIfIndex : Option UInt32
  conf : MeshdConfig
  pmf : Bool := true

/-- `NL80211_KEYTYPE_GROUP` and `NL80211_KEYTYPE_PAIRWISE`. -/
inductive KeyType where
  | group
  | pairwise
  deriving DecidableEq

/-- `CIPHER_CCMP` and `CIPHER_AES_CMAC`. -/
inductive Cipher where
  | ccmp
  | aesCmac
  deriving DecidableEq

/-- The requests that are sent to the kernel while peers come and go. -/
inductive Request where
  | newStation (peer : MacAddress) (aid : UInt16) (supRates : Option (List UInt8))
      (htCap : Option HtCapIe) (vhtCap : Option (List UInt8))
  /-- `NL80211_CMD_SET_STATION` with the flags of an authenticated station. -/
  | setAuthenticated (peer : MacAddress) (mfp : Bool)
  | setPlinkState (peer : MacAddress) (state : ℤ)
  | delStation (peer : MacAddress)
  | newKey (peer : Option MacAddress) (cipher : Cipher) (keyType : KeyType) (keyIdx : UInt8)
      (keyData : List UInt8)
  | setKey (defaultMgmt : Bool) (keyIdx : UInt8)
  | frame (data : List UInt8)
  | setMeshConfig (htOpmode : Option UInt16)
  deriving DecidableEq

/-- How the handling of an event or a call from authsae ends early. -/
inductive Failure where
  /-- The `std::runtime_error` of a request that the kernel refuses. -/
  | netlinkError (error : ℤ)
  | exception (e : StdException)
  /-- A `CHECK` that ends the process. -/
  | checkFailed
  | nullPointer
  | outOfBounds
  deriving DecidableEq

/-- The attribute `NL80211_ATTR_MAC`, with its length. -/
structure MacAttr where
  address : MacAddress
  len : ℕ := 6
  deriving DecidableEq

/-- A management frame as far as `processEvent` reads it. -/
structure MgmtFrame where
  len : ℕ
  frameControl : UInt16
  /-- The byte at the offset of `action.action_code`. -/
  actionCode : UInt8
  deriving DecidableEq

/-- The commands of nl80211 that `processEvent` distinguishes, with their attributes. -/
inductive Command where
  | newPeerCandidate (mac : Option MacAttr) (ie : Option InfoElems)
  | frame (frame : Option MgmtFrame) (rxSignalDbm : Option Int32)
  | frameTxStatus
  | delStation (ifIndex : Option UInt32) (mac : Option MacAttr)
  | other
  deriving DecidableEq

/-- A message on the event socket. -/
structure Event where
  wiphy : Option ℕ
  command : Command
  deriving DecidableEq

/-- What the handler depends on. -/
structure Environment where
  /-- `netInterfaces_`. -/
  netifs : List MeshNetif
  /-- The interface that `lookupMeshNetif` returns, after the mesh is joined. -/
  mesh : MeshNetif
  mesh_mem : mesh ∈ netifs
  ifIndex : UInt32
  hasIfIndex : mesh.maybeIfIndex = some ifIndex
  /-- `find_peer`. -/
  findPeer : List Candidate → MacAddress → Bool → Option Candidate
  findPeer_some : ∀ {peers mac accept c}, findPeer peers mac accept = some c →
    c ∈ peers ∧ c.peerMac = mac ∧ (accept = true → c.accepted = true)
  findPeer_none : ∀ {peers mac}, findPeer peers mac false = none → ∀ c ∈ peers, c.peerMac ≠ mac
  /-- `nlmsgerr.error` in the answer to a request, given those before it with their answers. -/
  reply : List (Request × ℤ) → Request → ℤ
  /-- `KEY_LEN_AES_CCMP` and `KEY_LEN_AES_CMAC`. -/
  keyLength : Cipher → ℕ
  /-- `FLAGS_mesh_rssi_threshold`. -/
  rssiThreshold : Int32 := -80
  /-- `FLAGS_mesh_init_peering_allowed_macs`. -/
  allowedMacs : List UInt8 := []
  parseMac : List UInt8 → Except StdException MacAddress
  /-- `sizeof(ieee80211_mgmt_frame)`. -/
  mgmtFrameSize : ℕ

/-- The state of the three parties. -/
structure State where
  peers : List Candidate := []
  nextPeer : ℕ := 0
  /-- The stations of the mesh interface in the kernel. -/
  stations : Finset MacAddress := ∅
  /-- The messages on the event socket that have not been read, the oldest first. -/
  events : List Event := []
  /-- The requests with their answers. -/
  sent : List (Request × ℤ) := []

variable (E : Environment)

/-! ### Requests to the kernel -/

/-- The message that reports a deleted station of the mesh interface. -/
def deletion (peer : MacAddress) : Event :=
  ⟨some E.mesh.phyIndex, .delStation (some E.ifIndex) (some ⟨peer, 6⟩)⟩

namespace State

/-- The kernel removes a station and reports it. -/
def removeStation (s : State) (peer : MacAddress) : State :=
  if peer ∈ s.stations then
    { s with stations := s.stations.erase peer, events := s.events ++ [deletion E peer] }
  else s

/-- The kernel acts on a request. -/
def accept (s : State) : Request → State
  | .newStation peer .. => { s with stations := insert peer s.stations }
  | .delStation peer => s.removeStation E peer
  | _ => s

/-- `find_peer`. -/
def find (s : State) (peer : MacAddress) (accept : Bool) : Option Candidate :=
  E.findPeer s.peers peer accept

/-- Change one candidate. -/
def update (s : State) (id : ℕ) (f : Candidate → Candidate) : State :=
  { s with peers := s.peers.map fun c => if c.id = id then f c else c }

/-- `delete_peer`. -/
def delete (s : State) (id : ℕ) : State :=
  { s with peers := s.peers.filter fun c => c.id ≠ id }

end State

/-- `sendAndReceive`. It throws nothing for some of the requests that the kernel refuses. -/
def send (r : Request) : Action State Failure := fun s =>
  let error := E.reply s.sent r
  let s := { s with sent := s.sent ++ [(r, error)] }
  (if error = 0 then s.accept E r else s,
    if Nl.NetlinkSocket.passes error then none else some (.netlinkError error))

/-- The action that does nothing. -/
def skip : Action State Failure := fun s => (s, none)

/-- The action that only fails. -/
def fail (e : Failure) : Action State Failure := fun s => (s, some e)

/-- `CHECK`. -/
def check (p : Prop) [Decidable p] : Action State Failure :=
  if p then skip else fail .checkFailed

/-- `IEEE80211_HT_PARAM_CHAN_WIDTH_ANY`. -/
def HT_PARAM_CHAN_WIDTH_ANY : UInt8 := 0x04

/-- `IEEE80211_HT_CAP_SUP_WIDTH_20_40`. -/
def HT_CAP_SUP_WIDTH_20_40 : UInt16 := 0x0002

/-- The capabilities that are sent: without the 40 MHz channel if the station does not use it. There
may be no capabilities where the bit is cleared. -/
def sentHtCap (elems : InfoElems) : Except Failure (Option HtCapIe) :=
  match elems.htInfo with
  | some htParam =>
    if htParam &&& HT_PARAM_CHAN_WIDTH_ANY = 0 then
      match elems.htCap with
      | some cap => .ok (some { cap with capInfo := cap.capInfo &&& ~~~HT_CAP_SUP_WIDTH_20_40 })
      | none => .error .nullPointer
    else .ok elems.htCap
  | none => .ok elems.htCap

/-- `createUnauthenticatedStation`. -/
def createUnauthenticatedStation (netif : MeshNetif) (peer : MacAddress) (elems : InfoElems) :
    Action State Failure :=
  andThen (check netif.maybeIfIndex.isSome) fun s =>
    match s.find E peer false with
    | none => fail .nullPointer s
    | some c =>
      match sentHtCap elems with
      | .error e => fail e s
      | .ok htCap => send E (.newStation peer c.associationId elems.supRates htCap elems.vhtCap) s

/-- `setStationAuthenticated`. -/
def setStationAuthenticated (netif : MeshNetif) (peer : MacAddress) : Action State Failure :=
  andThen (check netif.maybeIfIndex.isSome)
    (send E (.setAuthenticated peer (netif.conf.isSecure && netif.pmf)))

/-- `setPlinkState`. There are seven states. -/
def setPlinkState (peer : MacAddress) (state : ℤ) : Action State Failure :=
  andThen (check (0 ≤ state ∧ state < 7)) (send E (.setPlinkState peer state))

/-- `deleteStation`. -/
def deleteStation (peer : MacAddress) : Action State Failure := send E (.delStation peer)

/-- `installKey`, which reads as many bytes of the key as the cipher has. -/
def installKey (netif : MeshNetif) (maybePeer : Option MacAddress) (cipher : Cipher)
    (keyType : KeyType) (keyIdx : UInt8) (keyData : List UInt8) : Action State Failure :=
  andThen (check netif.maybeIfIndex.isSome) <|
    if keyData.length < E.keyLength cipher then fail .outOfBounds
    else andThen
      (send E (.newKey maybePeer cipher keyType keyIdx (keyData.take (E.keyLength cipher))))
      (send E (.setKey (cipher = .aesCmac) keyIdx))

/-- `txFrame`. An empty frame is only reported. -/
def txFrame (data : List UInt8) : Action State Failure :=
  if data = [] then skip else send E (.frame data)

/-! ### The functions that authsae calls -/

/-- The keys of `estab_peer_link`. -/
structure LinkKeys where
  mtk : List UInt8
  peerMgtk : List UInt8
  peerIgtk : Option (List UInt8)
  peerIgtkKeyid : UInt8
  deriving DecidableEq

/-- What authsae does between two calls of the handler: changes of its list, and calls of the
functions that it was given. -/
inductive AuthsaeCall where
  | create (peer : MacAddress) (associationId : UInt16)
  | accept (id : ℕ)
  | setConf (id : ℕ)
  | discard (id : ℕ)
  | meshdWriteMgmt (frame : Option (List UInt8))
  | fin (reason : UInt16) (peer : MacAddress) (keylen : ℤ)
  | setPlinkState (peer : MacAddress) (state : ℤ)
  | estabPeerLink (peer : Option MacAddress) (keys : LinkKeys)
  | deletePeer (peer : MacAddress)
  | meshdSetMeshConf (htOpmode : Option UInt16)
  deriving DecidableEq

/-- A new candidate. `peer_created` only looks whether the kernel was told about the peer. -/
def create (peer : MacAddress) (associationId : UInt16) (s : State) : State :=
  { s with
    peers := s.peers ++ [{ id := s.nextPeer, peerMac := peer, associationId }]
    nextPeer := s.nextPeer + 1 }

/-- `delete_peer_by_addr`. -/
def deletePeerByAddr (peer : MacAddress) : Action State Failure := fun s =>
  match (s.find E peer true).or (s.find E peer false) with
  | none => skip s
  | some cand =>
    -- a station of the kernel is removed there; the list follows when the kernel reports it
    if cand.inKernel then deleteStation E peer s else modify (·.delete cand.id) s

/-- `fin`. A key starts the peer link, which is left to authsae. -/
def fin (reason : UInt16) (peer : MacAddress) (_keylen : ℤ) : Action State Failure :=
  if reason = 0 then skip else deletePeerByAddr E peer

/-- `meshd_write_mgmt`. -/
def meshdWriteMgmt : Option (List UInt8) → Action State Failure
  | none => skip
  | some frame => txFrame E frame

/-- The keys have the lengths that `estab_peer_link` asks for. -/
def LinkKeys.Valid (keys : LinkKeys) : Prop :=
  keys.mtk.length = E.keyLength .ccmp ∧ keys.peerMgtk.length = E.keyLength .ccmp ∧
    ∀ igtk ∈ keys.peerIgtk, igtk.length = E.keyLength .aesCmac

instance (keys : LinkKeys) : Decidable (keys.Valid E) := by
  unfold LinkKeys.Valid
  infer_instance

/-- Tell the kernel about a candidate, unless it was told before. -/
def ensureStation (netif : MeshNetif) (peer : MacAddress) (elems : InfoElems) (cand : Candidate) :
    Action State Failure :=
  if cand.inKernel then skip
  else andThen (createUnauthenticatedStation E netif peer elems)
    (modify (·.update cand.id fun c => { c with inKernel := true }))

/-- The keys of a new link. -/
def installKeys (peer : MacAddress) (keys : LinkKeys) : Action State Failure :=
  andThen (installKey E E.mesh (some peer) .ccmp .pairwise 0 keys.mtk) <|
    andThen (installKey E E.mesh (some peer) .ccmp .group 1 keys.peerMgtk) <|
      match keys.peerIgtk with
      | none => skip
      | some igtk => installKey E E.mesh (some peer) .aesCmac .group keys.peerIgtkKeyid igtk

/-- The end of `estab_peer_link`, for a candidate with a configuration. -/
def establish (peer : MacAddress) (keys : LinkKeys) (cand : Candidate) : Action State Failure :=
  if E.mesh.conf.isSecure = true ∧ ¬keys.Valid E then skip
  else andThen (ensureStation E E.mesh peer cand.ies cand) <|
    andThen (setStationAuthenticated E E.mesh peer) <|
      if E.mesh.conf.isSecure then installKeys E peer keys else skip

/-- `estab_peer_link`. The second search may find nothing, and its result is used all the same. -/
def estabPeerLink : Option MacAddress → LinkKeys → Action State Failure
  | none, _ => skip
  | some peer, keys => fun s =>
    match s.find E peer false with
    | none => skip s
    | some cand =>
      match if cand.hasConf then some cand else s.find E peer true with
      | none => fail .nullPointer s
      | some cand => if cand.hasConf then establish E peer keys cand s else skip s

/-- One action of authsae. -/
def AuthsaeCall.run : AuthsaeCall → Action State Failure
  | .create peer associationId => modify (Peering.create peer associationId)
  | .accept id => modify (·.update id fun c => { c with accepted := true })
  | .setConf id => modify (·.update id fun c => { c with hasConf := true })
  | .discard id => modify (·.delete id)
  | .meshdWriteMgmt frame => Peering.meshdWriteMgmt E frame
  | .fin reason peer keylen => Peering.fin E reason peer keylen
  | .setPlinkState peer state => Peering.setPlinkState E peer state
  | .estabPeerLink peer keys => Peering.estabPeerLink E peer keys
  | .deletePeer peer => deletePeerByAddr E peer
  | .meshdSetMeshConf htOpmode => send E (.setMeshConfig htOpmode)

/-! ### The events of the kernel -/

/-- `status_t`, as far as the handlers of events return it. -/
inductive HandlerStatus where
  | success
  | errInvalidArgumentValue
  | errIfindexNotFound
  | errNetlinkOther
  deriving DecidableEq

/-- What the checks of an event come to: the handler returns, or goes on with a value. -/
inductive Verdict (α : Type) where
  | returns (status : HandlerStatus)
  | proceed (a : α)

/-- `lookupNetifFromPhy`. -/
def lookupNetifFromPhy (phyIndex : ℕ) : Except Failure MeshNetif :=
  match E.netifs.find? (·.phyIndex = phyIndex) with
  | some netif => .ok netif
  | none => .error (.exception (.runtimeError (ascii "Requested phyIndex not found")))

/-- The candidate is of another mesh. -/
def otherMesh (conf : MeshdConfig) (elems : InfoElems) : Bool :=
  match elems.meshId with
  | none => true
  | some id => id.length ≠ conf.meshidLen || id ≠ conf.meshid.take conf.meshidLen

/-- The candidate may be peered with, by the list of allowed stations. -/
def isAllowed (peer : MacAddress) : Except Failure Bool :=
  if E.allowedMacs = [] then .ok true
  else match parseCsvFlag E.parseMac E.allowedMacs with
    | .ok macs => .ok (macs.contains peer)
    | .error e => .error (.exception e)

/-- `handleNewCandidate` up to the call of authsae. -/
def checkCandidate (wiphy : Option ℕ) (mac : Option MacAttr) (ie : Option InfoElems) :
    Except Failure (Verdict (MeshNetif × MacAddress × InfoElems)) :=
  match mac, ie with
  | some mac, some elems =>
    match wiphy with
    | none => .error .nullPointer
    | some phyIndex => do
      let netif ← lookupNetifFromPhy E phyIndex
      if otherMesh netif.conf elems then return .returns .success
      if elems.rsn.isNone && netif.conf.isSecure then return .returns .errInvalidArgumentValue
      if ← isAllowed E mac.address then return .proceed (netif, mac.address, elems)
      else return .returns .errInvalidArgumentValue
  | _, _ => .ok (.returns .errInvalidArgumentValue)

/-- `ampe_set_peer_ies`, and the station for a candidate that authsae knows. -/
def admitCandidate (netif : MeshNetif) (peer : MacAddress) (elems : InfoElems) :
    Action State Failure := fun s =>
  match s.find E peer false with
  | none => skip s
  | some cand =>
    andThen (modify (·.update cand.id fun c => { c with ies := elems }))
      (ensureStation E netif peer elems cand) s

/-- `handleNewCandidate`. The calls are what authsae does with the beacon, and `failed` what
`process_mgmt_frame` returns. -/
def handleNewCandidate (calls : List AuthsaeCall) (failed : Bool) (wiphy : Option ℕ)
    (mac : Option MacAttr) (ie : Option InfoElems) : Action State Failure :=
  match checkCandidate E wiphy mac ie with
  | .error e => fail e
  | .ok (.returns _) => skip
  | .ok (.proceed (netif, peer, elems)) =>
    andThen (forEach (AuthsaeCall.run E) calls) <|
      if failed then skip else admitCandidate E netif peer elems

/-- The checks of `handleDeletedPeer`. -/
def checkDeleted (ifIndex : Option UInt32) (mac : Option MacAttr) :
    Except Failure (Verdict MacAddress) :=
  match ifIndex with
  | none => .error .nullPointer
  | some i =>
    if i ≠ E.ifIndex then .ok (.returns .errIfindexNotFound)
    else match mac with
      | some mac => .ok (if mac.len = 6 then .proceed mac.address else .returns .errNetlinkOther)
      | none => .ok (.returns .errNetlinkOther)

/-- `handleDeletedPeer`. The calls are what `ampe_close_peer_link` does. -/
def handleDeletedPeer (close : List AuthsaeCall) (ifIndex : Option UInt32) (mac : Option MacAttr) :
    Action State Failure :=
  match checkDeleted E ifIndex mac with
  | .error e => fail e
  | .ok (.returns _) => skip
  | .ok (.proceed peer) => fun s =>
    match s.find E peer false with
    | none => skip s
    | some cand => andThen (forEach (AuthsaeCall.run E) close) (modify (·.delete cand.id)) s

/-- `PLINK_CLOSE`, as an action code. -/
def PLINK_CLOSE : UInt8 := 3

/-- `IEEE802_11_FC_GET_TYPE`. -/
def frameType (frameControl : UInt16) : UInt16 := (frameControl >>> 2) &&& 3

/-- `IEEE802_11_FC_GET_STYPE`. -/
def frameSubtype (frameControl : UInt16) : UInt16 := (frameControl >>> 4) &&& 15

/-- The frame is handed to authsae: an action or authentication frame that is strong enough, or
whose byte in the place of the action code closes a link. -/
def passesFilter (frame : MgmtFrame) (rxSignalDbm : Option Int32) : Bool :=
  frame.len ≠ 0 && frameType frame.frameControl = 0 &&
    (frameSubtype frame.frameControl = 13 || frameSubtype frame.frameControl = 11) &&
    !(rxSignalDbm.getD 0 < E.rssiThreshold &&
      !(E.mgmtFrameSize ≤ frame.len && frame.actionCode = PLINK_CLOSE))

/-- `processEvent`. What `process_mgmt_frame` returns for a frame is only reported. -/
def processEvent (calls : List AuthsaeCall) (failed : Bool) (close : List AuthsaeCall)
    (event : Event) : Action State Failure :=
  if event.wiphy.any fun phyIndex => (E.netifs.find? (·.phyIndex = phyIndex)).isNone then skip
  else match event.command with
    | .newPeerCandidate mac ie => handleNewCandidate E calls failed event.wiphy mac ie
    | .frame (some frame) rxSignalDbm =>
      if passesFilter E frame rxSignalDbm then forEach (AuthsaeCall.run E) calls else skip
    | .frame none _ => skip
    | .frameTxStatus => skip
    | .delStation ifIndex mac => handleDeletedPeer E close ifIndex mac
    | .other => skip

/-! ### Runs -/

/-- What happens next. -/
inductive Move where
  /-- The next message of the event socket is read. -/
  | handle (calls : List AuthsaeCall) (failed : Bool) (close : List AuthsaeCall)
  /-- A timer of authsae expires. -/
  | timer (calls : List AuthsaeCall)
  /-- The kernel reports something else than a deleted station of the mesh interface. -/
  | announce (event : Event)
  /-- The kernel gives up a station by itself. -/
  | expire (peer : MacAddress)
  /-- The event socket overflows, and one of its messages is lost. -/
  | lose (i : ℕ)

/-- The message reports a deleted station of the mesh interface. -/
def Event.deletes (e : Event) : Option MacAddress :=
  match e.command with
  | .delStation (some i) (some mac) => if i = E.ifIndex then some mac.address else none
  | _ => none

/-- One move, with the failure that it ends with. -/
def step (m : Move) : Action State Failure := fun s =>
  match m with
  | .handle calls failed close =>
    match s.events with
    | [] => skip s
    | e :: events => processEvent E calls failed close e { s with events }
  | .timer calls => forEach (AuthsaeCall.run E) calls s
  | .announce e =>
    if (e.deletes E).isSome then skip s else ({ s with events := s.events ++ [e] }, none)
  | .expire peer => (s.removeStation E peer, none)
  | .lose i => ({ s with events := s.events.eraseIdx i }, none)

/-! ### What is known of authsae -/

/-- authsae gives up no candidate that is marked as known to the kernel. -/
def AuthsaeCall.KeepsMarked : AuthsaeCall → State → Prop
  | .discard id, s => ∀ c ∈ s.peers, c.id = id → c.inKernel = false
  | _, _ => True

/-- authsae has one candidate for an address. -/
def AuthsaeCall.TakesOnce : AuthsaeCall → State → Prop
  | .create peer _, s => ∀ c ∈ s.peers, c.peerMac ≠ peer
  | _, _ => True

/-- The calls that `ampe_close_peer_link` makes. -/
def AuthsaeCall.isClosing : AuthsaeCall → Bool
  | .meshdWriteMgmt _ | .setPlinkState .. => true
  | _ => false

/-- Each call of authsae in a move satisfies `P` when it is made, and closing a link does nothing
else than to send frames and to set the state of links. -/
def Move.Obeys (P : AuthsaeCall → State → Prop) (s : State) : Move → Prop
  | .handle calls _ close => Along P (AuthsaeCall.run E) calls { s with events := s.events.tail } ∧
      ∀ c ∈ close, c.isClosing = true
  | .timer calls => Along P (AuthsaeCall.run E) calls s
  | _ => True

/-- The states that moves of a kind lead to. -/
inductive Reachable (allowed : State → Move → Prop) : State → Prop where
  | start : Reachable allowed {}
  | move {s : State} {m : Move} : Reachable allowed s → allowed s m →
      Reachable allowed (step E m s).1

end Peering

end Fbmeshd
