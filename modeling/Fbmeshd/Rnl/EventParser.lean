import Fbmeshd.Rnl.ProtocolSocket
import Fbmeshd.Rnl.RouteParser

/-!
# Parsing what the kernel sends

`NetlinkProtocolSocket::processMessage` walks over the messages of a receive buffer and hands
each to the parser of its type. The number of bytes that remain is a `uint32_t`.
-/

namespace Fbmeshd

open Bytes Reader

namespace NetlinkLinkMessage

/-- The body of the loop of `parseMessage`. The name is a C string. -/
def parseLinkAttribute (fuel : ℕ) (linkAttr : Rtattr) (link : Link) : Reader Link :=
  if linkAttr.type = IFLA_IFNAME then do
    let linkName ← cstringAt fuel linkAttr.data
    pure { link with linkName }
  else pure link

/-- `parseMessage` of the message at an offset. -/
def parseMessage (fuel : ℕ) (nlmsg : ℕ) : Reader Link := do
  let nlmsgLen ← u32At nlmsg
  let ifIndex ← u32At (nlmsg + 20)
  let flags ← u32At (nlmsg + 24)
  Rtattr.walk (parseLinkAttribute fuel) fuel (nlmsg + 32) (sub64 nlmsgLen 32)
    { ifIndex := .ofNat ifIndex, flags := .ofNat flags }

end NetlinkLinkMessage

namespace NetlinkAddrMessage

/-- The body of the loop of `parseMessage`. -/
def parseAddrAttribute (family prefixLen : UInt8) (addrAttr : Rtattr) (addr : IfAddress) :
    Reader IfAddress :=
  if addrAttr.type = IFA_ADDRESS then do
    let ipAddress ← ipAddressAt addrAttr.data family
    pure (ipAddress.elim addr fun ip => { addr with addrPrefix := some (ip, prefixLen) })
  else pure addr

/-- `parseMessage` of the message at an offset. -/
def parseMessage (fuel : ℕ) (nlmsg : ℕ) : Reader IfAddress := do
  let nlmsgLen ← u32At nlmsg
  let nlmsgType ← u16At (nlmsg + 4)
  let family ← u8At (nlmsg + 16)
  let prefixLen ← u8At (nlmsg + 17)
  let scope ← u8At (nlmsg + 19)
  let ifIndex ← u32At (nlmsg + 20)
  Rtattr.walk (parseAddrAttribute family prefixLen) fuel (nlmsg + 24) (sub64 nlmsgLen 24)
    { ifIndex := .ofNat ifIndex, scope := some scope, isValid := nlmsgType = RTM_NEWADDR }

end NetlinkAddrMessage

namespace NetlinkNeighborMessage

/-- The body of the loop of `parseMessage`. -/
def parseNeighborAttribute (family : UInt8) (neighAttr : Rtattr) (neighbor : Neighbor) :
    Reader Neighbor :=
  if neighAttr.type = NDA_DST then do
    let ipAddress ← ipAddressAt neighAttr.data family
    pure (ipAddress.elim neighbor fun ip => { neighbor with destination := ip })
  else if neighAttr.type = NDA_LLADDR then do
    let macAddress ← bytesVectorAt neighAttr.data 6
    pure { neighbor with linkAddress := some macAddress }
  else pure neighbor

/-- `parseMessage` of the message at an offset. -/
def parseMessage (fuel : ℕ) (nlmsg : ℕ) : Reader Neighbor := do
  let nlmsgLen ← u32At nlmsg
  let nlmsgType ← u16At (nlmsg + 4)
  let family ← u8At (nlmsg + 16)
  let ifIndex ← u32At (nlmsg + 20)
  let state ← u16At (nlmsg + 24)
  let isDeleted := nlmsgType = RTM_DELNEIGH
  Rtattr.walk (parseNeighborAttribute family) fuel (nlmsg + 28) (sub64 nlmsgLen 28)
    { ifIndex := .ofNat ifIndex, state := some state
      isReachable := ¬ isDeleted ∧ state ∈ kNeighborReachableStates }

end NetlinkNeighborMessage

/-- What `processMessage` finds in a message, with its sequence number where it is looked up. -/
inductive NlMessage where
  | route (seq : UInt32) (route : Route)
  | link (seq : UInt32) (link : Link)
  | addr (seq : UInt32) (addr : IfAddress)
  | neighbor (seq : UInt32) (neighbor : Neighbor)
  /-- An `NLMSG_ERROR` for a request of another process. -/
  | foreignAck
  | ack (seq : UInt32) (error : ℤ)
  | noop
  | done (seq : UInt32)
  | unknown
  deriving DecidableEq

namespace NetlinkProtocolSocket

/-- The case `NLMSG_ERROR` of `processMessage`. -/
def parseAck (pid : UInt32) (nlh : ℕ) : Reader NlMessage := do
  let ackPid ← u32At (nlh + 32)
  if UInt32.ofNat ackPid ≠ pid then pure .foreignAck
  else do
    let error ← u32At (nlh + 16)
    let seq ← u32At (nlh + 28)
    pure (.ack (.ofNat seq) (BitVec.ofNat 32 error).toInt)

/-- The cases of `processMessage`. -/
def parseNlMessage (pid : UInt32) (fuel : ℕ) (nlh : ℕ) : Reader NlMessage := do
  let nlmsgType ← u16At (nlh + 4)
  let nlmsgSeq ← u32At (nlh + 8)
  let seq := UInt32.ofNat nlmsgSeq
  if nlmsgType = RTM_NEWROUTE ∨ nlmsgType = RTM_DELROUTE then do
    let route ← NetlinkRouteMessage.parseMessage fuel nlh
    pure (.route seq route)
  else if nlmsgType = RTM_DELLINK ∨ nlmsgType = RTM_NEWLINK then do
    let link ← NetlinkLinkMessage.parseMessage fuel nlh
    pure (.link seq link)
  else if nlmsgType = RTM_DELADDR ∨ nlmsgType = RTM_NEWADDR then do
    let addr ← NetlinkAddrMessage.parseMessage fuel nlh
    pure (.addr seq addr)
  else if nlmsgType = RTM_DELNEIGH ∨ nlmsgType = RTM_NEWNEIGH then do
    let neighbor ← NetlinkNeighborMessage.parseMessage fuel nlh
    pure (.neighbor seq neighbor)
  else if nlmsgType = NLMSG_ERROR then parseAck pid nlh
  else if nlmsgType = NLMSG_NOOP then pure .noop
  else if nlmsgType = NLMSG_DONE then pure (.done seq)
  else pure .unknown

/-- `NLMSG_ALIGN` of a `uint32_t`. -/
def nlmsgAlign (n : ℕ) : ℕ := align4 n % 2 ^ 32

/-- The loop of `processMessage` from a message on, with the bytes that remain. -/
def messagesLoop (pid : UInt32) (fuel : ℕ) : ℕ → ℕ → ℕ → Reader (List NlMessage)
  | 0, _, _ => abort .outOfFuel
  | loopFuel + 1, nlh, bytesRead =>
    if bytesRead < 16 then pure []
    else do
      let nlmsgLen ← u32At nlh
      if nlmsgLen < 16 ∨ bytesRead < nlmsgLen then pure []
      else do
        let message ← parseNlMessage pid fuel nlh
        let rest ← messagesLoop pid fuel loopFuel (nlh + nlmsgAlign nlmsgLen)
          (sub32 bytesRead (nlmsgAlign nlmsgLen))
        pure (message :: rest)

/-- The messages that `processMessage` handles, in order. -/
def parseMessages (pid : UInt32) (fuel : ℕ) (bytesRead : ℕ) : Reader (List NlMessage) :=
  messagesLoop pid fuel fuel 0 bytesRead

variable {μ : Type*}

/-- What `processMessage` does with a message to the request queue and to `routeCache_`. -/
def handleMessage (now : ℤ) (s : NetlinkProtocolSocket μ × List Route) :
    NlMessage → NetlinkProtocolSocket μ × List Route
  | .route seq route => if (s.1.nlSeqNoMap seq).isSome then (s.1, s.2 ++ [route]) else s
  | .ack seq error => (processError now s.1.pid seq error s.1, s.2)
  | .done seq => (processDone now seq s.1, s.2)
  | .unknown => ({ s.1 with errors := s.1.errors + 1 }, s.2)
  | .link _ _ | .addr _ _ | .neighbor _ _ | .foreignAck | .noop => s

/-- `processMessage`. -/
def processMessage (now : ℤ) (fuel : ℕ) (rxMsg : Memory) (bytesRead : ℕ)
    (s : NetlinkProtocolSocket μ × List Route) :
    Except Abort (NetlinkProtocolSocket μ × List Route) :=
  ((parseMessages s.1.pid fuel bytesRead).eval rxMsg).map (List.foldl (handleMessage now) s)

end NetlinkProtocolSocket

end Fbmeshd
