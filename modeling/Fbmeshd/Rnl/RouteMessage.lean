import Fbmeshd.Lib.Rtattr
import Fbmeshd.Rnl.Types

/-!
# Building route messages

`NetlinkRouteMessage::addRoute`, `addLabelRoute` and their relatives write a message into a buffer
that is all zero at first. The next hops are assembled in a second buffer, which holds one
attribute and is copied into the message in the end. All lengths live in the buffers and are
updated there as the source updates them.
-/

namespace Fbmeshd

open Bytes

/-- How building a message fails: with a status, with the exception of an empty
`folly::Optional` or an empty address, or in a `CHECK`. -/
inductive EncodeFailure where
  | status (code : ResultCode)
  | optionalEmpty
  | invalidAddressFamily
  | checkFailed
  deriving DecidableEq

/-- `folly::Optional::value`. -/
def optionalValue {α : Type} : Option α → Except EncodeFailure α
  | some a => .ok a
  | none => .error .optionalEmpty

/-- Whether `folly::IPAddress::bytes` throws for an empty address, which folly decides. If it does
not, there are no bytes. -/
class EmptyBytes where
  throws : Bool

/-- It throws, as `doHandleRouteEvent` expects of an empty address. -/
instance (priority := low) EmptyBytes.throwing : EmptyBytes := ⟨true⟩

/-- `folly::IPAddress::bytes`. -/
def IPAddress.bytes? [EmptyBytes] : IPAddress → Except EncodeFailure (List UInt8)
  | .empty => if EmptyBytes.throws then .error .invalidAddressFamily else .ok []
  | .v4 b => .ok b.toList
  | .v6 b _ => .ok b.toList

namespace NetlinkRouteMessage

/-- `addSubAttributes` to the attribute at the start of a buffer. Every caller turns the null
pointer into `NO_MESSAGE_BUFFER`. The offset of the new attribute is returned too. -/
def addSubAttributes (rta : Buffer) (type : ℕ) (data : List UInt8) :
    Except EncodeFailure (Buffer × ℕ) :=
  let rtaLen := rta.u16 0
  let subRtaLen := 4 + data.length
  if align4 rtaLen + align4 subRtaLen > kMaxNlPayloadSize then
    .error (.status .NO_MESSAGE_BUFFER)
  else
    let subrta := align4 rtaLen
    let rta := rta.write subrta (le16 subRtaLen ++ le16 type ++ data)
    .ok (rta.write 0 (le16 (align4 rtaLen + align4 subRtaLen)), subrta)

/-- `addAttributes` to the message in a buffer. -/
def addAttributes (type : ℕ) (data : List UInt8) (msg : Buffer) : Except EncodeFailure Buffer :=
  let rtaLen := 4 + data.length
  let nlmsgAlen := align4 (msg.u32 0)
  if nlmsgAlen + align4 rtaLen > kMaxNlPayloadSize then .error (.status .NO_MESSAGE_BUFFER)
  else
    let msg := msg.write nlmsgAlen (le16 rtaLen ++ le16 type ++ data)
    .ok (msg.write 0 (le32 (nlmsgAlen + align4 rtaLen)))

/-- `encodeLabel`, before the conversion to network order. -/
def encodeLabel (label : UInt32) (bos : Bool) : ℕ :=
  let label := if label.toNat > 0xFFFFF then 0 else label.toNat
  label <<< kLabelShift ||| if bos then 1 <<< kLabelBosShift else 0

/-- The label stack of `addLabelNexthop`; the last entry is the bottom of the stack. -/
def encodeLabels : List UInt32 → List UInt8
  | [] => []
  | label :: labels => beBytes32 (encodeLabel label labels.isEmpty) ++ encodeLabels labels

/-- `rtnh->rtnh_len += n`. -/
def growRtnh (rta : Buffer) (rtnh n : ℕ) : Buffer := rta.write rtnh (le16 (rta.u16 rtnh + n))

/-- The fields of a next hop as every `add…Nexthop` sets them first. -/
def setRtnh (rta : Buffer) (rtnh : ℕ) (ifIndex : Option UInt32) : Buffer :=
  let rta := rta.write rtnh (le16 8)
  let rta := ifIndex.elim rta fun i => rta.write (rtnh + 4) (le32 i.toNat)
  rta.write (rtnh + 2) [0, 0]

/-- The attribute `RTA_GATEWAY` at the end of `addIpNexthop` and `addLabelNexthop`. -/
def addGateway [EmptyBytes] (rta : Buffer) (rtnh : ℕ) (via : IPAddress) :
    Except EncodeFailure Buffer := do
  let bytes ← via.bytes?
  let (rta, _) ← addSubAttributes rta RTA_GATEWAY bytes
  .ok (growRtnh rta rtnh (bytes.length + 4))

/-- `addIpNexthop`. -/
def addIpNexthop [EmptyBytes] (rta : Buffer) (rtnh : ℕ) (path : NextHop) (route : Route) :
    Except EncodeFailure Buffer :=
  let rta := setRtnh rta rtnh path.ifIndex
  match path.gateway with
  | none =>
    if route.type = RTN_MULTICAST ∨ route.scope = RT_SCOPE_LINK then .ok rta
    else .error (.status .NO_NEXTHOP_IP)
  | some via => addGateway rta rtnh via

/-- The attribute `RTA_NEWDST` of `addSwapOrPHPNexthop`, if there is a label to swap in. -/
def addSwapLabel (rta : Buffer) : Option UInt32 → Except EncodeFailure Buffer
  | none => .ok rta
  | some label =>
    (addSubAttributes rta RTA_NEWDST (beBytes32 (encodeLabel label true))).map Prod.fst

/-- `addSwapOrPHPNexthop`. The length of the next hop grows by the padded `RTA_NEWDST` and by
`RTA_VIA` without its padding. -/
def addSwapOrPHPNexthop [EmptyBytes] (rta : Buffer) (rtnh : ℕ) (path : NextHop) :
    Except EncodeFailure Buffer := do
  let ifIndex ← optionalValue path.ifIndex
  let rta := setRtnh rta rtnh (some ifIndex)
  let prevLen := rta.u16 0
  let rta ← addSwapLabel rta path.swapLabel
  let rta := growRtnh rta rtnh (rta.u16 0 - prevLen)
  let gw ← optionalValue path.gateway
  let ip ← gw.bytes?
  let via := le16 path.getFamily.toNat ++ ip
  let (rta, _) ← addSubAttributes rta RTA_VIA via
  .ok (growRtnh rta rtnh (via.length + 4))

/-- `addPopNexthop`. -/
def addPopNexthop (rta : Buffer) (rtnh : ℕ) (path : NextHop) : Except EncodeFailure Buffer :=
  match path.ifIndex with
  | none => .error (.status .NO_LOOPBACK_INDEX)
  | some ifIndex => do
    let rta := setRtnh rta rtnh (some ifIndex)
    let (rta, _) ← addSubAttributes rta RTA_OIF (le32 ifIndex.toNat)
    .ok (growRtnh rta rtnh (4 + 4))

/-- `addLabelNexthop`. -/
def addLabelNexthop [EmptyBytes] (rta : Buffer) (rtnh : ℕ) (path : NextHop) :
    Except EncodeFailure Buffer := do
  let ifIndex ← optionalValue path.ifIndex
  let rta := setRtnh rta rtnh (some ifIndex)
  let prevLen := rta.u16 0
  let (rta, rtaEncap) ← addSubAttributes rta RTA_ENCAP []
  match path.pushLabels with
  | none => .error (.status .NO_LABEL)
  | some labels =>
    if labels.length > kMaxLabels then .error .checkFailed
    else do
      let (rta, _) ← addSubAttributes rta MPLS_IPTUNNEL_DST (encodeLabels labels)
      let rta := rta.write rtaEncap (le16 (align4 (rta.u16 0) - prevLen))
      let (rta, _) ← addSubAttributes rta RTA_ENCAP_TYPE (le16 LWTUNNEL_ENCAP_MPLS)
      let rta := growRtnh rta rtnh (rta.u16 0 - prevLen)
      match path.gateway with
      | none => .error (.status .NO_NEXTHOP_IP)
      | some via => addGateway rta rtnh via

/-- The `switch` of `addMultiPathNexthop`. -/
def addNexthop [EmptyBytes] (rta : Buffer) (rtnh : ℕ) (path : NextHop) (route : Route) :
    Except EncodeFailure Buffer :=
  match path.labelAction with
  | some .PUSH => addLabelNexthop rta rtnh path
  | some .SWAP | some .PHP => addSwapOrPHPNexthop rta rtnh path
  | some .POP_AND_LOOKUP => addPopNexthop rta rtnh path
  | none => addIpNexthop rta rtnh path route

/-- The loop of `addMultiPathNexthop`, with the offset of the next hop to come. -/
def addPaths [EmptyBytes] (route : Route) : List NextHop → Buffer → ℕ → Except EncodeFailure Buffer
  | [], rta, _ => .ok rta
  | path :: paths, rta, rtnh => do
    let rta := rta.write rtnh (le16 8)
    let rta := rta.write 0 (le16 (rta.u16 0 + rta.u16 rtnh))
    let rta ← addNexthop rta rtnh path route
    addPaths route paths rta (rtnh + align4 (rta.u16 rtnh))

/-- `addMultiPathNexthop`, for the next hops in the order of iteration. -/
def addMultiPathNexthop [EmptyBytes] (route : Route) (paths : List NextHop) :
    Except EncodeFailure Buffer :=
  addPaths route paths (le16 4 ++ le16 RTA_MULTIPATH) 4

/-- `addNextHops`. -/
def addNextHops [EmptyBytes] (route : Route) (paths : List NextHop) (msg : Buffer) :
    Except EncodeFailure Buffer :=
  if paths.length = 0 then .ok msg
  else do
    let nhop ← addMultiPathNexthop route paths
    addAttributes RTA_MULTIPATH (slice (ofBytes nhop) 4 (nhop.u16 0 - 4)) msg

/-- `init`. -/
def init (msg : Buffer) (type : ℕ) (rtFlags : UInt32) (route : Route) : Buffer :=
  if type ≠ RTM_NEWROUTE ∧ type ≠ RTM_DELROUTE ∧ type ≠ RTM_GETROUTE then msg
  else
    let flags := NLM_F_REQUEST ||| NLM_F_ACK
    let flags := if type = RTM_GETROUTE then flags ||| NLM_F_DUMP else flags
    let flags := if type ≠ RTM_DELROUTE then flags ||| NLM_F_CREATE else flags
    let flags := if route.type ≠ RTN_MULTICAST then flags ||| NLM_F_REPLACE else flags
    let msg := msg.write 0 (le32 28 ++ le16 type ++ le16 flags)
    -- rtm_src_len, rtm_tos, rtm_table, rtm_protocol, rtm_scope and rtm_type, then rtm_flags
    msg.write 18 ([0, 0, RT_TABLE_MAIN, route.protocolId, RT_SCOPE_UNIVERSE, route.type] ++
      le32 (rtFlags ||| route.flags.getD 0).toNat)

/-- `rtm_family` and `rtm_dst_len`. -/
def setFamily (msg : Buffer) (family dstLen : UInt8) : Buffer := msg.write 16 [family, dstLen]

/-- The attribute `RTA_PRIORITY` of `addRoute`. -/
def addPriority (msg : Buffer) : Option UInt32 → Except EncodeFailure Buffer
  | none => .ok msg
  | some adminDistance => addAttributes RTA_PRIORITY (le32 adminDistance.toNat) msg

/-- `addRoute`, for the next hops in the order of iteration. -/
def addRoute [EmptyBytes] (route : Route) (paths : List NextHop) : Except EncodeFailure Buffer :=
  if route.family ≠ AF_INET ∧ route.family ≠ AF_INET6 then
    .error (.status .INVALID_ADDRESS_FAMILY)
  else do
    let msg := setFamily (init [] RTM_NEWROUTE 0 route) route.family route.dst.2
    let ip ← route.dst.1.bytes?
    let msg ← addAttributes RTA_DST ip msg
    let msg ← addPriority msg route.priority
    addNextHops route paths msg

/-- `deleteRoute`. -/
def deleteRoute [EmptyBytes] (route : Route) : Except EncodeFailure Buffer :=
  if route.family ≠ AF_INET ∧ route.family ≠ AF_INET6 then
    .error (.status .INVALID_ADDRESS_FAMILY)
  else do
    let msg := setFamily (init [] RTM_DELROUTE 0 route) route.family route.dst.2
    let ip ← route.dst.1.bytes?
    addAttributes RTA_DST ip msg

/-- The header of a label route, whose flags are cleared. -/
def initLabelRoute (type : ℕ) (route : Route) : Buffer :=
  (setFamily (init [] type 0 route) AF_MPLS (.ofNat kLabelSizeBits)).write 24 (le32 0)

/-- `addLabelRoute`, for the next hops in the order of iteration. -/
def addLabelRoute [EmptyBytes] (route : Route) (paths : List NextHop) :
    Except EncodeFailure Buffer :=
  let msg := initLabelRoute RTM_NEWROUTE route
  if route.family ≠ AF_MPLS then .error (.status .INVALID_ADDRESS_FAMILY)
  else
    match route.mplsLabel with
    | none => .error (.status .NO_LABEL)
    | some label => do
      let msg ← addAttributes RTA_DST (beBytes32 (encodeLabel label true)) msg
      addNextHops route paths msg

/-- `deleteLabelRoute`. -/
def deleteLabelRoute (route : Route) : Except EncodeFailure Buffer :=
  let msg := initLabelRoute RTM_DELROUTE route
  match route.mplsLabel with
  | none => .error (.status .NO_LABEL)
  | some label => addAttributes RTA_DST (beBytes32 (encodeLabel label true)) msg

end NetlinkRouteMessage

end Fbmeshd
