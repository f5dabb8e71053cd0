import Fbmeshd.Lib.Rtattr
import Fbmeshd.Rnl.Types

/-!
# Parsing route messages

`NetlinkRouteMessage::parseMessage` and the functions it calls, as readers of memory. The
lengths of the three levels of attribute lists have the types of the source: `size_t` for
those of the message and of a next hop, `int` for those of a label stack and for the next hops
themselves. Fixed fields of the message header are read at the start.
-/

namespace Fbmeshd

open Bytes Reader

/-- An address of `n` bytes. -/
def bytesVectorAt (o n : ℕ) : Reader (List.Vector UInt8 n) :=
  read o n fun m => ⟨slice m o n, length_slice m o n⟩

/-- The address of a family, if it is one of the two with addresses. -/
def ipAddressAt (o : ℕ) (family : UInt8) : Reader (Option IPAddress) :=
  if family = AF_INET then do
    let addr4 ← bytesVectorAt o 4
    pure (some (.v4 addr4))
  else if family = AF_INET6 then do
    let addr6 ← bytesVectorAt o 16
    pure (some (.v6 addr6 0))
  else pure none

/-- `ntohl(entry) >> kLabelShift`. -/
def labelAt (o : ℕ) : Reader UInt32 := do
  let entry ← be32At o
  pure (.ofNat (entry / 2 ^ kLabelShift))

namespace NetlinkRouteMessage

/-- `parseIp`. -/
def parseIp (ipAttr : Rtattr) (family : UInt8) : Reader (Option IPAddress) :=
  ipAddressAt ipAttr.data family

/-- The labels of an attribute `MPLS_IPTUNNEL_DST`. -/
def readLabels (o : ℕ) : ℕ → Reader (List UInt32)
  | 0 => pure []
  | n + 1 => do
    let label ← labelAt o
    let rest ← readLabels (o + 4) n
    pure (label :: rest)

/-- `RTA_PAYLOAD(mplsAttr) / sizeof(struct mpls_label)` as an `int`. -/
def numLabels (rtaLen : ℕ) : ℤ := if rtaLen < 4 then -1 else ((rtaLen - 4) / 4 : ℕ)

/-- The loop of `parseMplsLabels`, which looks at an attribute before it tests the bound. -/
def mplsLabelsLoop : ℕ → ℕ → ℤ → Reader (Option (List UInt32))
  | 0, _, _ => abort .outOfFuel
  | fuel + 1, o, len => do
    let type ← u16At (o + 2)
    let rtaLen ← u16At o
    if type = MPLS_IPTUNNEL_DST then
      if (kMaxLabels : ℤ) < numLabels rtaLen then abort .checkFailed
      else do
        let labels ← within (o + rtaLen) (readLabels (o + 4) (numLabels rtaLen).toNat)
        pure (some labels)
    else
      let next := o + align4 rtaLen
      let rest := len - align4 rtaLen
      if rest < 4 then pure none
      else do
        let nextLen ← u16At next
        if nextLen < 4 ∨ rest < nextLen then pure none else mplsLabelsLoop fuel next rest

/-- `parseMplsLabels`. -/
def parseMplsLabels (fuel : ℕ) (routeAttr : Rtattr) : Reader (Option (List UInt32)) :=
  mplsLabelsLoop fuel routeAttr.data (routeAttr.len - 4)

/-- `parseNextHopAttribute`. -/
def parseNextHopAttribute (fuel : ℕ) (family : UInt8) (routeAttr : Rtattr) (nh : NextHop) :
    Reader NextHop :=
  if routeAttr.type = RTA_GATEWAY then do
    let ipAddress ← parseIp routeAttr family
    pure (ipAddress.elim nh fun ip => { nh with gateway := some ip })
  else if routeAttr.type = RTA_VIA then
    if routeAttr.len > 16 then do
      let ip ← bytesVectorAt (routeAttr.data + 2) 16
      pure { nh with gateway := some (.v6 ip 0) }
    else do
      let ip ← bytesVectorAt (routeAttr.data + 2) 4
      pure { nh with gateway := some (.v4 ip) }
  else if routeAttr.type = RTA_OIF then do
    let ifIndex ← u32At routeAttr.data
    pure { nh with ifIndex := some (.ofNat ifIndex) }
  else if routeAttr.type = RTA_ENCAP then do
    let pushLabels ← parseMplsLabels fuel routeAttr
    pure (pushLabels.elim nh fun labels => { nh with pushLabels := some labels })
  else if routeAttr.type = RTA_NEWDST then do
    let swapLabel ← labelAt routeAttr.data
    pure { nh with swapLabel := some swapLabel }
  else pure nh

/-- `setMplsAction`. -/
def setMplsAction (nh : NextHop) (family : UInt8) : NextHop :=
  if nh.pushLabels ≠ none then { nh with labelAction := some .PUSH }
  else if family = AF_MPLS then
    if nh.gateway ≠ none ∧ nh.swapLabel ≠ none then { nh with labelAction := some .SWAP }
    else if nh.gateway ≠ none ∧ nh.swapLabel = none then { nh with labelAction := some .PHP }
    else { nh with labelAction := some .POP_AND_LOOKUP }
  else nh

/-- The loop of `parseNextHops`, which looks at a next hop before it tests the bound. `RTNH_OK`
reads the length of the next hop before it compares anything. -/
def nextHopsLoop (fuel : ℕ) (family : UInt8) : ℕ → ℕ → ℤ → Reader (List NextHop)
  | 0, _, _ => abort .outOfFuel
  | loopFuel + 1, nh, nhLen => do
    let ifIndex ← u32At (nh + 4)
    let rtnhLen ← u16At nh
    let builder ← Rtattr.walk (parseNextHopAttribute fuel family) fuel (nh + 8)
      (sub64 rtnhLen 8) { ifIndex := some (.ofNat ifIndex) }
    let nextHop := setMplsAction builder family
    let next := nh + align4 rtnhLen
    let rest := nhLen - align4 rtnhLen
    let nextLen ← u16At next
    if 8 ≤ nextLen ∧ nextLen ≤ rest then do
      let nextHops ← nextHopsLoop fuel family loopFuel next rest
      pure (nextHop :: nextHops)
    else pure [nextHop]

/-- `parseNextHops`. -/
def parseNextHops (fuel : ℕ) (routeAttrMP : Rtattr) (family : UInt8) : Reader (List NextHop) :=
  nextHopsLoop fuel family fuel routeAttrMP.data (routeAttrMP.len - 4)

/-- The builders of `parseMessage`: the route, and the next hop of a route that has no list of
them. -/
structure RouteState where
  route : Route
  nhBuilder : NextHop := {}
  singleNextHopFlag : Bool := true

/-- The body of the loop of `parseMessage`. -/
def parseRouteAttribute (fuel : ℕ) (family dstLen : UInt8) (routeAttr : Rtattr)
    (st : RouteState) : Reader RouteState :=
  if routeAttr.type = RTA_DST then
    if family = AF_MPLS then do
      let mplsLabel ← labelAt routeAttr.data
      pure { st with route := { st.route with mplsLabel := some mplsLabel, family := AF_MPLS } }
    else do
      let ipAddress ← parseIp routeAttr family
      pure (ipAddress.elim st fun ip =>
        { st with route := { st.route with dst := (ip, dstLen), family := ip.family } })
  else if routeAttr.type = RTA_PRIORITY then do
    let priority ← u32At routeAttr.data
    pure { st with route := { st.route with priority := some (.ofNat priority) } }
  else if routeAttr.type = RTA_MULTIPATH then do
    let nextHops ← parseNextHops fuel routeAttr family
    pure { st with
      singleNextHopFlag := false
      route := { st.route with nextHops := st.route.nextHops ∪ nextHops.toFinset } }
  else do
    let nh ← parseNextHopAttribute fuel family routeAttr st.nhBuilder
    pure { st with nhBuilder := nh }

/-- The end of `parseMessage`. -/
def RouteState.build (st : RouteState) (family : UInt8) : Route :=
  if st.singleNextHopFlag then
    { st.route with nextHops := insert (setMplsAction st.nhBuilder family) st.route.nextHops }
  else st.route

/-- `parseMessage` of the message at an offset. -/
def parseMessage (fuel : ℕ) (nlmsg : ℕ) : Reader Route := do
  let nlmsgLen ← u32At nlmsg
  let nlmsgType ← u16At (nlmsg + 4)
  let family ← u8At (nlmsg + 16)
  let dstLen ← u8At (nlmsg + 17)
  let table ← u8At (nlmsg + 20)
  let protocol ← u8At (nlmsg + 21)
  let scope ← u8At (nlmsg + 22)
  let type ← u8At (nlmsg + 23)
  let flags ← u32At (nlmsg + 24)
  let route : Route :=
    { type, routeTable := table, protocolId := protocol, scope, flags := some (.ofNat flags)
      isValid := nlmsgType = RTM_NEWROUTE }
  let st ← Rtattr.walk (parseRouteAttribute fuel family dstLen) fuel (nlmsg + 28)
    (sub64 nlmsgLen 28) { route }
  pure (st.build family)

/-- The route of `parseMessage` before it looks at the attributes. -/
def headerRoute (m : Memory) (nlmsg : ℕ) : Route where
  type := m (nlmsg + 23)
  routeTable := m (nlmsg + 20)
  protocolId := m (nlmsg + 21)
  scope := m (nlmsg + 22)
  flags := some (.ofNat (u32 m (nlmsg + 24)))
  isValid := u16 m (nlmsg + 4) = RTM_NEWROUTE

/-- The parser walks over the attributes behind the header. -/
theorem eval_parseMessage (m : Memory) (fuel nlmsg : ℕ) :
    (parseMessage fuel nlmsg).eval m =
      ((Rtattr.walk (parseRouteAttribute fuel (m (nlmsg + 16)) (m (nlmsg + 17))) fuel (nlmsg + 28)
        (sub64 (u32 m nlmsg) 28) { route := headerRoute m nlmsg }).eval m).map
          (·.build (m (nlmsg + 16))) := by
  have hmap : ∀ r : Except Abort RouteState,
      (r.bind fun st => .ok (st.build (m (nlmsg + 16)))) = r.map (·.build (m (nlmsg + 16))) := by
    rintro (_ | _) <;> rfl
  simp only [parseMessage, eval_bind, eval_u8At, eval_u16At, eval_u32At, eval_pure, headerRoute,
    ← hmap]
  simp only [Except.bind]

end NetlinkRouteMessage

end Fbmeshd
