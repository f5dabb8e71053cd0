import Fbmeshd.Rnl.EncoderLimits

/-!
# Route attributes on their way to the kernel

A caller sets attributes on a `RouteBuilder`. `buildLinkRoute` copies what it takes over into a
second builder, whose route `NetlinkRouteMessage::addRoute` encodes. The message can hold the
flags, the type of service and the scope in its header, the priority as `RTA_PRIORITY`, and the
MTU and the MSS inside `RTA_METRICS`.
-/

namespace Fbmeshd

open Bytes

/-- The attribute `RTA_METRICS` and the metrics in it. -/
def RTA_METRICS : ℕ := 8
def RTAX_MTU : ℕ := 2
def RTAX_ADVMSS : ℕ := 8

/-- The attributes of a route that a caller may set. -/
structure RouteAttributes where
  priority : Option UInt32 := none
  mtu : Option UInt32 := none
  advMss : Option UInt32 := none
  tos : Option UInt8 := none
  flags : Option UInt32 := none
  deriving DecidableEq

def Route.attributes (route : Route) : RouteAttributes where
  priority := route.priority
  mtu := route.mtu
  advMss := route.advMss
  tos := route.tos
  flags := route.flags

/-- `rnl::RouteBuilder`. -/
structure RouteBuilder where
  type : UInt8 := RTN_UNICAST
  routeTable : UInt8 := RT_TABLE_MAIN
  protocolId : UInt8 := DEFAULT_PROTOCOL_ID
  scope : UInt8 := RT_SCOPE_UNIVERSE
  family : UInt8 := AF_UNSPEC
  isValid : Bool := false
  flags : Option UInt32 := none
  priority : Option UInt32 := none
  tos : Option UInt8 := none
  mtu : Option UInt32 := none
  advMss : Option UInt32 := none
  nextHops : Finset NextHop := ∅
  dst : CIDRNetwork := (.empty, 0)
  routeIfIndex : Option UInt32 := none
  routeIfName : Option String := none
  mplsLabel : Option UInt32 := none

namespace RouteBuilder

def attributes (builder : RouteBuilder) : RouteAttributes where
  priority := builder.priority
  mtu := builder.mtu
  advMss := builder.advMss
  tos := builder.tos
  flags := builder.flags

/-- `setDestination`, which also sets the family. -/
def setDestination (builder : RouteBuilder) (dst : CIDRNetwork) : RouteBuilder :=
  { builder with dst, family := dst.1.family }

/-- `setProtocolId`. -/
def setProtocolId (builder : RouteBuilder) (protocolId : UInt8) : RouteBuilder :=
  { builder with protocolId }

/-- `setScope`. -/
def setScope (builder : RouteBuilder) (scope : UInt8) : RouteBuilder := { builder with scope }

/-- `setType`. -/
def setType (builder : RouteBuilder) (type : UInt8) : RouteBuilder := { builder with type }

/-- `setMtu`. -/
def setMtu (builder : RouteBuilder) (mtu : UInt32) : RouteBuilder :=
  { builder with mtu := some mtu }

/-- `setAdvMss`. -/
def setAdvMss (builder : RouteBuilder) (advMss : UInt32) : RouteBuilder :=
  { builder with advMss := some advMss }

/-- `setRouteIfIndex`. -/
def setRouteIfIndex (builder : RouteBuilder) (ifIndex : UInt32) : RouteBuilder :=
  { builder with routeIfIndex := some ifIndex }

/-- `setRouteIfName`. -/
def setRouteIfName (builder : RouteBuilder) (ifName : String) : RouteBuilder :=
  { builder with routeIfName := some ifName }

/-- `addNextHop`. -/
def addNextHop (builder : RouteBuilder) (nextHop : NextHop) : RouteBuilder :=
  { builder with nextHops := insert nextHop builder.nextHops }

/-- `build`. -/
def build (builder : RouteBuilder) : Route where
  type := builder.type
  routeTable := builder.routeTable
  protocolId := builder.protocolId
  scope := builder.scope
  family := builder.family
  isValid := builder.isValid
  flags := builder.flags
  priority := builder.priority
  tos := builder.tos
  mtu := builder.mtu
  advMss := builder.advMss
  nextHops := builder.nextHops
  dst := builder.dst
  routeIfName := builder.routeIfName
  mplsLabel := builder.mplsLabel

/-- The route over one interface that `buildMulticastRoute` and `buildLinkRoute` build, with a
second builder. They differ in its scope and type. -/
def buildIfRoute (builder : RouteBuilder) (scope type : UInt8) : Except String Route :=
  match builder.routeIfIndex, builder.routeIfName with
  | some ifIndex, some ifName =>
    if ifIndex = 0 then .error "Iface index and Iface name must be set"
    else .ok <| RouteBuilder.build <|
      ({} : RouteBuilder).setDestination builder.dst
        |>.setProtocolId builder.protocolId
        |>.setScope scope
        |>.setType type
        |>.setRouteIfName ifName
        |>.addNextHop { ifIndex := some ifIndex }
  | _, _ => .error "Iface index and Iface name must be set"

/-- `buildMulticastRoute`. -/
def buildMulticastRoute (builder : RouteBuilder) : Except String Route :=
  builder.buildIfRoute builder.scope RTN_MULTICAST

/-- `buildLinkRoute`. -/
def buildLinkRoute (builder : RouteBuilder) : Except String Route :=
  builder.buildIfRoute RT_SCOPE_LINK RTN_UNICAST

/-- What a route over one interface takes over from the first builder. -/
def overInterface (builder : RouteBuilder) (scope type : UInt8) (ifIndex : UInt32)
    (ifName : String) : Route where
  dst := builder.dst
  family := builder.dst.1.family
  protocolId := builder.protocolId
  scope := scope
  type := type
  routeIfName := some ifName
  nextHops := {{ ifIndex := some ifIndex }}

/-- With an interface that has a name, the route is built. -/
theorem buildIfRoute_of_interface {builder : RouteBuilder} {ifIndex : UInt32} {ifName : String}
    (hindex : builder.routeIfIndex = some ifIndex) (hzero : ifIndex ≠ 0)
    (hname : builder.routeIfName = some ifName) (scope type : UInt8) :
    builder.buildIfRoute scope type = .ok (builder.overInterface scope type ifIndex ifName) := by
  simp only [buildIfRoute, hindex, hname, if_neg hzero]
  rfl

end RouteBuilder

/-! ### What a route message carries -/

namespace NetlinkRouteMessage

/-- The message has an attribute with this type and value. -/
def HasAttribute (b : Buffer) (type : ℕ) (value : List UInt8) : Prop :=
  Rtattr.Has (ofBytes b) 28 (b.u32 0 - 28) (type, value)

/-- The message has a metric with this value. -/
def HasMetric (b : Buffer) (metric : ℕ) (value : UInt32) : Prop :=
  Rtattr.HasNested (ofBytes b) 28 (b.u32 0 - 28) RTA_METRICS (metric, le32 value.toNat)

/-- `rtm_tos` of a message. -/
def rtmTos (b : Buffer) : UInt8 := ofBytes b 19

/-- `rtm_scope` of a message. -/
def rtmScope (b : Buffer) : UInt8 := ofBytes b 22

/-- `rtm_flags` of a message. -/
def rtmFlags (b : Buffer) : ℕ := b.u32 24

/-- The message contains every attribute that is set, with its value. -/
structure CarriesAttributes (b : Buffer) (x : RouteAttributes) : Prop where
  priority : ∀ p, x.priority = some p → HasAttribute b RTA_PRIORITY (le32 p.toNat)
  mtu : ∀ n, x.mtu = some n → HasMetric b RTAX_MTU n
  advMss : ∀ n, x.advMss = some n → HasMetric b RTAX_ADVMSS n
  tos : ∀ t, x.tos = some t → rtmTos b = t
  flags : ∀ f, x.flags = some f → rtmFlags b = f.toNat

/-- The message contains the scope of the route and every attribute that is set. -/
structure Carries (b : Buffer) (route : Route) : Prop where
  scope : rtmScope b = route.scope
  attributes : CarriesAttributes b route.attributes

section Contents

variable {b : Buffer} {header : List UInt8} {attrs : List (ℕ × List UInt8)} {route : Route}
  {paths : List NextHop}

private theorem Message.fits_attrs (h : Message b header attrs)
    (htypes : ∀ a ∈ attrs, a.1 < 2 ^ 16) :
    Rtattr.Fits attrs := by
  intro a ha
  have hmax : kMaxNlPayloadSize = 4096 := rfl
  have hsize := h.sizes a ha
  exact ⟨htypes a ha, by omega⟩

private theorem Message.hasAttribute_iff (h : Message b header attrs)
    (htypes : ∀ a ∈ attrs, a.1 < 2 ^ 16) {type : ℕ} {value : List UInt8} :
    HasAttribute b type value ↔ (type, value) ∈ attrs := by
  have hmax : kMaxNlPayloadSize = 4096 := rfl
  have hfits := h.fits
  rw [HasAttribute, h.u32_zero, Nat.add_sub_cancel_left]
  exact Rtattr.has_encodeAll_iff (h.holds_parts h.holds).2 (h.fits_attrs htypes) (by omega)

private theorem Message.not_hasMetric (h : Message b header attrs)
    (htypes : ∀ a ∈ attrs, a.1 < 2 ^ 16)
    (hmetrics : ∀ a ∈ attrs, a.1 ≠ RTA_METRICS) {metric : ℕ} {value : UInt32} :
    ¬ HasMetric b metric value := by
  have hmax : kMaxNlPayloadSize = 4096 := rfl
  have hfits := h.fits
  rw [HasMetric, h.u32_zero, Nat.add_sub_cancel_left]
  exact Rtattr.not_hasNested_encodeAll (h.holds_parts h.holds).2 (h.fits_attrs htypes) (by omega)
    hmetrics

/-- The attributes of a message of `addRoute` are the destination, the priority if there is one
and the next hops. -/
theorem addRoute_attrs [EmptyBytes] (hok : addRoute route paths = .ok b) :
    ∃ nlFlags rest, Message b
      (routeHeader nlFlags route.family route.dst.2 route (0 ||| route.flags.getD 0))
      ((RTA_DST, route.dst.1.bytes) :: priorityAttrs route.priority ++ rest) ∧
      ∀ a ∈ rest, a.1 = RTA_MULTIPATH := by
  obtain ⟨nlFlags, b₀, hmsg, hok⟩ := addRoute_eq_ok hok
  refine ⟨nlFlags, ?_⟩
  rw [addNextHops] at hok
  split at hok
  · obtain rfl := Except.ok.inj hok
    exact ⟨[], by rwa [List.append_nil], List.forall_mem_nil _⟩
  · obtain ⟨nhop, -, hok⟩ := Except.bind_eq_ok_iff.mp hok
    exact ⟨_, hmsg.addAttributes hok, List.forall_mem_singleton.mpr rfl⟩

private theorem rtmFields_of_message {nlFlags : ℕ} {family dstLen : UInt8} {rtFlags : UInt32}
    (h : Message b (routeHeader nlFlags family dstLen route rtFlags) attrs) :
    rtmTos b = 0 ∧ rtmScope b = RT_SCOPE_UNIVERSE ∧ rtmFlags b = rtFlags.toNat := by
  obtain ⟨-, h⟩ := holds_append.mp (h.holds_parts h.holds).1
  obtain ⟨-, h⟩ := holds_append.mp h
  obtain ⟨-, h⟩ := holds_append.mp h
  obtain ⟨-, h⟩ := holds_append.mp h
  obtain ⟨⟨-, htos, -, -, hscope, -⟩, hflags⟩ := holds_append.mp h
  exact ⟨htos, hscope, hflags.u32 (UInt32.toNat_lt _)⟩

/-- The scope of a route is not sent. -/
theorem rtmScope_addRoute [EmptyBytes] (hok : addRoute route paths = .ok b) :
    rtmScope b = RT_SCOPE_UNIVERSE := by
  obtain ⟨nlFlags, rest, hmsg, -⟩ := addRoute_attrs hok
  exact (rtmFields_of_message hmsg).2.1

private theorem le32_toNat_inj {p q : UInt32} : le32 p.toNat = le32 q.toNat ↔ p = q := by
  constructor
  · intro h
    have hp := (holds_ofBytes_self (le32 p.toNat)).u32 p.toNat_lt
    rw [h, (holds_ofBytes_self (le32 q.toNat)).u32 q.toNat_lt] at hp
    exact UInt32.toNat_inj.mp hp.symm
  · exact congrArg fun n : UInt32 => le32 n.toNat

private theorem mem_priorityAttrs {priority : Option UInt32} {p : UInt32} :
    (RTA_PRIORITY, le32 p.toNat) ∈ priorityAttrs priority ↔ priority = some p := by
  cases priority with
  | none => simp [priorityAttrs]
  | some q => simp [priorityAttrs, le32_toNat_inj, eq_comm]

/-- Of the attributes, a message carries the priority and the flags of its route. -/
theorem carriesAttributes_iff [EmptyBytes] (hok : addRoute route paths = .ok b)
    (x : RouteAttributes) :
    CarriesAttributes b x ↔
      (∀ p, x.priority = some p → route.priority = some p) ∧ x.mtu = none ∧ x.advMss = none ∧
        (∀ t, x.tos = some t → t = 0) ∧ ∀ f, x.flags = some f → f = route.flags.getD 0 := by
  obtain ⟨nlFlags, rest, hmsg, hrest⟩ := addRoute_attrs hok
  obtain ⟨htos, -, hflags⟩ := rtmFields_of_message hmsg
  have hknown : ∀ a ∈ (RTA_DST, route.dst.1.bytes) :: priorityAttrs route.priority ++ rest,
      a.1 = RTA_DST ∨ a.1 = RTA_PRIORITY ∨ a.1 = RTA_MULTIPATH := by
    intro a ha
    rcases List.mem_append.mp ha with ha | ha
    · rcases List.mem_cons.mp ha with rfl | ha
      · exact .inl rfl
      · exact .inr (.inl (type_of_mem_priorityAttrs ha))
    · exact .inr (.inr (hrest a ha))
  have htypes : ∀ a ∈ (RTA_DST, route.dst.1.bytes) :: priorityAttrs route.priority ++ rest,
      a.1 < 2 ^ 16 := fun a ha => by
    rcases hknown a ha with htype | htype | htype <;> rw [htype] <;> decide
  have hmetrics {metric : ℕ} {value : UInt32} : ¬ HasMetric b metric value :=
    hmsg.not_hasMetric htypes fun a ha => by
      rcases hknown a ha with htype | htype | htype <;> rw [htype] <;> decide
  have hpriority (p : UInt32) :
      HasAttribute b RTA_PRIORITY (le32 p.toNat) ↔ route.priority = some p := by
    rw [hmsg.hasAttribute_iff htypes, List.mem_append, List.mem_cons, mem_priorityAttrs]
    constructor
    · rintro ((hdst | hp) | hp)
      · cases congrArg Prod.fst hdst
      · exact hp
      · cases hrest _ hp
    · exact fun hp => .inl (.inr hp)
  have hflag (f : UInt32) : rtmFlags b = f.toNat ↔ f = route.flags.getD 0 := by
    rw [hflags, UInt32.zero_or, UInt32.toNat_inj, eq_comm]
  constructor
  · intro h
    refine ⟨fun p hp => (hpriority p).mp (h.priority p hp), ?_, ?_, fun t ht => ?_,
      fun f hf => (hflag f).mp (h.flags f hf)⟩
    · exact Option.eq_none_iff_forall_ne_some.mpr fun n hn => hmetrics (h.mtu n hn)
    · exact Option.eq_none_iff_forall_ne_some.mpr fun n hn => hmetrics (h.advMss n hn)
    · exact (h.tos t ht).symm.trans htos
  · rintro ⟨hp, hmtu, hadvMss, ht, hf⟩
    constructor
    · exact fun p hx => (hpriority p).mpr (hp p hx)
    · intro n hn
      cases hmtu.symm.trans hn
    · intro n hn
      cases hadvMss.symm.trans hn
    · exact fun t hx => htos.trans (ht t hx).symm
    · exact fun f hx => (hflag f).mpr (hf f hx)

end Contents

end NetlinkRouteMessage

/-! ### Link routes -/

private theorem IPAddress.family_of_ne {ip : IPAddress} (h : ip ≠ .empty) :
    ip.family = AF_INET ∨ ip.family = AF_INET6 := by
  cases ip with
  | empty => exact absurd rfl h
  | v4 b => exact .inl rfl
  | v6 b scopeId => exact .inr rfl

namespace RouteBuilder

open NetlinkRouteMessage

/-- `buildLinkRoute` keeps the attributes only if none is set, and the message of its route carries
the scope universe instead of link. -/
theorem buildLinkRoute_attributes [EmptyBytes] (builder : RouteBuilder) {ifIndex : UInt32}
    {ifName : String} (hdst : builder.dst.1 ≠ .empty) (hindex : builder.routeIfIndex = some ifIndex)
    (hzero : ifIndex ≠ 0) (hname : builder.routeIfName = some ifName) :
    ∃ route hop b, builder.buildLinkRoute = .ok route ∧ route.nextHops = {hop} ∧
      addRoute route [hop] = .ok b ∧
      route.scope = RT_SCOPE_LINK ∧
      (route.attributes = builder.attributes ↔ builder.attributes = {}) ∧
      CarriesAttributes b route.attributes ∧
      rtmScope b = RT_SCOPE_UNIVERSE ∧ ¬ Carries b route ∧
      (CarriesAttributes b builder.attributes ↔
        builder.priority = none ∧ builder.mtu = none ∧ builder.advMss = none ∧
          (∀ t, builder.tos = some t → t = 0) ∧ ∀ f, builder.flags = some f → f = 0) := by
  let route := builder.overInterface RT_SCOPE_LINK RTN_UNICAST ifIndex ifName
  let hop : NextHop := { ifIndex := some ifIndex }
  have hfree : ∀ path ∈ [hop], path.labelAction = none ∧ path.gateway = none :=
    List.forall_mem_singleton.mpr ⟨rfl, rfl⟩
  have hsize : routeSize route [hop] ≤ kMaxNlPayloadSize := by
    have hmax : kMaxNlPayloadSize = 4096 := rfl
    have hlen : route.dst.1.bytes.length ≤ 16 := builder.dst.1.length_bytes_le
    have hpriority : route.priority = none := rfl
    rw [routeSize, hpriority, nextHopsSize, if_neg (List.cons_ne_nil _ _), sum_hopSize_free hfree]
    simp only [Option.isSome_none, Bool.false_eq_true, if_false, List.length_singleton]
    omega
  obtain ⟨b, hb⟩ := addRoute_free (IPAddress.family_of_ne hdst) hdst rfl (List.cons_ne_nil _ _)
    hfree hsize
  have huniverse := rtmScope_addRoute hb
  refine ⟨route, hop, b, buildIfRoute_of_interface hindex hzero hname _ _, rfl, hb, rfl, eq_comm,
    ?_, huniverse, ?_, ?_⟩
  · rw [carriesAttributes_iff hb]
    simp [route, overInterface, Route.attributes]
  · intro hcarries
    have heq : RT_SCOPE_UNIVERSE = RT_SCOPE_LINK := huniverse.symm.trans hcarries.scope
    exact absurd heq (by decide)
  · rw [carriesAttributes_iff hb]
    simp [route, overInterface, attributes, Option.eq_none_iff_forall_ne_some]

/-- The builder of a route to 10.7.0.0/16 on the interface 7, without any attribute. -/
def plainBuilder : RouteBuilder :=
  ({} : RouteBuilder).setDestination (.v4 ⟨[10, 7, 0, 0], rfl⟩, 16)
    |>.setRouteIfIndex 7 |>.setRouteIfName "tayga"

/-- A link route without attributes of its own. -/
theorem plain_route_attributes :
    plainBuilder.dst.1 ≠ .empty ∧
      ∃ route hop b, plainBuilder.buildLinkRoute = .ok route ∧ addRoute route [hop] = .ok b ∧
        route.attributes = plainBuilder.attributes ∧ CarriesAttributes b plainBuilder.attributes ∧
        rtmScope b ≠ route.scope := by
  have hdst : plainBuilder.dst.1 ≠ .empty := by simp [plainBuilder, setDestination,
    setRouteIfIndex, setRouteIfName]
  obtain ⟨route, hop, b, hroute, -, hb, hscope, hiff, hcarries, huniverse, -⟩ :=
    buildLinkRoute_attributes plainBuilder hdst rfl (by decide : (7 : UInt32) ≠ 0) rfl
  have heq := hiff.mpr rfl
  refine ⟨hdst, route, hop, b, hroute, hb, heq, heq ▸ hcarries, ?_⟩
  rw [huniverse, hscope]
  decide

/-- The builder of the default route in `doSyncRoutes`, with an MTU and an MSS. -/
def defaultRouteBuilder : RouteBuilder :=
  ({} : RouteBuilder).setDestination (.v4 (.replicate 4 0), 0)
    |>.setProtocolId 98 |>.setMtu 1500 |>.setAdvMss 1460
    |>.setRouteIfIndex 7 |>.setRouteIfName "tayga"

/-- Its route has no attribute. The message has the scope universe, the destination and the next
hop, and no metrics. -/
theorem default_route_loses_metrics :
    ∃ route b, defaultRouteBuilder.buildLinkRoute = .ok route ∧
      addRoute route [{ ifIndex := some 7 }] = .ok b ∧
      defaultRouteBuilder.attributes = { mtu := some 1500, advMss := some 1460 } ∧
      route.attributes = {} ∧ rtmScope b ≠ route.scope ∧
      b = [48, 0, 0, 0, 24, 0, 5, 5, 0, 0, 0, 0, 0, 0, 0, 0,
        2, 0, 0, 0, 254, 98, 0, 1, 0, 0, 0, 0,
        8, 0, 1, 0, 0, 0, 0, 0,
        12, 0, 9, 0, 8, 0, 0, 0, 7, 0, 0, 0] :=
  ⟨_, _, rfl, rfl, rfl, rfl, by decide, by decide⟩

end RouteBuilder

end Fbmeshd
