import Fbmeshd.Rnl.WireParser
import Mathlib.Order.Filter.AtTopBot.Basic
import Mathlib.Order.Filter.Finite

/-!
# Round trips of route messages

What `parseMessage` returns for a message that `addRoute` or `addLabelRoute` built, when memory
starts with the message and goes on with anything.
-/

namespace Fbmeshd

open Bytes Reader

namespace NetlinkRouteMessage

variable {m : Memory} {b : Buffer} {fuel : ℕ} {family dstLen : UInt8} {route : Route}
  {paths : List NextHop}

/-- Memory starts with the message in the buffer. -/
def StartsWith (m : Memory) (b : Buffer) : Prop := ∀ i < b.u32 0, m i = ofBytes b i

/-- `parseMessage` of the message at the start of memory returns the route, given enough fuel. -/
def ParsesTo (m : Memory) (r : Route) : Prop :=
  ∃ n, ∀ fuel ≥ n, (parseMessage fuel 0).eval m = .ok r

private theorem Message.holds_of_startsWith {header : List UInt8} {attrs : List (ℕ × List UInt8)}
    (h : Message b header attrs) (hm : StartsWith m b) :
    u32 m 0 = 28 + (Rtattr.encodeAll attrs).length ∧ Holds m 4 header ∧
      Holds m 28 (Rtattr.encodeAll attrs) := by
  have hmax : kMaxNlPayloadSize = 4096 := rfl
  have hfits := h.fits
  have hholds : Holds m 0 (le32 (28 + (Rtattr.encodeAll attrs).length) ++
      (header ++ Rtattr.encodeAll attrs)) := by
    refine h.holds.congr fun i _ hi => hm i ?_
    simp only [List.length_append, length_le32, h.header] at hi
    rw [h.u32_zero]
    omega
  exact ⟨(holds_append.mp hholds).1.u32 (by omega), h.holds_parts hholds⟩

/-- The fields that a message carries in its header. -/
def headerFields (route : Route) (rtFlags : UInt32) : Route where
  type := route.type
  protocolId := route.protocolId
  flags := some rtFlags
  isValid := true

private theorem headerRoute_of_holds {nlFlags : ℕ} {rtFlags : UInt32}
    (h : Holds m 4 (routeHeader nlFlags family dstLen route rtFlags)) :
    m 16 = family ∧ m 17 = dstLen ∧ headerRoute m 0 = headerFields route rtFlags := by
  obtain ⟨hmsgType, h⟩ := holds_append.mp h
  obtain ⟨-, h⟩ := holds_append.mp h
  obtain ⟨-, h⟩ := holds_append.mp h
  obtain ⟨⟨hfamily, hdstLen, -⟩, h⟩ := holds_append.mp h
  obtain ⟨⟨-, -, htable, hprotocol, hscope, htype, -⟩, hflags⟩ := holds_append.mp h
  simp only [length_le16, List.length_replicate, List.length_cons, List.length_nil,
    Nat.reduceAdd] at hfamily hdstLen htable hprotocol hscope htype hflags
  refine ⟨hfamily, hdstLen, ?_⟩
  have hvalid : decide (u16 m 4 = RTM_NEWROUTE) = true :=
    decide_eq_true (hmsgType.u16 (by decide))
  rw [headerRoute, headerFields]
  simp only [Nat.zero_add, htable, hprotocol, hscope, htype, hflags.u32 (UInt32.toNat_lt _),
    UInt32.ofNat_toNat, hvalid]

private theorem dvd_length_flatMap_nextHopBytes (paths : List NextHop) :
    4 ∣ (paths.flatMap nextHopBytes).length := by
  induction paths with
  | nil => exact Nat.dvd_zero 4
  | cons path paths ih =>
    rw [List.flatMap_cons, List.length_append, ← align4_rtnhLen]
    exact Nat.dvd_add (Nat.dvd_mul_left 4 _) ih

section Multipath

variable {header : List UInt8} {attrs : List (ℕ × List UInt8)}

/-- Where the next hops stand when they follow some attributes. -/
def hopsOffset (attrs : List (ℕ × List UInt8)) : ℕ := 28 + (Rtattr.encodeAll attrs).length + 4

/-- The next hops end where the message ends. -/
theorem Message.holds_hops
    (h : Message b header (attrs ++ [(RTA_MULTIPATH, paths.flatMap nextHopBytes)]))
    (hm : StartsWith m b) :
    Holds m (hopsOffset attrs) (paths.flatMap nextHopBytes) ∧
      hopsOffset attrs + (paths.flatMap nextHopBytes).length = b.u32 0 ∧
      (paths.flatMap nextHopBytes).length < 2 ^ 16 := by
  have hmax : kMaxNlPayloadSize = 4096 := rfl
  have hdvd := dvd_length_flatMap_nextHopBytes paths
  have hfits := h.fits
  obtain ⟨-, -, hattrs⟩ := h.holds_of_startsWith hm
  rw [h.u32_zero, hopsOffset]
  rw [Rtattr.encodeAll_append_singleton] at hfits hattrs ⊢
  rw [List.length_append, Rtattr.length_encode, align4_of_dvd (by omega)] at hfits ⊢
  obtain ⟨-, hvalue⟩ := Rtattr.load_of_holds (holds_append.mp hattrs).2 (by decide) (by omega)
  exact ⟨hvalue, by omega, by omega⟩

/-- A route with more next hops. -/
def withHops (route : Route) (nextHops : List NextHop) : Route :=
  { route with nextHops := route.nextHops ∪ nextHops.toFinset }

variable {nlFlags : ℕ} {rtFlags : UInt32} {effects : List (RouteState → RouteState)}
  {collected : NextHop → Except Abort NextHop} {sent : RouteState}

private theorem Collects.eval_parseRouteAttribute {a : Rtattr}
    (hcollects : Collects m fuel family collected a.data paths) (hne : paths ≠ [])
    (htype : a.type = RTA_MULTIPATH) (hlen : a.len = 4 + (paths.flatMap nextHopBytes).length)
    (h : Holds m a.data (paths.flatMap nextHopBytes))
    (hsize : (paths.flatMap nextHopBytes).length < 2 ^ 16) (hfuel : paths.length ≤ fuel) :
    (parseRouteAttribute fuel family dstLen a sent).eval m =
      (paths.mapM (madeOf family collected)).map fun nextHops => { sent with
        singleNextHopFlag := false
        route := withHops sent.route nextHops } := by
  have hcount : (a.len : ℤ) - 4 = (paths.flatMap nextHopBytes).length := by
    omega
  have hhops : (parseNextHops fuel a family).eval m = paths.mapM (madeOf family collected) := by
    rw [parseNextHops, hcount]
    exact hcollects.eval_nextHopsLoop hne h hsize hfuel
  rw [parseRouteAttribute, if_neg (by rw [htype]; decide), if_neg (by rw [htype]; decide),
    if_pos htype, eval_bind, hhops]
  cases paths.mapM (madeOf family collected) <;> rfl

/-- The parser of a message whose last attribute is the list of next hops. -/
theorem Message.eval_parseMessage
    (h : Message b (routeHeader nlFlags family dstLen route rtFlags)
      (attrs ++ [(RTA_MULTIPATH, paths.flatMap nextHopBytes)]))
    (hm : StartsWith m b) (htypes : ∀ a ∈ attrs, a.1 < 2 ^ 16)
    (hparse : List.Forall₂ (Rtattr.Parses (parseRouteAttribute fuel family dstLen) m) attrs
      effects)
    (hsent : effects.foldl (fun st effect => effect st)
      { route := headerFields route rtFlags } = sent)
    (hcollects : Collects m fuel family collected (hopsOffset attrs) paths) (hne : paths ≠ [])
    (hfuel : attrs.length + 1 < fuel) (hloop : paths.length ≤ fuel) :
    (parseMessage fuel 0).eval m =
      (paths.mapM (madeOf family collected)).map (withHops sent.route) := by
  have hmax : kMaxNlPayloadSize = 4096 := rfl
  have hfits := h.fits
  obtain ⟨hlen, hheader, hattrs⟩ := h.holds_of_startsWith hm
  obtain ⟨hfamily, hdstLen, hroute⟩ := headerRoute_of_holds hheader
  obtain ⟨hhops, -, hsize⟩ := h.holds_hops hm
  have hall : ∀ a ∈ attrs ++ [(RTA_MULTIPATH, paths.flatMap nextHopBytes)], a.1 < 2 ^ 16 := by
    rw [List.forall_mem_append]
    exact ⟨htypes, by simp [RTA_MULTIPATH]⟩
  have hfits' := Rtattr.fits_of_length hall (by omega)
  have hstored := Rtattr.stored_of_holds hattrs
  have hlisted := hstored.listed hfits' (by omega)
  have hfirst : Rtattr.Stored m 28 attrs := (Rtattr.stored_append.mp hstored).1
  have hlast : (parseRouteAttribute fuel family dstLen
      ⟨28 + (Rtattr.encodeAll attrs).length, 4 + (paths.flatMap nextHopBytes).length,
        RTA_MULTIPATH⟩ sent).eval m = _ :=
    Collects.eval_parseRouteAttribute hcollects hne rfl rfl hhops hsize hloop
  rw [NetlinkRouteMessage.eval_parseMessage, Nat.zero_add, Nat.zero_add, Nat.zero_add, hfamily,
    hdstLen, hroute, hlen, sub64_of_le (by omega) (by omega), Nat.add_sub_cancel_left,
    hlisted.eval_walk (by simpa using hfuel), Rtattr.place_append, List.foldlM_append,
    hfirst.foldlM_place (fun a ha => hfits' a (List.mem_append_left _ ha)) hparse, hsent]
  simp only [Rtattr.place, List.foldlM_cons, List.foldlM_nil, bind, Except.bind, hlast]
  cases paths.mapM (madeOf family collected) <;> rfl

private theorem mapM_madeOf_ok (f : NextHop → NextHop) :
    paths.mapM (madeOf family fun path => .ok (f path)) =
      .ok (paths.map fun path => setMplsAction (f path) family) :=
  List.mapM_pure

end Multipath

section RouteAttributes

private theorem parses_dst {ip : IPAddress} (hne : ip ≠ .empty) (hfamily : ip.family = family)
    (hmpls : family ≠ AF_MPLS) :
    Rtattr.Parses (parseRouteAttribute fuel family dstLen) m (RTA_DST, ip.bytes)
      fun st => { st with
        route := { st.route with
          dst := (ip.unscoped, dstLen)
          family := ip.unscoped.family } } := by
  intro a st htype _ hvalue
  rw [parseRouteAttribute, if_pos htype, if_neg hmpls, parseIp,
    eval_bind_of_ok (eval_ipAddressAt hvalue hne hfamily)]
  rfl

private theorem parses_label {label : UInt32} (hlabel : label.toNat < 2 ^ 20) :
    Rtattr.Parses (parseRouteAttribute fuel AF_MPLS dstLen) m
      (RTA_DST, beBytes32 (encodeLabel label true))
      fun st => { st with
        route := { st.route with mplsLabel := some label, family := AF_MPLS } } := by
  intro a st htype _ hvalue
  rw [parseRouteAttribute, if_pos htype, if_pos rfl, eval_bind_of_ok (eval_labelAt hvalue hlabel)]
  rfl

private theorem parses_priority (priority : UInt32) :
    Rtattr.Parses (parseRouteAttribute fuel family dstLen) m (RTA_PRIORITY, le32 priority.toNat)
      fun st => { st with route := { st.route with priority := some priority } } := by
  intro a st (htype : a.type = RTA_PRIORITY) _ hvalue
  rw [parseRouteAttribute, if_neg (by rw [htype]; decide), if_pos htype,
    eval_bind_of_ok (eval_u32At hvalue), UInt32.ofNat_toNat]
  rfl

end RouteAttributes

end NetlinkRouteMessage

/-- A valid unicast route of the main table with universe scope and flags, for an address of its
family, which sets none of the fields that messages leave out. -/
structure Route.IsIp (route : Route) : Prop where
  isValid : route.isValid = true
  family : route.family = route.dst.1.family
  type : route.type = RTN_UNICAST
  routeTable : route.routeTable = RT_TABLE_MAIN
  scope : route.scope = RT_SCOPE_UNIVERSE
  flags : route.flags ≠ none
  tos : route.tos = none
  mtu : route.mtu = none
  advMss : route.advMss = none
  routeIfName : route.routeIfName = none
  nonempty : route.nextHops.Nonempty
  nextHops : ∀ nh ∈ route.nextHops, nh.IsIp route.family

namespace NetlinkRouteMessage

variable {m : Memory} {b : Buffer} {fuel : ℕ} {family : UInt8} {route : Route}
  {paths : List NextHop}

private theorem setMplsAction_of_isIp {path : NextHop} (h : path.IsIp family)
    (hmpls : family ≠ AF_MPLS) :
    setMplsAction { path with labelAction := none } family = path := by
  rcases h.labels with ⟨haction, hpush⟩ | ⟨haction, labels, hpush, -⟩
  · rw [setMplsAction, if_neg (by simpa using hpush), if_neg hmpls, ← haction]
  · rw [setMplsAction, if_pos (by simp [hpush]), ← haction]

private theorem family_of_addRoute [EmptyBytes] (hok : addRoute route paths = .ok b) :
    route.family = AF_INET ∨ route.family = AF_INET6 := by
  rw [addRoute] at hok
  split at hok
  · simp at hok
  next h => rwa [not_and_or, not_not, not_not] at h

/-- The attributes in front of the next hops of an IP route give its destination and priority. -/
theorem effects_of_addRoute (m : Memory) (fuel : ℕ) (hempty : route.dst.1 ≠ .empty)
    (hfamily : route.dst.1.family = family) (hmpls : family ≠ AF_MPLS) :
    ∃ effects, List.Forall₂
        (Rtattr.Parses (parseRouteAttribute fuel family route.dst.2) m)
        ((RTA_DST, route.dst.1.bytes) :: priorityAttrs route.priority) effects ∧
      ∀ sent : Route, sent.priority = none →
        effects.foldl (fun st effect => effect st) { route := sent } =
          ({ route := { sent with
              dst := (route.dst.1.unscoped, route.dst.2)
              family := route.dst.1.unscoped.family
              priority := route.priority } } : RouteState) := by
  cases hpriority : route.priority with
  | none =>
    refine ⟨_, .cons (parses_dst hempty hfamily hmpls) .nil, fun sent hsent => ?_⟩
    rw [← hsent]
    rfl
  | some priority =>
    exact ⟨_, .cons (parses_dst hempty hfamily hmpls) (.cons (parses_priority priority) .nil),
      fun sent _ => rfl⟩

/-- A message of an IP route loses the scope id of the destination, and a label. -/
theorem parsesTo_addRoute [EmptyBytes] (hroute : route.IsIp)
    (hpaths : paths.toFinset = route.nextHops) (hok : addRoute route paths = .ok b)
    (hm : StartsWith m b) :
    ParsesTo m { route with dst := (route.dst.1.unscoped, route.dst.2), mplsLabel := none } := by
  have hhops : ∀ path ∈ paths, path.IsIp route.family := by
    intro path hpath
    exact hroute.nextHops path (hpaths ▸ List.mem_toFinset.mpr hpath)
  have hne : paths ≠ [] := by
    rintro rfl
    exact hroute.nonempty.ne_empty hpaths.symm
  have hgateway : ∀ path ∈ paths, path.labelAction = none → path.gateway ≠ none := by
    intro path hpath _
    obtain ⟨gw, ⟨hgw, -⟩, -⟩ := (hhops path hpath).gateway
    simp [hgw]
  have hmpls : route.family ≠ AF_MPLS := by
    rcases family_of_addRoute hok with h | h <;> rw [h] <;> decide
  have hempty : route.dst.1 ≠ .empty := by
    intro hdst
    have hunspec : route.family = AF_UNSPEC := by rw [hroute.family, hdst, IPAddress.family]
    rcases family_of_addRoute hok with h | h <;> exact absurd (h.symm.trans hunspec) (by decide)
  obtain ⟨nlFlags, hmsg⟩ := addRoute_message hne hgateway hok
  obtain ⟨hholds, -, hsize⟩ := hmsg.holds_hops hm
  refine ⟨paths.length + 4, fun fuel hfuel => ?_⟩
  obtain ⟨effects, heffects, hsent⟩ :=
    effects_of_addRoute m fuel hempty hroute.family.symm hmpls
  have hcount : (priorityAttrs route.priority).length ≤ 1 := by
    cases route.priority <;> simp [priorityAttrs]
  have htypes : ∀ a ∈ (RTA_DST, route.dst.1.bytes) :: priorityAttrs route.priority,
      a.1 < 2 ^ 16 := by
    cases route.priority <;> simp [priorityAttrs, RTA_DST, RTA_PRIORITY]
  have hmap : (paths.map fun path => setMplsAction { path with labelAction := none } route.family) =
      paths := by
    rw [List.map_congr_left fun path hpath => setMplsAction_of_isIp (hhops path hpath) hmpls,
      List.map_id']
  rw [hmsg.eval_parseMessage hm htypes heffects (hsent _ rfl)
    (collects_of_isIp hhops hholds hsize (by omega)) hne (by simp; omega) (by omega),
    mapM_madeOf_ok, hmap]
  obtain ⟨flags, hflags⟩ := Option.ne_none_iff_exists'.mp hroute.flags
  simp [withHops, headerFields, Except.map, hpaths, hflags, hroute.isValid, hroute.family,
    hroute.routeTable, hroute.scope, hroute.tos, hroute.mtu, hroute.advMss, hroute.routeIfName]

/-- The round trip of an IP route gives an equal route exactly if its destination has no scope id
and it has no label. -/
theorem parseMessage_addRoute_eq_iff [EmptyBytes] (hroute : route.IsIp)
    (hpaths : paths.toFinset = route.nextHops) (hok : addRoute route paths = .ok b)
    (hm : StartsWith m b) :
    ∃ r, ParsesTo m r ∧
      (r.eq route = true ↔ route.dst.1.unscoped = route.dst.1 ∧ route.mplsLabel = none) := by
  refine ⟨_, parsesTo_addRoute hroute hpaths hok hm, ?_⟩
  rw [Route.eq_iff]
  obtain ⟨type, routeTable, protocolId, scope, family, isValid, flags, priority, tos, mtu, advMss,
    nextHops, ⟨ip, len⟩, routeIfName, mplsLabel⟩ := route
  simp [eq_comm]

/-- A route to a destination through one next hop. -/
def singleRoute (dst : CIDRNetwork) (hop : NextHop) : Route :=
  { isValid := true, family := dst.1.family, flags := some 0, priority := some 10
    nextHops := {hop}, dst }

private theorem singleRoute_isIp {dst : CIDRNetwork} {hop : NextHop} (h : hop.IsIp dst.1.family) :
    (singleRoute dst hop).IsIp where
  isValid := rfl
  family := rfl
  type := rfl
  routeTable := rfl
  scope := rfl
  flags := by simp [singleRoute]
  tos := rfl
  mtu := rfl
  advMss := rfl
  routeIfName := rfl
  nonempty := Finset.singleton_nonempty _
  nextHops := by simpa [singleRoute] using h

/-- A next hop that pushes two labels, through the gateway `10.0.0.1`. -/
def pushHop : NextHop :=
  { ifIndex := some 3, gateway := some (.v4 ⟨[10, 0, 0, 1], rfl⟩), labelAction := some .PUSH
    pushLabels := some [100, 101] }

/-- The network `192.168.0.0/16`. -/
def privateNetwork : CIDRNetwork := (.v4 ⟨[192, 168, 0, 0], rfl⟩, 16)

/-- A route with a next hop that pushes labels. -/
theorem pushHop_round_trip :
    ∃ b, addRoute (singleRoute privateNetwork pushHop) [pushHop] = .ok b ∧
      ∃ r, ParsesTo (ofBytes b) r ∧ r.eq (singleRoute privateNetwork pushHop) = true := by
  obtain ⟨b, hb⟩ : ∃ b, addRoute (singleRoute privateNetwork pushHop) [pushHop] = .ok b := ⟨_, rfl⟩
  have hhop : pushHop.IsIp AF_INET :=
    ⟨by simp [pushHop], ⟨_, ⟨rfl, by simp, rfl⟩, rfl⟩, rfl, rfl,
      .inr ⟨rfl, [100, 101], rfl, by decide, by decide, by simp⟩⟩
  have hroute : (singleRoute privateNetwork pushHop).IsIp := singleRoute_isIp hhop
  obtain ⟨r, hr, heq⟩ := parseMessage_addRoute_eq_iff hroute rfl hb fun _ _ => rfl
  exact ⟨b, hb, r, hr, heq.mpr ⟨rfl, rfl⟩⟩

/-- A next hop through the gateway `fe80::1`. -/
def linkHop : NextHop :=
  { ifIndex := some 3
    gateway := some (.v6 ⟨[0xfe, 0x80, 0, 0, 0, 0, 0, 0, 0, 0, 0, 0, 0, 0, 0, 1], rfl⟩ 0) }

/-- The network `fe80::%5/64`, which has a scope id. -/
def scopedNetwork : CIDRNetwork :=
  (.v6 ⟨[0xfe, 0x80, 0, 0, 0, 0, 0, 0, 0, 0, 0, 0, 0, 0, 0, 0], rfl⟩ 5, 64)

/-- The scope id of a destination does not survive. -/
theorem scoped_destination_differs :
    (singleRoute scopedNetwork linkHop).IsIp ∧
      ∃ b, addRoute (singleRoute scopedNetwork linkHop) [linkHop] = .ok b ∧
        ∃ r, ParsesTo (ofBytes b) r ∧ r.eq (singleRoute scopedNetwork linkHop) = false := by
  obtain ⟨b, hb⟩ : ∃ b, addRoute (singleRoute scopedNetwork linkHop) [linkHop] = .ok b := ⟨_, rfl⟩
  have hhop : linkHop.IsIp AF_INET6 :=
    ⟨by simp [linkHop], ⟨_, ⟨rfl, by simp, rfl⟩, rfl⟩, rfl, rfl, .inl ⟨rfl, rfl⟩⟩
  have hroute : (singleRoute scopedNetwork linkHop).IsIp := singleRoute_isIp hhop
  exact ⟨hroute, b, hb, _, parsesTo_addRoute hroute rfl hb fun _ _ => rfl, by decide⟩

/-- What a message of a label route says about a next hop. -/
def forwarding (nh : NextHop) :
    Option MplsActionCode × Option UInt32 × Option IPAddress × Option UInt32 :=
  (nh.labelAction, nh.swapLabel, nh.gateway, nh.ifIndex)

private theorem forwarding_of_isLabel {path : NextHop} (h : path.IsLabel)
    (hscope : path.gateway.map IPAddress.unscoped = path.gateway) :
    forwarding (setMplsAction (labelFields path) AF_MPLS) = forwarding path := by
  obtain ⟨ifIndex, gateway, weight, labelAction, swapLabel, pushLabels⟩ := path
  simp only at hscope
  rw [labelFields, hscope]
  obtain ⟨rfl, ⟨gw, rfl, -⟩, label, rfl, -⟩ | ⟨rfl, ⟨gw, rfl, -⟩, rfl⟩ | ⟨rfl, rfl, rfl⟩ := h.action
    <;> rfl

/-- A next hop that says the same as one of a label route has the same fields. -/
theorem eq_of_forwarding_eq {nh path : NextHop} (hpath : path.IsLabel) (hweight : nh.weight = 0)
    (haction : nh.labelAction = none)
    (h : forwarding (setMplsAction nh AF_MPLS) = forwarding path) :
    nh = { ifIndex := path.ifIndex, gateway := path.gateway, swapLabel := path.swapLabel } := by
  obtain ⟨ifIndex, gateway, weight, labelAction, swapLabel, pushLabels⟩ := nh
  simp only at hweight haction
  subst hweight haction
  cases pushLabels with
  | some labels =>
    have hpush : some .PUSH = path.labelAction := congrArg Prod.fst h
    obtain ⟨haction, -⟩ | ⟨haction, -⟩ | ⟨haction, -⟩ := hpath.action <;>
      exact absurd (hpush.trans haction) (by decide)
  | none =>
    have hfields : ∀ nh' : NextHop, nh'.pushLabels = none →
        (setMplsAction nh' AF_MPLS).swapLabel = nh'.swapLabel ∧
        (setMplsAction nh' AF_MPLS).gateway = nh'.gateway ∧
        (setMplsAction nh' AF_MPLS).ifIndex = nh'.ifIndex := by
      intro nh' hnone
      simp only [setMplsAction, hnone]
      split_ifs <;> exact ⟨rfl, rfl, rfl⟩
    simp only [forwarding, Prod.mk.injEq] at h
    obtain ⟨-, hswap, hgateway, hindex⟩ := h
    obtain ⟨hswap', hgateway', hindex'⟩ := hfields ⟨ifIndex, gateway, 0, none, swapLabel, none⟩ rfl
    rw [← hindex, ← hgateway, ← hswap, hswap', hgateway', hindex']

/-- The attribute of a label route in front of the next hops. -/
def labelAttrs (label : UInt32) : List (ℕ × List UInt8) :=
  [(RTA_DST, beBytes32 (encodeLabel label true))]

/-- The route that the parser makes of a label and next hops. -/
def labelRoute (route : Route) (label : UInt32) (nextHops : List NextHop) : Route :=
  withHops { headerFields route 0 with mplsLabel := some label, family := AF_MPLS } nextHops

private theorem nextHops_labelRoute (route : Route) (label : UInt32) (nextHops : List NextHop) :
    (labelRoute route label nextHops).nextHops = nextHops.toFinset := by
  simp [labelRoute, withHops, headerFields]

/-- The label survives, and the next hops are what the walks over their attributes collect. -/
theorem Message.eval_parseMessage_label {label : UInt32} {nlFlags : ℕ}
    {collected : NextHop → Except Abort NextHop}
    (hmsg : Message b (routeHeader nlFlags AF_MPLS (.ofNat kLabelSizeBits) route 0)
      (labelAttrs label ++ [(RTA_MULTIPATH, paths.flatMap nextHopBytes)]))
    (hm : StartsWith m b) (hsmall : label.toNat < 2 ^ 20) (hne : paths ≠ [])
    (hcollects : Collects m fuel AF_MPLS collected (hopsOffset (labelAttrs label)) paths)
    (hfuel : paths.length + 3 ≤ fuel) :
    (parseMessage fuel 0).eval m =
      (paths.mapM (madeOf AF_MPLS collected)).map (labelRoute route label) :=
  hmsg.eval_parseMessage hm (by simp [labelAttrs, RTA_DST]) (.cons (parses_label hsmall) .nil) rfl
    hcollects hne (by simp [labelAttrs]; omega) (by omega)

private theorem gateway_of_isLabel (hhops : ∀ path ∈ paths, path.IsLabel) :
    ∀ path ∈ paths, path.labelAction = none → path.gateway ≠ none := by
  intro path hpath hnone
  obtain ⟨haction, -⟩ | ⟨haction, -⟩ | ⟨haction, -⟩ := (hhops path hpath).action <;>
    exact absurd (hnone.symm.trans haction) (by simp)

private theorem image_forwarding_of_isLabel (hhops : ∀ path ∈ paths, path.IsLabel)
    (hscope : ∀ path ∈ paths, path.gateway.map IPAddress.unscoped = path.gateway) :
    (paths.map fun path => setMplsAction (labelFields path) AF_MPLS).toFinset.image forwarding =
      paths.toFinset.image forwarding := by
  ext x
  simp only [Finset.mem_image, List.mem_toFinset, List.mem_map, exists_exists_and_eq_and]
  refine exists_congr fun path => and_congr_right fun hpath => ?_
  rw [forwarding_of_isLabel (hhops path hpath) (hscope path hpath)]

/-- A walk that runs past the end of the message leaves the fields of the next hop as they are.
The count of the walk has wrapped around. -/
def LeftAlone (m : Memory) (stop : ℕ) (nh : NextHop) : Prop :=
  ∃ n, ∀ fuel ≥ n, (Rtattr.walk (parseNextHopAttribute fuel AF_MPLS) fuel stop (2 ^ 64 - 2)
    (labelFields nh)).eval m = .ok (labelFields nh)

private theorem Follows.leftAlone_iff {stop : ℕ} {rest : List Rtattr} {nh : NextHop}
    (h : Follows m stop rest) :
    LeftAlone m stop nh ↔ ∃ n, ∀ fuel ≥ n,
      visitAll m fuel AF_MPLS rest (labelFields nh) = .ok (labelFields nh) := by
  have hwalk : ∀ fuel > rest.length,
      (Rtattr.walk (parseNextHopAttribute fuel AF_MPLS) fuel stop (2 ^ 64 - 2)
        (labelFields nh)).eval m = visitAll m fuel AF_MPLS rest (labelFields nh) :=
    fun fuel hfuel => (h _ (by omega) (by omega)).eval_walk hfuel
  constructor
  · rintro ⟨n, hn⟩
    exact ⟨n + rest.length + 1, fun fuel hfuel =>
      (hwalk fuel (by omega)).symm.trans (hn fuel (by omega))⟩
  · rintro ⟨n, hn⟩
    exact ⟨n + rest.length + 1, fun fuel hfuel =>
      (hwalk fuel (by omega)).trans (hn fuel (by omega))⟩

/-- A set of next hops that the bytes behind the message map onto itself consists of next hops
that they leave alone: to set a field twice is to set it once. -/
theorem overwrite_labelFields_of_forwarding_eq {new nh path : NextHop} (hnh : nh.IsLabel)
    (hnew : new.gateway.map IPAddress.unscoped = new.gateway)
    (h : forwarding (setMplsAction (new.overwrite (labelFields path)) AF_MPLS) = forwarding nh) :
    nh.gateway.map IPAddress.unscoped = nh.gateway ∧
      new.overwrite (labelFields nh) = labelFields nh := by
  have heq := eq_of_forwarding_eq hnh rfl rfl h
  have hgateway : (new.overwrite (labelFields path)).gateway = nh.gateway := by
    rw [heq]
  have hscope : nh.gateway.map IPAddress.unscoped = nh.gateway := by
    rw [← hgateway]
    cases hgw : new.gateway with
    | none =>
      cases hpath : path.gateway with
      | none => simp [NextHop.overwrite, labelFields, hgw, hpath]
      | some gw =>
        cases gw <;> simp [NextHop.overwrite, labelFields, hgw, hpath, IPAddress.unscoped]
    | some gw =>
      rw [hgw] at hnew
      simpa [NextHop.overwrite, hgw] using hnew
  have hfields : labelFields nh = new.overwrite (labelFields path) := by
    rw [heq, labelFields, hscope]
  exact ⟨hscope, by rw [hfields, NextHop.overwrite_overwrite]⟩

/-- If the parser returns next hops that say the same as those that were sent, what follows the
message leaves each one with a gateway alone. -/
theorem labelResult_of_image_eq {r : Except Abort NextHop} {nextHops : List NextHop}
    {nh : NextHop} (hhops : ∀ path ∈ paths, path.IsLabel)
    (hscope : ∀ new, r = .ok new → new.gateway.map IPAddress.unscoped = new.gateway)
    (hmade : paths.mapM (madeOf AF_MPLS (labelResult r)) = .ok nextHops)
    (himage : nextHops.toFinset.image forwarding = paths.toFinset.image forwarding)
    (hnh : nh ∈ paths) (hgateway : nh.gateway ≠ none) :
    nh.gateway.map IPAddress.unscoped = nh.gateway ∧
      r.map (·.overwrite (labelFields nh)) = .ok (labelFields nh) := by
  have hmem : forwarding nh ∈ paths.toFinset.image forwarding :=
    Finset.mem_image_of_mem _ (List.mem_toFinset.mpr hnh)
  rw [← himage] at hmem
  obtain ⟨hop, hhop, hforwarding⟩ := Finset.mem_image.mp hmem
  obtain ⟨path, hpath, hmade⟩ := Except.exists_of_mem_mapM hmade (List.mem_toFinset.mp hhop)
  obtain ⟨nh', hresult, rfl⟩ := Except.map_eq_ok_iff.mp hmade
  rw [labelResult] at hresult
  split at hresult
  next hnone =>
    -- a next hop without a gateway is returned without one
    obtain rfl := Except.ok.inj hresult
    have heq := eq_of_forwarding_eq (hhops nh hnh) rfl rfl hforwarding
    have hgw : (labelFields path).gateway = nh.gateway := by rw [heq]
    exact absurd (hgw.symm.trans (by rw [labelFields, hnone, Option.map_none])) hgateway
  next hsome =>
    obtain ⟨new, rfl, rfl⟩ := Except.map_eq_ok_iff.mp hresult
    obtain ⟨hscope', hover⟩ :=
      overwrite_labelFields_of_forwarding_eq (hhops nh hnh) (hscope new rfl) hforwarding
    exact ⟨hscope', congrArg Except.ok hover⟩

/-- A fuel that is enough for all next hops that are left alone. -/
theorem Follows.exists_fuel {stop : ℕ} {rest : List Rtattr} (hrest : Follows m stop rest)
    (h : ∀ path ∈ paths, path.gateway ≠ none → LeftAlone m stop path) :
    ∃ n, ∀ fuel ≥ n, ∀ path ∈ paths.toFinset, path.gateway ≠ none →
      visitAll m fuel AF_MPLS rest (labelFields path) = .ok (labelFields path) := by
  rw [← Filter.eventually_atTop, Filter.eventually_all_finset]
  intro path hpath
  rw [Filter.eventually_atTop]
  by_cases hgateway : path.gateway = none
  · exact ⟨0, fun _ _ hsome => absurd hgateway hsome⟩
  · obtain ⟨n, hn⟩ := hrest.leftAlone_iff.mp (h path (List.mem_toFinset.mp hpath) hgateway)
    exact ⟨n, fun fuel hfuel _ => hn fuel hfuel⟩

/-- The round trip of a label route keeps the label and the next hops exactly if no gateway has a
scope id and the bytes behind the message leave the next hops with a gateway alone: the walk over
the attributes of such a next hop does not stop at the end of the message. -/
theorem parseMessage_addLabelRoute_iff [EmptyBytes] {label : UInt32}
    (hlabel : route.mplsLabel = some label) (hsmall : label.toNat < 2 ^ 20)
    (hnonempty : route.nextHops.Nonempty) (hhops : ∀ nh ∈ route.nextHops, nh.IsLabel)
    (hpaths : paths.toFinset = route.nextHops) (hok : addLabelRoute route paths = .ok b)
    (hm : StartsWith m b) (hspace : ∀ i ≥ 2 ^ 62, m i = 0) :
    (∃ r, ParsesTo m r ∧ r.mplsLabel = route.mplsLabel ∧
      r.nextHops.image forwarding = route.nextHops.image forwarding) ↔
    ∀ nh ∈ route.nextHops, nh.gateway ≠ none →
      nh.gateway.map IPAddress.unscoped = nh.gateway ∧ LeftAlone m (b.u32 0) nh := by
  simp only [← hpaths, List.mem_toFinset] at hhops ⊢
  have hne : paths ≠ [] := by
    rintro rfl
    exact hnonempty.ne_empty hpaths.symm
  obtain ⟨-, nlFlags, label', hlabel', hmsg⟩ :=
    addLabelRoute_message hne (gateway_of_isLabel hhops) hok
  obtain rfl : label = label' := Option.some.inj (hlabel.symm.trans hlabel')
  have hmsg : Message b (routeHeader nlFlags AF_MPLS (.ofNat kLabelSizeBits) route 0)
      (labelAttrs label ++ [(RTA_MULTIPATH, paths.flatMap nextHopBytes)]) := hmsg
  obtain ⟨hholds, hend, hsize⟩ := hmsg.holds_hops hm
  obtain ⟨rest, hlisted⟩ := Rtattr.exists_listed hspace (b.u32 0)
  have hrest : Follows m (b.u32 0) rest := fun len hlen hlen' => hlisted len (by omega) hlen'
  have hcollects : ∀ fuel r, paths.length + rest.length + 3 ≤ fuel →
      (∀ nh, visitAll m fuel AF_MPLS rest nh = r.map (·.overwrite nh)) →
      Collects m fuel AF_MPLS (labelResult r) (hopsOffset (labelAttrs label)) paths :=
    fun fuel r hfuel hr =>
      collects_of_isLabel hhops hholds hsize (hend ▸ hrest) hr (by omega)
  constructor
  · rintro ⟨r, ⟨n, hn⟩, -, himage⟩ nh hnh hgateway
    have hkept : ∀ fuel ≥ n + paths.length + rest.length + 3,
        nh.gateway.map IPAddress.unscoped = nh.gateway ∧
          visitAll m fuel AF_MPLS rest (labelFields nh) = .ok (labelFields nh) := by
      intro fuel hfuel
      obtain ⟨set, hset, hscope⟩ := exists_visitAll m fuel AF_MPLS rest
      have heval := hmsg.eval_parseMessage_label hm hsmall hne
        (hcollects fuel set (by omega) hset) (by omega)
      obtain ⟨nextHops, hmade, rfl⟩ :=
        Except.map_eq_ok_iff.mp (heval.symm.trans (hn fuel (by omega)))
      rw [nextHops_labelRoute] at himage
      rw [hset]
      exact labelResult_of_image_eq hhops hscope hmade himage hnh hgateway
    exact ⟨(hkept _ le_rfl).1, hrest.leftAlone_iff.mpr ⟨_, fun fuel hfuel => (hkept fuel hfuel).2⟩⟩
  · intro hkept
    have hscope : ∀ path ∈ paths, path.gateway.map IPAddress.unscoped = path.gateway := by
      intro path hpath
      by_cases hgateway : path.gateway = none
      · rw [hgateway, Option.map_none]
      · exact (hkept path hpath hgateway).1
    obtain ⟨n, hn⟩ := hrest.exists_fuel fun path hpath hgateway => (hkept path hpath hgateway).2
    refine ⟨labelRoute route label (paths.map fun path => setMplsAction (labelFields path) AF_MPLS),
      ⟨n + paths.length + rest.length + 3, fun fuel hfuel => ?_⟩, hlabel.symm, ?_⟩
    · obtain ⟨set, hset, -⟩ := exists_visitAll m fuel AF_MPLS rest
      have hfields : ∀ path ∈ paths, labelResult set path = .ok (labelFields path) := by
        intro path hpath
        rw [labelResult]
        split
        · rfl
        next hsome =>
          rw [← hset, hn fuel (by omega) path (List.mem_toFinset.mpr hpath) hsome]
      rw [hmsg.eval_parseMessage_label hm hsmall hne
        ((hcollects fuel set (by omega) hset).congr hfields) (by omega), mapM_madeOf_ok]
      rfl
    · rw [nextHops_labelRoute, image_forwarding_of_isLabel hhops hscope]

/-- A next hop that swaps in the label 100, through the gateway `10.0.0.1`. -/
def swapHop : NextHop :=
  { ifIndex := some 3, gateway := some (.v4 ⟨[10, 0, 0, 1], rfl⟩), labelAction := some .SWAP
    swapLabel := some 100 }

private theorem swapHop_isLabel : swapHop.IsLabel :=
  ⟨by simp [swapHop], .inl ⟨rfl, ⟨_, rfl, by simp⟩, _, rfl, by decide⟩⟩

/-- The route of the label 500 through this next hop. -/
def swapRoute : Route :=
  { family := AF_MPLS, mplsLabel := some 500, nextHops := {swapHop} }

/-- The message of this route. -/
def swapMessage : Buffer :=
  le32 68 ++ routeHeader 0x505 AF_MPLS 20 swapRoute 0 ++
    Rtattr.encodeAll (labelAttrs 500 ++ [(RTA_MULTIPATH, nextHopBytes swapHop)])

/-- The message, followed by an attribute with an interface. -/
def trailedMessage (ifIndex : ℕ) : Memory :=
  ofBytes (swapMessage ++ Rtattr.encode RTA_OIF (le32 ifIndex))

/-- The attribute repeats the interface of the next hop. -/
theorem repeated_interface_round_trip :
    addLabelRoute swapRoute [swapHop] = .ok swapMessage ∧
      ∃ r, ParsesTo (trailedMessage 3) r ∧ r.mplsLabel = swapRoute.mplsLabel ∧
        r.nextHops.image forwarding = swapRoute.nextHops.image forwarding := by
  have hok : addLabelRoute swapRoute [swapHop] = .ok swapMessage := by decide
  have hhops : ∀ nh ∈ swapRoute.nextHops, nh.IsLabel := by
    simpa [swapRoute] using swapHop_isLabel
  have hm : StartsWith (trailedMessage 3) swapMessage := by
    rw [StartsWith]
    decide
  have hlen : (swapMessage ++ Rtattr.encode RTA_OIF (le32 3)).length ≤ 2 ^ 62 := by decide
  refine ⟨hok, (parseMessage_addLabelRoute_iff rfl (by decide) (Finset.singleton_nonempty _) hhops
    rfl hok hm fun i hi => List.getD_eq_default _ _ (hlen.trans hi)).mpr ?_⟩
  intro nh hnh _
  obtain rfl : nh = swapHop := by simpa [swapRoute] using hnh
  have hlisted : Rtattr.Listed (trailedMessage 3) (swapMessage.u32 0) (2 ^ 64 - 2)
      [.load (trailedMessage 3) (swapMessage.u32 0)] :=
    .cons (by decide) (.nil (by decide))
  exact ⟨rfl, 2, fun fuel hfuel => (hlisted.eval_walk hfuel).trans rfl⟩

/-- An attribute with another interface behind the message is taken for one of the next hop. -/
theorem trailing_attribute_changes_interface :
    addLabelRoute swapRoute [swapHop] = .ok swapMessage ∧
      StartsWith (trailedMessage 99) swapMessage ∧
      swapHop.IsLabel ∧ ∃ r, ParsesTo (trailedMessage 99) r ∧
        r.nextHops.image forwarding ≠ swapRoute.nextHops.image forwarding := by
  have hok : addLabelRoute swapRoute [swapHop] = .ok swapMessage := by decide
  have hm : StartsWith (trailedMessage 99) swapMessage := by
    rw [StartsWith]
    decide
  refine ⟨hok, hm, swapHop_isLabel, ?_⟩
  obtain ⟨-, nlFlags, label, hlabel, hmsg⟩ :=
    addLabelRoute_message (List.cons_ne_nil _ _)
      (gateway_of_isLabel (List.forall_mem_singleton.mpr swapHop_isLabel)) hok
  obtain rfl : 500 = label := Option.some.inj hlabel
  have hmsg : Message swapMessage (routeHeader nlFlags AF_MPLS (.ofNat kLabelSizeBits) swapRoute 0)
      (labelAttrs 500 ++ [(RTA_MULTIPATH, [swapHop].flatMap nextHopBytes)]) := hmsg
  -- the walk visits `RTA_NEWDST`, `RTA_VIA` and the attribute behind the message
  have hlisted : Rtattr.Listed (trailedMessage 99) 48 18 [.load (trailedMessage 99) 48,
      .load (trailedMessage 99) 56, .load (trailedMessage 99) 68] :=
    .cons (by decide) (.cons (by decide) (.cons (by decide) (.nil (by decide))))
  have hcollects : ∀ fuel ≥ 4, Collects (trailedMessage 99) fuel AF_MPLS
      (fun path => .ok { labelFields path with ifIndex := some 99 }) (hopsOffset (labelAttrs 500))
      [swapHop] :=
    fun fuel hfuel => .cons ((hlisted.eval_walk hfuel).trans rfl) .nil
  refine ⟨_, ⟨4, fun fuel hfuel => (hmsg.eval_parseMessage_label hm (by decide)
    (List.cons_ne_nil _ _) (hcollects fuel hfuel) hfuel).trans rfl⟩, by decide⟩

end NetlinkRouteMessage

end Fbmeshd
