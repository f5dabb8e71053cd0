import Fbmeshd.Lib.Writer
import Fbmeshd.Rnl.RouteWire

/-!
# The writes of the encoder

The functions that build route messages once more, with a log of what they write into the buffer
of the next hops and into that of the message. They compute what the ones without the log compute.
A function that gives up has written something before, so the log is also kept then.
-/

namespace Fbmeshd

open Bytes

/-- The two buffers of 4096 bytes. -/
inductive EncodeBuffer where
  | nhop
  | msg
  deriving DecidableEq

namespace NetlinkRouteMessage

/-- An encoder with the log of its writes. -/
abbrev Logged := SpanWriter EncodeBuffer EncodeFailure

namespace Logged

/-- Write into the buffer of the next hops. -/
def putHop (rta : Buffer) (o : ℕ) (bs : List UInt8) : Logged Buffer := .put .nhop rta o bs

/-- `addSubAttributes`. -/
def addSubAttributes (rta : Buffer) (type : ℕ) (data : List UInt8) : Logged (Buffer × ℕ) :=
  let rtaLen := rta.u16 0
  let subRtaLen := 4 + data.length
  if align4 rtaLen + align4 subRtaLen > kMaxNlPayloadSize then
    .lift (.error (.status .NO_MESSAGE_BUFFER))
  else do
    let subrta := align4 rtaLen
    let rta ← putHop rta subrta (le16 subRtaLen ++ le16 type ++ data)
    let rta ← putHop rta 0 (le16 (align4 rtaLen + align4 subRtaLen))
    pure (rta, subrta)

/-- `addAttributes`. -/
def addAttributes (type : ℕ) (data : List UInt8) (msg : Buffer) : Logged Buffer :=
  let rtaLen := 4 + data.length
  let nlmsgAlen := align4 (msg.u32 0)
  if nlmsgAlen + align4 rtaLen > kMaxNlPayloadSize then
    .lift (.error (.status .NO_MESSAGE_BUFFER))
  else do
    let msg ← .put .msg msg nlmsgAlen (le16 rtaLen ++ le16 type ++ data)
    .put .msg msg 0 (le32 (nlmsgAlen + align4 rtaLen))

/-- `rtnh->rtnh_len += n`. -/
def growRtnh (rta : Buffer) (rtnh n : ℕ) : Logged Buffer :=
  putHop rta rtnh (le16 (rta.u16 rtnh + n))

/-- The fields of a next hop as every `add…Nexthop` sets them first. -/
def setRtnh (rta : Buffer) (rtnh : ℕ) (ifIndex : Option UInt32) : Logged Buffer := do
  let rta ← putHop rta rtnh (le16 8)
  let rta ← ifIndex.elim (pure rta) fun i => putHop rta (rtnh + 4) (le32 i.toNat)
  putHop rta (rtnh + 2) [0, 0]

/-- The attribute `RTA_GATEWAY` at the end of `addIpNexthop` and `addLabelNexthop`. -/
def addGateway [EmptyBytes] (rta : Buffer) (rtnh : ℕ) (via : IPAddress) : Logged Buffer := do
  let bytes ← .lift via.bytes?
  let r ← addSubAttributes rta RTA_GATEWAY bytes
  growRtnh r.1 rtnh (bytes.length + 4)

/-- `addIpNexthop`. -/
def addIpNexthop [EmptyBytes] (rta : Buffer) (rtnh : ℕ) (path : NextHop) (route : Route) :
    Logged Buffer := do
  let rta ← setRtnh rta rtnh path.ifIndex
  match path.gateway with
  | none =>
    if route.type = RTN_MULTICAST ∨ route.scope = RT_SCOPE_LINK then pure rta
    else .lift (.error (.status .NO_NEXTHOP_IP))
  | some via => addGateway rta rtnh via

/-- The attribute `RTA_NEWDST` of `addSwapOrPHPNexthop`, if there is a label to swap in. -/
def addSwapLabel (rta : Buffer) : Option UInt32 → Logged Buffer
  | none => pure rta
  | some label => do
    let r ← addSubAttributes rta RTA_NEWDST (beBytes32 (encodeLabel label true))
    pure r.1

/-- `addSwapOrPHPNexthop`. -/
def addSwapOrPHPNexthop [EmptyBytes] (rta : Buffer) (rtnh : ℕ) (path : NextHop) :
    Logged Buffer := do
  let ifIndex ← .lift (optionalValue path.ifIndex)
  let rta ← setRtnh rta rtnh (some ifIndex)
  let prevLen := rta.u16 0
  let rta ← addSwapLabel rta path.swapLabel
  let rta ← growRtnh rta rtnh (rta.u16 0 - prevLen)
  let gw ← .lift (optionalValue path.gateway)
  let ip ← .lift gw.bytes?
  let via := le16 path.getFamily.toNat ++ ip
  let r ← addSubAttributes rta RTA_VIA via
  growRtnh r.1 rtnh (via.length + 4)

/-- `addPopNexthop`. -/
def addPopNexthop (rta : Buffer) (rtnh : ℕ) (path : NextHop) : Logged Buffer :=
  match path.ifIndex with
  | none => .lift (.error (.status .NO_LOOPBACK_INDEX))
  | some ifIndex => do
    let rta ← setRtnh rta rtnh (some ifIndex)
    let r ← addSubAttributes rta RTA_OIF (le32 ifIndex.toNat)
    growRtnh r.1 rtnh (4 + 4)

/-- `addLabelNexthop`. -/
def addLabelNexthop [EmptyBytes] (rta : Buffer) (rtnh : ℕ) (path : NextHop) : Logged Buffer := do
  let ifIndex ← .lift (optionalValue path.ifIndex)
  let rta ← setRtnh rta rtnh (some ifIndex)
  let prevLen := rta.u16 0
  let encap ← addSubAttributes rta RTA_ENCAP []
  match path.pushLabels with
  | none => .lift (.error (.status .NO_LABEL))
  | some labels =>
    if labels.length > kMaxLabels then .lift (.error .checkFailed)
    else do
      let r ← addSubAttributes encap.1 MPLS_IPTUNNEL_DST (encodeLabels labels)
      let rta ← putHop r.1 encap.2 (le16 (align4 (r.1.u16 0) - prevLen))
      let r ← addSubAttributes rta RTA_ENCAP_TYPE (le16 LWTUNNEL_ENCAP_MPLS)
      let rta ← growRtnh r.1 rtnh (r.1.u16 0 - prevLen)
      match path.gateway with
      | none => .lift (.error (.status .NO_NEXTHOP_IP))
      | some via => addGateway rta rtnh via

/-- The `switch` of `addMultiPathNexthop`. -/
def addNexthop [EmptyBytes] (rta : Buffer) (rtnh : ℕ) (path : NextHop) (route : Route) :
    Logged Buffer :=
  match path.labelAction with
  | some .PUSH => addLabelNexthop rta rtnh path
  | some .SWAP | some .PHP => addSwapOrPHPNexthop rta rtnh path
  | some .POP_AND_LOOKUP => addPopNexthop rta rtnh path
  | none => addIpNexthop rta rtnh path route

/-- The loop of `addMultiPathNexthop`. -/
def addPaths [EmptyBytes] (route : Route) : List NextHop → Buffer → ℕ → Logged Buffer
  | [], rta, _ => pure rta
  | path :: paths, rta, rtnh => do
    let rta ← putHop rta rtnh (le16 8)
    let rta ← putHop rta 0 (le16 (rta.u16 0 + rta.u16 rtnh))
    let rta ← addNexthop rta rtnh path route
    addPaths route paths rta (rtnh + align4 (rta.u16 rtnh))

/-- `addMultiPathNexthop`. -/
def addMultiPathNexthop [EmptyBytes] (route : Route) (paths : List NextHop) : Logged Buffer := do
  let rta ← putHop [] 0 (le16 4 ++ le16 RTA_MULTIPATH)
  addPaths route paths rta 4

/-! ## The results are those without the log -/

@[simp] private theorem eval_putHop (rta : Buffer) (o : ℕ) (bs : List UInt8) :
    (putHop rta o bs).eval = .ok (rta.write o bs) := rfl

private theorem eval_addSubAttributes (rta : Buffer) (type : ℕ) (data : List UInt8) :
    (addSubAttributes rta type data).eval =
      NetlinkRouteMessage.addSubAttributes rta type data := by
  unfold addSubAttributes NetlinkRouteMessage.addSubAttributes
  dsimp only
  split
  · rfl
  · rfl

/-- Without its log, the encoder of an attribute is the plain one. -/
theorem eval_addAttributes (type : ℕ) (data : List UInt8) (msg : Buffer) :
    (addAttributes type data msg).eval = NetlinkRouteMessage.addAttributes type data msg := by
  unfold addAttributes NetlinkRouteMessage.addAttributes
  dsimp only
  split
  · rfl
  · rfl

@[simp] private theorem eval_growRtnh (rta : Buffer) (rtnh n : ℕ) :
    (growRtnh rta rtnh n).eval = .ok (NetlinkRouteMessage.growRtnh rta rtnh n) := rfl

@[simp] private theorem eval_setRtnh (rta : Buffer) (rtnh : ℕ) (ifIndex : Option UInt32) :
    (setRtnh rta rtnh ifIndex).eval = .ok (NetlinkRouteMessage.setRtnh rta rtnh ifIndex) := by
  cases ifIndex with
  | none => rfl
  | some i => rfl

private theorem eval_addGateway [EmptyBytes] (rta : Buffer) (rtnh : ℕ) (via : IPAddress) :
    (addGateway rta rtnh via).eval = NetlinkRouteMessage.addGateway rta rtnh via := by
  simp only [addGateway, NetlinkRouteMessage.addGateway, SpanWriter.eval_bind, SpanWriter.eval_lift,
    eval_addSubAttributes, eval_growRtnh]

private theorem eval_addIpNexthop [EmptyBytes] (rta : Buffer) (rtnh : ℕ) (path : NextHop)
    (route : Route) :
    (addIpNexthop rta rtnh path route).eval =
      NetlinkRouteMessage.addIpNexthop rta rtnh path route := by
  simp only [addIpNexthop, NetlinkRouteMessage.addIpNexthop, SpanWriter.eval_bind, eval_setRtnh]
  cases path.gateway with
  | none =>
    dsimp only
    split
    · rfl
    · rfl
  | some via => exact eval_addGateway _ rtnh via

private theorem eval_addSwapLabel (rta : Buffer) (label : Option UInt32) :
    (addSwapLabel rta label).eval = NetlinkRouteMessage.addSwapLabel rta label := by
  cases label with
  | none => rfl
  | some label =>
    rw [addSwapLabel, NetlinkRouteMessage.addSwapLabel, SpanWriter.eval_bind, eval_addSubAttributes]
    rfl

private theorem eval_addSwapOrPHPNexthop [EmptyBytes] (rta : Buffer) (rtnh : ℕ) (path : NextHop) :
    (addSwapOrPHPNexthop rta rtnh path).eval =
      NetlinkRouteMessage.addSwapOrPHPNexthop rta rtnh path := by
  simp only [addSwapOrPHPNexthop, NetlinkRouteMessage.addSwapOrPHPNexthop, SpanWriter.eval_bind,
    SpanWriter.eval_lift, eval_setRtnh, eval_addSwapLabel, eval_growRtnh, eval_addSubAttributes]
  rfl

private theorem eval_addPopNexthop (rta : Buffer) (rtnh : ℕ) (path : NextHop) :
    (addPopNexthop rta rtnh path).eval = NetlinkRouteMessage.addPopNexthop rta rtnh path := by
  unfold addPopNexthop NetlinkRouteMessage.addPopNexthop
  cases path.ifIndex with
  | none => rfl
  | some ifIndex =>
    simp only [SpanWriter.eval_bind, eval_setRtnh, eval_addSubAttributes, eval_growRtnh]
    rfl

private theorem eval_addLabelNexthop [EmptyBytes] (rta : Buffer) (rtnh : ℕ) (path : NextHop) :
    (addLabelNexthop rta rtnh path).eval =
      NetlinkRouteMessage.addLabelNexthop rta rtnh path := by
  unfold addLabelNexthop NetlinkRouteMessage.addLabelNexthop
  cases path.pushLabels with
  | none =>
    simp only [SpanWriter.eval_bind, SpanWriter.eval_lift, eval_setRtnh, eval_addSubAttributes]
    rfl
  | some labels =>
    by_cases hlabels : labels.length > kMaxLabels
    · simp only [SpanWriter.eval_bind, SpanWriter.eval_lift, eval_setRtnh, eval_addSubAttributes,
        if_pos hlabels]
      rfl
    · cases path.gateway with
      | none =>
        simp only [SpanWriter.eval_bind, SpanWriter.eval_lift, eval_setRtnh, eval_addSubAttributes,
          if_neg hlabels, eval_putHop, eval_growRtnh]
        rfl
      | some via =>
        simp only [SpanWriter.eval_bind, SpanWriter.eval_lift, eval_setRtnh, eval_addSubAttributes,
          if_neg hlabels, eval_putHop, eval_growRtnh, eval_addGateway]
        rfl

private theorem eval_addNexthop [EmptyBytes] (rta : Buffer) (rtnh : ℕ) (path : NextHop)
    (route : Route) :
    (addNexthop rta rtnh path route).eval = NetlinkRouteMessage.addNexthop rta rtnh path route := by
  unfold addNexthop NetlinkRouteMessage.addNexthop
  cases path.labelAction with
  | none => exact eval_addIpNexthop rta rtnh path route
  | some action =>
    cases action with
    | PUSH => exact eval_addLabelNexthop rta rtnh path
    | SWAP => exact eval_addSwapOrPHPNexthop rta rtnh path
    | PHP => exact eval_addSwapOrPHPNexthop rta rtnh path
    | POP_AND_LOOKUP => exact eval_addPopNexthop rta rtnh path

private theorem eval_addPaths [EmptyBytes] (route : Route) (paths : List NextHop) (rta : Buffer)
    (rtnh : ℕ) :
    (addPaths route paths rta rtnh).eval = NetlinkRouteMessage.addPaths route paths rta rtnh := by
  induction paths generalizing rta rtnh with
  | nil => rfl
  | cons path paths ih =>
    simp only [addPaths, NetlinkRouteMessage.addPaths, SpanWriter.eval_bind, eval_putHop,
      eval_addNexthop, ih]
    rfl

/-- And the one of all next hops. -/
theorem eval_addMultiPathNexthop [EmptyBytes] (route : Route) (paths : List NextHop) :
    (addMultiPathNexthop route paths).eval =
      NetlinkRouteMessage.addMultiPathNexthop route paths := by
  rw [addMultiPathNexthop, SpanWriter.eval_bind, eval_putHop]
  exact eval_addPaths route paths _ 4

/-! ## Where they write -/

/-- How much of the header of a next hop is written: the interface index only if there is one. -/
def headerSize (path : NextHop) : ℕ := if path.ifIndex.isSome then 8 else 4

/-- The header that is written first has four or eight bytes. -/
theorem headerSize_bounds (path : NextHop) : 4 ≤ headerSize path ∧ headerSize path ≤ 8 := by
  unfold headerSize
  split <;> omega

variable {rta : Buffer} {rtnh bound : ℕ} {path : NextHop} {route : Route}

/-- An attribute is written where it was found to fit. -/
theorem below_addSubAttributes (hmax : kMaxNlPayloadSize ≤ bound) (rta : Buffer) (type : ℕ)
    (data : List UInt8) : (addSubAttributes rta type data).Below bound := by
  have hle := le_align4 (4 + data.length)
  have hsize : kMaxNlPayloadSize = 4096 := rfl
  unfold addSubAttributes
  dsimp only
  split
  · exact SpanWriter.below_lift _
  next hfits =>
    refine .bind (SpanWriter.below_put ?_) fun _ _ =>
      .bind (SpanWriter.below_put ?_) fun _ _ => SpanWriter.below_pure _
    · simp only [List.length_append, length_le16]
      omega
    · simp only [length_le16]
      omega

/-- Every byte of the message buffer that is written lies inside it. -/
theorem below_addAttributes (type : ℕ) (data : List UInt8) (msg : Buffer) :
    (addAttributes type data msg).Below kMaxNlPayloadSize := by
  have hle := le_align4 (4 + data.length)
  have hsize : kMaxNlPayloadSize = 4096 := rfl
  unfold addAttributes
  dsimp only
  split
  · exact SpanWriter.below_lift _
  next hfits =>
    refine .bind (SpanWriter.below_put ?_) fun _ _ => SpanWriter.below_put ?_
    · simp only [List.length_append, length_le16]
      omega
    · simp only [length_le32]
      omega

private theorem addSubAttributes_offset {type : ℕ} {data : List UInt8} {r : Buffer × ℕ}
    (h : (addSubAttributes rta type data).eval = .ok r) : r.2 + 4 ≤ kMaxNlPayloadSize := by
  have hle := le_align4 (4 + data.length)
  rw [eval_addSubAttributes, NetlinkRouteMessage.addSubAttributes] at h
  dsimp only at h
  split at h
  · cases h
  · cases h
    dsimp only
    omega

private theorem below_growRtnh (h : rtnh + 4 ≤ bound) (n : ℕ) : (growRtnh rta rtnh n).Below bound :=
  SpanWriter.below_put (by simp only [length_le16]; omega)

private theorem below_setRtnh {ifIndex : Option UInt32}
    (h : rtnh + (if ifIndex.isSome then 8 else 4) ≤ bound) :
    (setRtnh rta rtnh ifIndex).Below bound := by
  have hfour : rtnh + 4 ≤ bound := by
    split at h <;> omega
  refine .bind (SpanWriter.below_put (by simp only [length_le16]; omega)) fun rta _ => ?_
  refine .bind ?_ fun rta _ =>
    SpanWriter.below_put (by simp only [List.length_cons, List.length_nil]; omega)
  cases ifIndex with
  | none => exact SpanWriter.below_pure _
  | some i => exact SpanWriter.below_put h

private theorem below_addGateway [EmptyBytes] (hmax : kMaxNlPayloadSize ≤ bound)
    (h : rtnh + 4 ≤ bound) (via : IPAddress) : (addGateway rta rtnh via).Below bound :=
  .bind (SpanWriter.below_lift _) fun _ _ =>
    .bind (below_addSubAttributes hmax _ _ _) fun _ _ => below_growRtnh h _

private theorem below_addIpNexthop [EmptyBytes] (hmax : kMaxNlPayloadSize ≤ bound)
    (h : rtnh + headerSize path ≤ bound) : (addIpNexthop rta rtnh path route).Below bound := by
  have hfour : rtnh + 4 ≤ bound := by
    unfold headerSize at h
    split at h <;> omega
  refine .bind (below_setRtnh h) fun rta _ => ?_
  cases path.gateway with
  | none =>
    dsimp only
    split
    · exact SpanWriter.below_pure _
    · exact SpanWriter.below_lift _
  | some via => exact below_addGateway hmax hfour via

private theorem below_addSwapOrPHPNexthop [EmptyBytes] (hmax : kMaxNlPayloadSize ≤ bound)
    (h : rtnh + headerSize path ≤ bound) : (addSwapOrPHPNexthop rta rtnh path).Below bound := by
  refine .bind (SpanWriter.below_lift _) fun ifIndex hindex => ?_
  rw [headerSize, optionalValue_eq_ok hindex] at h
  have hfour : rtnh + 4 ≤ bound := Nat.le_trans (by simp) h
  refine .bind (below_setRtnh h) fun rta _ => ?_
  have hswap : (addSwapLabel rta path.swapLabel).Below bound := by
    cases path.swapLabel with
    | none => exact SpanWriter.below_pure _
    | some label =>
      exact .bind (below_addSubAttributes hmax _ _ _) fun _ _ => SpanWriter.below_pure _
  exact hswap.bind fun _ _ => .bind (below_growRtnh hfour _) fun _ _ =>
    .bind (SpanWriter.below_lift _) fun _ _ => .bind (SpanWriter.below_lift _) fun _ _ =>
      .bind (below_addSubAttributes hmax _ _ _) fun _ _ => below_growRtnh hfour _

private theorem below_addPopNexthop (hmax : kMaxNlPayloadSize ≤ bound)
    (h : rtnh + headerSize path ≤ bound) : (addPopNexthop rta rtnh path).Below bound := by
  unfold addPopNexthop
  cases hindex : path.ifIndex with
  | none => exact SpanWriter.below_lift _
  | some ifIndex =>
    rw [headerSize, hindex] at h
    have hfour : rtnh + 4 ≤ bound := Nat.le_trans (by simp) h
    exact .bind (below_setRtnh h) fun _ _ =>
      .bind (below_addSubAttributes hmax _ _ _) fun _ _ => below_growRtnh hfour _

private theorem below_addLabelNexthop [EmptyBytes] (hmax : kMaxNlPayloadSize ≤ bound)
    (h : rtnh + headerSize path ≤ bound) : (addLabelNexthop rta rtnh path).Below bound := by
  refine .bind (SpanWriter.below_lift _) fun ifIndex hindex => ?_
  rw [headerSize, optionalValue_eq_ok hindex] at h
  have hfour : rtnh + 4 ≤ bound := Nat.le_trans (by simp) h
  refine .bind (below_setRtnh h) fun rta _ =>
    .bind (below_addSubAttributes hmax _ _ _) fun encap hencap => ?_
  cases path.pushLabels with
  | none => exact SpanWriter.below_lift _
  | some labels =>
    dsimp only
    split
    · exact SpanWriter.below_lift _
    · -- the length of the attribute around the labels is corrected where the attribute begins
      have hoffset : encap.2 + 4 ≤ bound := Nat.le_trans (addSubAttributes_offset hencap) hmax
      refine .bind (below_addSubAttributes hmax _ _ _) fun _ _ =>
        .bind (SpanWriter.below_put (by simp only [length_le16]; omega)) fun _ _ =>
          .bind (below_addSubAttributes hmax _ _ _) fun _ _ =>
            .bind (below_growRtnh hfour _) fun rta _ => ?_
      cases path.gateway with
      | none => exact SpanWriter.below_lift _
      | some via => exact below_addGateway hmax hfour via

/-- A next hop writes its header, and attributes that were found to fit. -/
theorem below_addNexthop [EmptyBytes] (hmax : kMaxNlPayloadSize ≤ bound)
    (h : rtnh + headerSize path ≤ bound) : (addNexthop rta rtnh path route).Below bound := by
  unfold addNexthop
  cases path.labelAction with
  | none => exact below_addIpNexthop hmax h
  | some action =>
    cases action with
    | PUSH => exact below_addLabelNexthop hmax h
    | SWAP => exact below_addSwapOrPHPNexthop hmax h
    | PHP => exact below_addSwapOrPHPNexthop hmax h
    | POP_AND_LOOKUP => exact below_addPopNexthop hmax h

end Logged

/-- The values that the action of a next hop requires. -/
def Present (route : Route) (path : NextHop) : Prop :=
  match path.labelAction with
  | some .PUSH =>
    path.ifIndex.isSome ∧ path.pushLabels.isSome ∧ ∃ via, path.gateway = some via ∧ via ≠ .empty
  | some .SWAP | some .PHP =>
    path.ifIndex.isSome ∧ ∃ via, path.gateway = some via ∧ via ≠ .empty
  | some .POP_AND_LOOKUP => path.ifIndex.isSome
  | none =>
    path.gateway ≠ some .empty ∧
      (path.gateway = none → route.type = RTN_MULTICAST ∨ route.scope = RT_SCOPE_LINK)

namespace Logged

variable {rta : Buffer} {rtnh : ℕ} {path : NextHop} {route : Route}

/-- The header is written to its end. -/
theorem exists_stop_setRtnh (rta : Buffer) (rtnh : ℕ) (ifIndex : Option UInt32) :
    ∃ w ∈ (setRtnh rta rtnh ifIndex).writes,
      w.stop = rtnh + (if ifIndex.isSome then 8 else 4) := by
  cases ifIndex with
  | none => exact ⟨⟨.nhop, rtnh + 2, 2⟩, List.mem_cons_of_mem _ List.mem_cons_self, rfl⟩
  | some i => exact ⟨⟨.nhop, rtnh + 4, 4⟩, List.mem_cons_of_mem _ List.mem_cons_self, rfl⟩

/-- With its values present a next hop writes its header, whether or not the rest fits. -/
theorem exists_stop_addNexthop [EmptyBytes] (rta : Buffer) (rtnh : ℕ) (h : Present route path) :
    ∃ w ∈ (addNexthop rta rtnh path route).writes, w.stop = rtnh + headerSize path := by
  obtain ⟨w, hw, hstop⟩ := exists_stop_setRtnh rta rtnh path.ifIndex
  refine ⟨w, ?_, hstop⟩
  unfold Present at h
  unfold addNexthop
  cases haction : path.labelAction with
  | none => exact SpanWriter.mem_writes_bind hw
  | some action =>
    have hindex : path.ifIndex.isSome = true := by
      cases action <;> simp only [haction] at h <;> first | exact h.1 | exact h
    obtain ⟨ifIndex, hindex⟩ := Option.isSome_iff_exists.mp hindex
    have hvalue :
        (SpanWriter.lift (optionalValue path.ifIndex) : Logged UInt32).eval = .ok ifIndex := by
      rw [hindex]
      rfl
    rw [hindex] at hw
    cases action with
    | PUSH => exact SpanWriter.mem_writes_bind_of_ok hvalue (SpanWriter.mem_writes_bind hw)
    | SWAP => exact SpanWriter.mem_writes_bind_of_ok hvalue (SpanWriter.mem_writes_bind hw)
    | PHP => exact SpanWriter.mem_writes_bind_of_ok hvalue (SpanWriter.mem_writes_bind hw)
    | POP_AND_LOOKUP =>
      simp only [addPopNexthop, hindex]
      exact SpanWriter.mem_writes_bind hw

/-- The buffer after the header of the next hop was opened, and the length grew by the header. -/
def openHop (rta : Buffer) (rtnh : ℕ) : Buffer :=
  (rta.write rtnh (le16 8)).write 0
    (le16 ((rta.write rtnh (le16 8)).u16 0 + (rta.write rtnh (le16 8)).u16 rtnh))

/-- The loop stays inside the buffer exactly if the header of the first next hop does and, should
this next hop be accepted, the rest of the loop. -/
theorem below_addPaths_cons [EmptyBytes] (h : Present route path) (paths : List NextHop)
    (rta : Buffer) (rtnh : ℕ) :
    (addPaths route (path :: paths) rta rtnh).Below kMaxNlPayloadSize ↔
      rtnh + headerSize path ≤ kMaxNlPayloadSize ∧
        ∀ rta', NetlinkRouteMessage.addNexthop (openHop rta rtnh) rtnh path route = .ok rta' →
          (addPaths route paths rta' (rtnh + align4 (rta'.u16 rtnh))).Below kMaxNlPayloadSize := by
  have hfour := (headerSize_bounds path).1
  have hmax : kMaxNlPayloadSize = 4096 := rfl
  constructor
  · intro hbelow
    constructor
    · obtain ⟨w, hw, hstop⟩ := exists_stop_addNexthop (openHop rta rtnh) rtnh h
      exact hstop ▸ hbelow w (SpanWriter.mem_writes_bind_of_ok rfl
        (SpanWriter.mem_writes_bind_of_ok rfl (SpanWriter.mem_writes_bind hw)))
    · intro rta' hok w hw
      rw [← eval_addNexthop] at hok
      exact hbelow w (SpanWriter.mem_writes_bind_of_ok rfl
        (SpanWriter.mem_writes_bind_of_ok rfl (SpanWriter.mem_writes_bind_of_ok hok hw)))
  · rintro ⟨hheader, hrest⟩
    refine .bind (SpanWriter.below_put (by simp only [length_le16]; omega)) fun b hb =>
      .bind (SpanWriter.below_put (by simp only [length_le16]; omega)) fun b' hb' =>
        .bind (below_addNexthop (Nat.le_refl _) hheader) fun rta' hok => ?_
    obtain rfl := Except.ok.inj hb
    obtain rfl := Except.ok.inj hb'
    rw [eval_addNexthop] at hok
    exact hrest rta' hok

end Logged

end NetlinkRouteMessage

end Fbmeshd
