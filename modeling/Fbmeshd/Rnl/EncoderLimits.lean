import Fbmeshd.Rnl.EncoderWrites

/-!
# When the encoder stays inside its buffers

The header of a next hop is written before anything is compared with the size of the buffer. So
the buffer of the next hops is left exactly if a next hop is reached whose header does not fit
behind the ones before it.
-/

namespace Fbmeshd

open Bytes

namespace NetlinkRouteMessage

/-- The attributes of a next hop, of which one with neither an action nor a gateway has none. -/
def hopAttrs (path : NextHop) : List (ℕ × List UInt8) :=
  if path.labelAction = none ∧ path.gateway = none then [] else nextHopAttrs path

/-- The bytes of a next hop, with or without a gateway. -/
def encodedHop (path : NextHop) : List UInt8 :=
  hopBytes (8 + Rtattr.listLength (hopAttrs path)) (path.ifIndex.getD 0)
    (Rtattr.encodeAll (hopAttrs path))

/-- The size of a next hop in the buffer. -/
def hopSize (path : NextHop) : ℕ := (encodedHop path).length

private theorem hopSize_eq (path : NextHop) :
    hopSize path = 8 + (Rtattr.encodeAll (hopAttrs path)).length :=
  length_hopBytes _ _ _

private theorem align4_hopLen (path : NextHop) :
    align4 (8 + Rtattr.listLength (hopAttrs path)) = hopSize path := by
  rw [hopSize_eq, ← Rtattr.align4_listLength]
  simp only [align4]
  omega

section Paths

variable {b b' : Buffer} {pre : List UInt8} {path : NextHop} {paths : List NextHop}
  {route : Route}

/-- An accepted next hop is in the buffer. It ends inside unless it has no attributes, in which
case its end was not compared with the size of the buffer. -/
theorem Hop.addNexthop_ok [EmptyBytes] (h : Hop b pre 8 0 [])
    (hok : NetlinkRouteMessage.addNexthop b (4 + pre.length) path route = .ok b') :
    Hop b' pre (8 + Rtattr.listLength (hopAttrs path)) (path.ifIndex.getD 0)
        (Rtattr.encodeAll (hopAttrs path)) ∧
      (hopSize path = 8 ∨ 4 + pre.length + hopSize path ≤ kMaxNlPayloadSize) := by
  by_cases hfree : path.labelAction = none ∧ path.gateway = none
  · have hattrs : hopAttrs path = [] := if_pos hfree
    simp only [NetlinkRouteMessage.addNexthop, NetlinkRouteMessage.addIpNexthop, hfree.1,
      hfree.2] at hok
    split at hok
    · obtain rfl := Except.ok.inj hok
      rw [hopSize_eq, hattrs]
      exact ⟨h.setRtnh path.ifIndex, .inl rfl⟩
    · cases hok
  · have hattrs : hopAttrs path = nextHopAttrs path := if_neg hfree
    obtain ⟨hop, hfits⟩ := h.addNexthop (fun hnone hgw => hfree ⟨hnone, hgw⟩) hok
    rw [nextHopBytes, length_hopBytes] at hfits
    rw [hopSize_eq, hattrs]
    exact ⟨hop, .inr hfits⟩

/-- The next hop after an accepted one begins where that one ends. -/
theorem Hop.next_offset
    (h : Hop b pre (8 + Rtattr.listLength (hopAttrs path)) (path.ifIndex.getD 0)
      (Rtattr.encodeAll (hopAttrs path))) :
    4 + pre.length + align4 (b.u16 (4 + pre.length)) = 4 + (pre ++ encodedHop path).length := by
  have hlt : 8 + Rtattr.listLength (hopAttrs path) < 2 ^ 16 := by
    have hle := le_align4 (8 + Rtattr.listLength (hopAttrs path))
    have hfits := h.fits
    rw [align4_hopLen, hopSize_eq] at hle
    rw [List.length_append, length_hopBytes] at hfits
    omega
  have hlen : b.u16 (4 + pre.length) = 8 + Rtattr.listLength (hopAttrs path) :=
    h.assembled.holds.u16 hlt
  rw [hlen, align4_hopLen, List.length_append, hopSize, Nat.add_assoc]

/-- Where each reached next hop begins, its header fits. -/
def HeadersFit [EmptyBytes] (route : Route) (paths : List NextHop) (b : Buffer) (o : ℕ) : Prop :=
  ∀ before path after, paths = before ++ path :: after →
    (∃ b', addPaths route before b o = .ok b') →
      o + (before.map hopSize).sum + Logged.headerSize path ≤ kMaxNlPayloadSize

/-- If all next hops fit, so do their headers. -/
theorem headersFit_of_sum [EmptyBytes] {o : ℕ}
    (h : o + (paths.map hopSize).sum ≤ kMaxNlPayloadSize) : HeadersFit route paths b o := by
  rintro before path after rfl -
  have hheader := (Logged.headerSize_bounds path).2
  have hpath := hopSize_eq path
  rw [List.map_append, List.map_cons, List.sum_append, List.sum_cons] at h
  omega

private theorem addPaths_cons_ok [EmptyBytes] {o : ℕ} :
    (∃ b'', addPaths route (path :: paths) b o = .ok b'') ↔
      ∃ b', addNexthop (Logged.openHop b o) o path route = .ok b' ∧
        ∃ b'', addPaths route paths b' (o + align4 (b'.u16 o)) = .ok b'' := by
  constructor
  · rintro ⟨b'', h⟩
    obtain ⟨b', hb', h⟩ := Except.bind_eq_ok_iff.mp h
    exact ⟨b', hb', b'', h⟩
  · rintro ⟨b', hb', b'', h⟩
    refine ⟨b'', ?_⟩
    show (addNexthop (Logged.openHop b o) o path route >>= fun rta =>
      addPaths route paths rta (o + align4 (rta.u16 o))) = .ok b''
    rw [hb']
    exact h

/-- An accepted next hop leads from one regular buffer to the next. -/
theorem Assembled.step [EmptyBytes] (h : Assembled b (4 + pre.length) pre) (hdvd : 4 ∣ pre.length)
    (hheader : 4 + pre.length + Logged.headerSize path ≤ kMaxNlPayloadSize)
    (hok : NetlinkRouteMessage.addNexthop (Logged.openHop b (4 + pre.length)) (4 + pre.length) path
      route = .ok b') :
    Assembled b' (4 + (pre ++ encodedHop path).length) (pre ++ encodedHop path) ∧
      4 ∣ (pre ++ encodedHop path).length ∧
      4 + (pre ++ encodedHop path).length ≤ kMaxNlPayloadSize + 4 ∧
      4 + pre.length + align4 (b'.u16 (4 + pre.length)) = 4 + (pre ++ encodedHop path).length := by
  have hfour := (Logged.headerSize_bounds path).1
  obtain ⟨hop, hsize⟩ := (h.openHop hdvd (by omega)).addNexthop_ok hok
  refine ⟨hop.assembled, hop.dvd_body, ?_, hop.next_offset⟩
  have hlen : (pre ++ encodedHop path).length = pre.length + hopSize path := List.length_append
  omega

private theorem HeadersFit.head [EmptyBytes]
    (hfit : HeadersFit route (path :: paths) b (4 + pre.length)) :
    4 + pre.length + Logged.headerSize path ≤ kMaxNlPayloadSize := by
  have hheader := hfit [] path paths rfl ⟨b, rfl⟩
  rwa [List.map_nil, List.sum_nil, Nat.add_zero] at hheader

private theorem HeadersFit.tail [EmptyBytes]
    (hfit : HeadersFit route (path :: paths) b (4 + pre.length))
    (hok : addNexthop (Logged.openHop b (4 + pre.length)) (4 + pre.length) path route = .ok b')
    (hnext : 4 + pre.length + align4 (b'.u16 (4 + pre.length)) =
      4 + (pre ++ encodedHop path).length) :
    HeadersFit route paths b' (4 + (pre ++ encodedHop path).length) := by
  intro before p after hsplit haccepted
  have hp := hfit (path :: before) p after (by rw [hsplit]; rfl)
    (addPaths_cons_ok.mpr ⟨b', hok, by rwa [hnext]⟩)
  rw [List.map_cons, List.sum_cons] at hp
  rw [List.length_append, ← hopSize]
  omega

/-- The loop stays inside the buffer exactly if the headers do. -/
theorem below_addPaths_iff [EmptyBytes] (hpresent : ∀ path ∈ paths, Present route path)
    (h : Assembled b (4 + pre.length) pre) (hdvd : 4 ∣ pre.length) :
    (Logged.addPaths route paths b (4 + pre.length)).Below kMaxNlPayloadSize ↔
      HeadersFit route paths b (4 + pre.length) := by
  induction paths generalizing b pre with
  | nil =>
    refine iff_of_true (SpanWriter.below_pure _) fun before path after hsplit => ?_
    simp at hsplit
  | cons path paths ih =>
    obtain ⟨hpath, hpaths⟩ := List.forall_mem_cons.mp hpresent
    rw [Logged.below_addPaths_cons hpath]
    constructor
    · rintro ⟨hheader, hrest⟩ before p after hsplit haccepted
      cases before with
      | nil =>
        obtain ⟨rfl, rfl⟩ := List.cons.inj hsplit
        simpa using hheader
      | cons q before =>
        obtain ⟨rfl, rfl⟩ := List.cons.inj hsplit
        obtain ⟨b', hb', haccepted⟩ := addPaths_cons_ok.mp haccepted
        obtain ⟨hasm, hdvd', -, hnext⟩ := h.step hdvd hheader hb'
        have hrest := hrest b' hb'
        rw [hnext] at hrest haccepted
        have hfit := (ih hpaths hasm hdvd').mp hrest before p after rfl haccepted
        rw [List.length_append, ← hopSize] at hfit
        rw [List.map_cons, List.sum_cons]
        omega
    · intro hfit
      refine ⟨hfit.head, fun b' hb' => ?_⟩
      obtain ⟨hasm, hdvd', -, hnext⟩ := h.step hdvd hfit.head hb'
      rw [hnext, ih hpaths hasm hdvd']
      exact hfit.tail hb' hnext

/-- With headers that fit, an accepted list of next hops is in the buffer as a whole. -/
theorem Assembled.addPaths_fit [EmptyBytes] (hfit : HeadersFit route paths b (4 + pre.length))
    (h : Assembled b (4 + pre.length) pre) (hdvd : 4 ∣ pre.length)
    (hstart : 4 + pre.length ≤ kMaxNlPayloadSize + 4)
    (hok : NetlinkRouteMessage.addPaths route paths b (4 + pre.length) = .ok b') :
    Assembled b' (4 + (pre ++ paths.flatMap encodedHop).length) (pre ++ paths.flatMap encodedHop) ∧
      4 + (pre ++ paths.flatMap encodedHop).length ≤ kMaxNlPayloadSize + 4 := by
  induction paths generalizing b pre with
  | nil =>
    obtain rfl := Except.ok.inj hok
    simpa using ⟨h, hstart⟩
  | cons path paths ih =>
    obtain ⟨b₁, hb₁, hok⟩ := Except.bind_eq_ok_iff.mp hok
    obtain ⟨hasm, hdvd', hend, hnext⟩ := h.step hdvd hfit.head hb₁
    rw [hnext] at hok
    obtain ⟨hasm', hend'⟩ := ih (hfit.tail hb₁ hnext) hasm hdvd' hend hok
    rw [List.append_assoc] at hasm' hend'
    exact ⟨hasm', hend'⟩

/-- The buffer before the first next hop. -/
theorem assembled_start :
    Assembled (le16 4 ++ le16 RTA_MULTIPATH) (4 + ([] : List UInt8).length) [] := by
  rw [Assembled, List.append_nil]
  rfl

private theorem u16_addMultiPathNexthop [EmptyBytes]
    (hfit : HeadersFit route paths (le16 4 ++ le16 RTA_MULTIPATH) 4)
    (hok : addMultiPathNexthop route paths = .ok b) :
    b.u16 0 = 4 + (paths.flatMap encodedHop).length := by
  have hmax : kMaxNlPayloadSize = 4096 := rfl
  obtain ⟨hasm, hend⟩ :=
    assembled_start.addPaths_fit hfit (Nat.dvd_zero 4) (by decide) hok
  rw [List.nil_append] at hasm hend
  exact hasm.u16_zero (by omega)

end Paths

/-! ## What is rejected -/

section Rejection

variable {α β : Type}

/-- Every failure of the computation satisfies `P`. -/
def FailsWith (P : EncodeFailure → Prop) (x : Except EncodeFailure α) : Prop :=
  ∀ e, x = .error e → P e

variable {P : EncodeFailure → Prop}

private theorem failsWith_ok (a : α) :
    FailsWith P (.ok a : Except EncodeFailure α) := fun _ h => by cases h

private theorem failsWith_error {e : EncodeFailure} (h : P e) :
    FailsWith P (.error e : Except EncodeFailure α) :=
  fun _ he => Except.error.inj he ▸ h

private theorem FailsWith.bind {x : Except EncodeFailure α} {f : α → Except EncodeFailure β}
    (hx : FailsWith P x) (hf : ∀ a, x = .ok a → FailsWith P (f a)) : FailsWith P (x >>= f) := by
  intro e he
  cases h : x with
  | ok a =>
    rw [h] at he
    exact hf a h e he
  | error e' =>
    rw [h] at he
    obtain rfl := Except.error.inj he
    exact hx _ h

private theorem failsWith_optionalValue {x : Option α} (h : x = none → P .optionalEmpty) :
    FailsWith P (optionalValue x) := by
  cases x with
  | none => exact failsWith_error (h rfl)
  | some a => exact failsWith_ok a

private theorem failsWith_bytes? [EmptyBytes] {ip : IPAddress}
    (h : ip = .empty → P .invalidAddressFamily) : FailsWith P ip.bytes? := by
  cases ip with
  | empty =>
    rw [IPAddress.bytes?]
    split
    · exact failsWith_error (h rfl)
    · exact failsWith_ok _
  | v4 b => exact failsWith_ok _
  | v6 b scopeId => exact failsWith_ok _

/-- `P` holds of the failures that the values of a next hop lead to. -/
def HopFailures (P : EncodeFailure → Prop) (route : Route) (path : NextHop) : Prop :=
  match path.labelAction with
  | some .PUSH =>
    (path.ifIndex = none → P .optionalEmpty) ∧
    (path.pushLabels = none → P (.status .NO_LABEL)) ∧
    (∀ labels, path.pushLabels = some labels → labels.length > kMaxLabels → P .checkFailed) ∧
    (path.gateway = none → P (.status .NO_NEXTHOP_IP)) ∧
    (path.gateway = some .empty → P .invalidAddressFamily)
  | some .SWAP | some .PHP =>
    (path.ifIndex = none → P .optionalEmpty) ∧ (path.gateway = none → P .optionalEmpty) ∧
    (path.gateway = some .empty → P .invalidAddressFamily)
  | some .POP_AND_LOOKUP => path.ifIndex = none → P (.status .NO_LOOPBACK_INDEX)
  | none =>
    (path.gateway = none → ¬ (route.type = RTN_MULTICAST ∨ route.scope = RT_SCOPE_LINK) →
      P (.status .NO_NEXTHOP_IP)) ∧
    (path.gateway = some .empty → P .invalidAddressFamily)

/-- `P` holds of the failures of every next hop that is reached. -/
def ReachedFailures [EmptyBytes] (P : EncodeFailure → Prop) (route : Route) (paths : List NextHop)
    (b : Buffer) (o : ℕ) : Prop :=
  ∀ before path after, paths = before ++ path :: after →
    (∃ b', addPaths route before b o = .ok b') → HopFailures P route path

section Steps

variable (hfull : P (.status .NO_MESSAGE_BUFFER))

include hfull

private theorem failsWith_addSubAttributes (rta : Buffer) (type : ℕ) (data : List UInt8) :
    FailsWith P (addSubAttributes rta type data) := by
  rw [addSubAttributes]
  dsimp only
  split
  · exact failsWith_error hfull
  · exact failsWith_ok _

private theorem failsWith_addAttributes (type : ℕ) (data : List UInt8) (msg : Buffer) :
    FailsWith P (addAttributes type data msg) := by
  rw [addAttributes]
  dsimp only
  split
  · exact failsWith_error hfull
  · exact failsWith_ok _

private theorem failsWith_addGateway [EmptyBytes] {via : IPAddress}
    (h : via = .empty → P .invalidAddressFamily) (rta : Buffer) (rtnh : ℕ) :
    FailsWith P (addGateway rta rtnh via) :=
  .bind (failsWith_bytes? h) fun _ _ =>
    .bind (failsWith_addSubAttributes hfull _ _ _) fun _ _ => failsWith_ok _

variable {route : Route} {path : NextHop} {paths : List NextHop}

private theorem failsWith_addIpNexthop [EmptyBytes]
    (hnone : path.gateway = none → ¬ (route.type = RTN_MULTICAST ∨ route.scope = RT_SCOPE_LINK) →
      P (.status .NO_NEXTHOP_IP))
    (hempty : path.gateway = some .empty → P .invalidAddressFamily) (rta : Buffer) (rtnh : ℕ) :
    FailsWith P (addIpNexthop rta rtnh path route) := by
  unfold addIpNexthop
  cases hvia : path.gateway with
  | none =>
    dsimp only
    split
    · exact failsWith_ok _
    next hroute => exact failsWith_error (hnone hvia hroute)
  | some via => exact failsWith_addGateway hfull (fun h => hempty (h ▸ hvia)) _ rtnh

private theorem failsWith_addSwapOrPHPNexthop [EmptyBytes]
    (hindex : path.ifIndex = none → P .optionalEmpty)
    (hnone : path.gateway = none → P .optionalEmpty)
    (hempty : path.gateway = some .empty → P .invalidAddressFamily) (rta : Buffer) (rtnh : ℕ) :
    FailsWith P (addSwapOrPHPNexthop rta rtnh path) := by
  refine .bind (failsWith_optionalValue hindex) fun _ _ => .bind ?_ fun _ _ =>
    .bind (failsWith_optionalValue hnone) fun via hvia => ?_
  · cases path.swapLabel with
    | none => exact failsWith_ok _
    | some label =>
      exact .bind (failsWith_addSubAttributes hfull _ _ _) fun _ _ => failsWith_ok _
  · refine .bind (failsWith_bytes? fun h => hempty ?_) fun _ _ =>
      .bind (failsWith_addSubAttributes hfull _ _ _) fun _ _ => failsWith_ok _
    rw [optionalValue_eq_ok hvia, h]

private theorem failsWith_addPopNexthop
    (hindex : path.ifIndex = none → P (.status .NO_LOOPBACK_INDEX))
    (rta : Buffer) (rtnh : ℕ) : FailsWith P (addPopNexthop rta rtnh path) := by
  unfold addPopNexthop
  cases h : path.ifIndex with
  | none => exact failsWith_error (hindex h)
  | some ifIndex => exact .bind (failsWith_addSubAttributes hfull _ _ _) fun _ _ => failsWith_ok _

private theorem failsWith_addLabelNexthop [EmptyBytes]
    (hindex : path.ifIndex = none → P .optionalEmpty)
    (hlabel : path.pushLabels = none → P (.status .NO_LABEL))
    (hcount : ∀ labels, path.pushLabels = some labels → labels.length > kMaxLabels → P .checkFailed)
    (hnone : path.gateway = none → P (.status .NO_NEXTHOP_IP))
    (hempty : path.gateway = some .empty → P .invalidAddressFamily) (rta : Buffer) (rtnh : ℕ) :
    FailsWith P (addLabelNexthop rta rtnh path) := by
  refine .bind (failsWith_optionalValue hindex) fun _ _ =>
    .bind (failsWith_addSubAttributes hfull _ _ _) fun _ _ => ?_
  dsimp only
  cases hpush : path.pushLabels with
  | none => exact failsWith_error (hlabel hpush)
  | some labels =>
    dsimp only
    split
    next hlong => exact failsWith_error (hcount labels hpush hlong)
    refine .bind (failsWith_addSubAttributes hfull _ _ _) fun _ _ =>
      .bind (failsWith_addSubAttributes hfull _ _ _) fun _ _ => ?_
    cases hvia : path.gateway with
    | none => exact failsWith_error (hnone hvia)
    | some via => exact failsWith_addGateway hfull (fun h => hempty (h ▸ hvia)) _ _

private theorem failsWith_addNexthop [EmptyBytes] (h : HopFailures P route path) (rta : Buffer)
    (rtnh : ℕ) : FailsWith P (addNexthop rta rtnh path route) := by
  unfold HopFailures at h
  unfold addNexthop
  cases haction : path.labelAction with
  | none =>
    simp only [haction] at h
    exact failsWith_addIpNexthop hfull h.1 h.2 rta rtnh
  | some action =>
    cases action with
    | PUSH =>
      simp only [haction] at h
      obtain ⟨hindex, hlabel, hcount, hnone, hempty⟩ := h
      exact failsWith_addLabelNexthop hfull hindex hlabel hcount hnone hempty rta rtnh
    | SWAP =>
      simp only [haction] at h
      exact failsWith_addSwapOrPHPNexthop hfull h.1 h.2.1 h.2.2 rta rtnh
    | PHP =>
      simp only [haction] at h
      exact failsWith_addSwapOrPHPNexthop hfull h.1 h.2.1 h.2.2 rta rtnh
    | POP_AND_LOOKUP =>
      simp only [haction] at h
      exact failsWith_addPopNexthop hfull h rta rtnh

/-- The next hops behind one that is not accepted are not looked at. -/
theorem failsWith_addPaths [EmptyBytes] {rta : Buffer} {rtnh : ℕ}
    (h : ReachedFailures P route paths rta rtnh) : FailsWith P (addPaths route paths rta rtnh) := by
  induction paths generalizing rta rtnh with
  | nil => exact failsWith_ok _
  | cons path paths ih =>
    refine .bind (failsWith_addNexthop hfull (h [] path paths rfl ⟨rta, rfl⟩) _ _) fun b hb =>
      ih fun before next after heq hbefore => ?_
    exact h (path :: before) next after (by rw [heq]; rfl) (addPaths_cons_ok.mpr ⟨b, hb, hbefore⟩)

private theorem failsWith_addNextHops [EmptyBytes] (msg : Buffer)
    (h : ReachedFailures P route paths (le16 4 ++ le16 RTA_MULTIPATH) 4) :
    FailsWith P (addNextHops route paths msg) := by
  unfold addNextHops
  split
  · exact failsWith_ok _
  · exact .bind (failsWith_addPaths hfull h) fun _ _ => failsWith_addAttributes hfull _ _ _

/-- The failures of the message that adds a route. -/
theorem failsWith_addRoute [EmptyBytes]
    (hfamily : route.family ≠ AF_INET ∧ route.family ≠ AF_INET6 →
      P (.status .INVALID_ADDRESS_FAMILY))
    (hdst : route.dst.1 = .empty → P .invalidAddressFamily)
    (h : ReachedFailures P route paths (le16 4 ++ le16 RTA_MULTIPATH) 4) :
    FailsWith P (addRoute route paths) := by
  unfold addRoute
  split
  next hother => exact failsWith_error (hfamily hother)
  refine .bind (failsWith_bytes? hdst) fun _ _ =>
    .bind (failsWith_addAttributes hfull _ _ _) fun _ _ =>
      .bind ?_ fun _ _ => failsWith_addNextHops hfull _ h
  cases route.priority with
  | none => exact failsWith_ok _
  | some adminDistance => exact failsWith_addAttributes hfull _ _ _

/-- Those of the message that adds a label route. -/
theorem failsWith_addLabelRoute [EmptyBytes]
    (hfamily : route.family ≠ AF_MPLS → P (.status .INVALID_ADDRESS_FAMILY))
    (hlabel : route.mplsLabel = none → P (.status .NO_LABEL))
    (h : ReachedFailures P route paths (le16 4 ++ le16 RTA_MULTIPATH) 4) :
    FailsWith P (addLabelRoute route paths) := by
  unfold addLabelRoute
  dsimp only
  split
  next hother => exact failsWith_error (hfamily hother)
  cases hnone : route.mplsLabel with
  | none => exact failsWith_error (hlabel hnone)
  | some label =>
    exact .bind (failsWith_addAttributes hfull _ _ _) fun _ _ => failsWith_addNextHops hfull _ h

/-- Those of the message that deletes a route. -/
theorem failsWith_deleteRoute [EmptyBytes]
    (hfamily : route.family ≠ AF_INET ∧ route.family ≠ AF_INET6 →
      P (.status .INVALID_ADDRESS_FAMILY))
    (hdst : route.dst.1 = .empty → P .invalidAddressFamily) : FailsWith P (deleteRoute route) := by
  unfold deleteRoute
  split
  next hother => exact failsWith_error (hfamily hother)
  exact .bind (failsWith_bytes? hdst) fun _ _ => failsWith_addAttributes hfull _ _ _

/-- Those of the message that deletes a label route. -/
theorem failsWith_deleteLabelRoute (hlabel : route.mplsLabel = none → P (.status .NO_LABEL)) :
    FailsWith P (deleteLabelRoute route) := by
  unfold deleteLabelRoute
  cases hnone : route.mplsLabel with
  | none => exact failsWith_error (hlabel hnone)
  | some label => exact failsWith_addAttributes hfull _ _ _

end Steps

variable {route : Route} {path : NextHop} {paths : List NextHop}

/-- With its values present a next hop is only rejected for want of space. -/
theorem hopFailures_of_present (h : Present route path)
    (hlabels : path.labelAction = some .PUSH → ∀ labels, path.pushLabels = some labels →
      labels.length ≤ kMaxLabels) :
    HopFailures (· = .status .NO_MESSAGE_BUFFER) route path := by
  unfold Present at h
  unfold HopFailures
  cases haction : path.labelAction with
  | none =>
    simp only [haction] at h
    exact ⟨fun hnone hroute => absurd (h.2 hnone) hroute, fun hempty => absurd hempty h.1⟩
  | some action => cases action <;> simp only [haction] at h <;> grind

/-- Each next hop that is reached has no more labels to push than fit on the stack. -/
def LabelsFit [EmptyBytes] (route : Route) (paths : List NextHop) : Prop :=
  ∀ before path after, paths = before ++ path :: after →
    (∃ nhop, addMultiPathNexthop route before = .ok nhop) → path.labelAction = some .PUSH →
      ∀ labels, path.pushLabels = some labels → labels.length ≤ kMaxLabels

/-- Then the next hops are only rejected for want of space. -/
theorem LabelsFit.reachedFailures [EmptyBytes] (hlabels : LabelsFit route paths)
    (h : ∀ path ∈ paths, Present route path) :
    ReachedFailures (· = .status .NO_MESSAGE_BUFFER) route paths (le16 4 ++ le16 RTA_MULTIPATH)
      4 := by
  intro before path after heq hbefore
  have hpath : path ∈ paths := heq ▸ List.mem_append_right before List.mem_cons_self
  exact hopFailures_of_present (h path hpath) (hlabels before path after heq hbefore)

/-- The size of the attribute with the next hops. -/
def nextHopsSize (paths : List NextHop) : ℕ :=
  if paths = [] then 0 else 4 + (paths.map hopSize).sum

private theorem length_flatMap_encodedHop (paths : List NextHop) :
    (paths.flatMap encodedHop).length = (paths.map hopSize).sum := List.length_flatMap

variable {b b' : Buffer} {header : List UInt8} {attrs : List (ℕ × List UInt8)}

private theorem Message.exists_addPriority (h : Message b header attrs) (priority : Option UInt32)
    (hfits : 28 + (Rtattr.encodeAll attrs).length + (if priority.isSome then 8 else 0) ≤
      kMaxNlPayloadSize) :
    ∃ b', NetlinkRouteMessage.addPriority b priority = .ok b' := by
  cases priority with
  | none => exact ⟨b, rfl⟩
  | some adminDistance => exact h.exists_addAttributes _ _ (by simpa [align4] using hfits)

/-- Next hops that were accepted into a message fit into it. -/
theorem Message.size_addNextHops [EmptyBytes] (h : Message b header attrs)
    (hfit : HeadersFit route paths (le16 4 ++ le16 RTA_MULTIPATH) 4)
    (hok : NetlinkRouteMessage.addNextHops route paths b = .ok b') :
    28 + (Rtattr.encodeAll attrs).length + nextHopsSize paths ≤ kMaxNlPayloadSize := by
  unfold nextHopsSize
  rw [NetlinkRouteMessage.addNextHops] at hok
  split at hok
  next hnil =>
    rw [if_pos (List.length_eq_zero_iff.mp hnil)]
    exact h.fits
  next hne =>
    rw [if_neg (fun hnil => hne (List.length_eq_zero_iff.mpr hnil))]
    obtain ⟨nhop, hnhop, hok⟩ := Except.bind_eq_ok_iff.mp hok
    have hmsg := (h.addAttributes hok).fits
    have hle := le_align4 (paths.map hopSize).sum
    rw [Rtattr.encodeAll_append_singleton, List.length_append, Rtattr.length_encode, length_slice,
      u16_addMultiPathNexthop hfit hnhop, Nat.add_sub_cancel_left,
      length_flatMap_encodedHop] at hmsg
    simp only [align4] at hle hmsg
    omega

/-- The size of the message of an IP route. -/
def routeSize (route : Route) (paths : List NextHop) : ℕ :=
  28 + (4 + route.dst.1.bytes.length) + (if route.priority.isSome then 8 else 0) +
    nextHopsSize paths

/-- The size of the message of a label route. -/
def labelRouteSize (paths : List NextHop) : ℕ := 28 + 8 + nextHopsSize paths

private theorem eq_full_of_not_ok {x : Except EncodeFailure α}
    (h : FailsWith (· = .status .NO_MESSAGE_BUFFER) x) (hnot : ∀ a, x ≠ .ok a) :
    x = .error (.status .NO_MESSAGE_BUFFER) := by
  cases hx : x with
  | ok a => exact absurd hx (hnot a)
  | error e => rw [h e hx]

private theorem addRoute_full [EmptyBytes]
    (hfamily : route.family = AF_INET ∨ route.family = AF_INET6) (hdst : route.dst.1 ≠ .empty)
    (h : ∀ path ∈ paths, Present route path) (hlabels : LabelsFit route paths)
    (hfit : HeadersFit route paths (le16 4 ++ le16 RTA_MULTIPATH) 4)
    (hsize : kMaxNlPayloadSize < routeSize route paths) :
    addRoute route paths = .error (.status .NO_MESSAGE_BUFFER) := by
  apply eq_full_of_not_ok
  · exact failsWith_addRoute (P := (· = .status .NO_MESSAGE_BUFFER)) rfl
      (by rcases hfamily with hf | hf <;> simp [hf])
      (fun hempty => absurd hempty hdst) (hlabels.reachedFailures h)
  · intro b hok
    obtain ⟨nlFlags, b₀, hmsg, hok⟩ := addRoute_eq_ok hok
    have hle := hmsg.size_addNextHops hfit hok
    have hdvd := route.dst.1.dvd_length_bytes
    rw [Rtattr.encodeAll_cons, List.length_append, Rtattr.length_encode,
      align4_of_dvd (by dsimp only; omega), length_encodeAll_priorityAttrs] at hle
    unfold routeSize at hsize
    dsimp only at hle
    omega

private theorem addLabelRoute_full [EmptyBytes] {label : UInt32} (hfamily : route.family = AF_MPLS)
    (hlabel : route.mplsLabel = some label) (h : ∀ path ∈ paths, Present route path)
    (hlabels : LabelsFit route paths)
    (hfit : HeadersFit route paths (le16 4 ++ le16 RTA_MULTIPATH) 4)
    (hsize : kMaxNlPayloadSize < labelRouteSize paths) :
    addLabelRoute route paths = .error (.status .NO_MESSAGE_BUFFER) := by
  apply eq_full_of_not_ok
  · exact failsWith_addLabelRoute (P := (· = .status .NO_MESSAGE_BUFFER)) rfl
      (fun hother => absurd hfamily hother)
      (fun hnone => by cases hlabel.symm.trans hnone) (hlabels.reachedFailures h)
  · intro b hok
    obtain ⟨-, nlFlags, label, b₀, -, hmsg, hok⟩ := addLabelRoute_eq_ok hok
    have hle := hmsg.size_addNextHops hfit hok
    unfold labelRouteSize at hsize
    simp [align4] at hle
    omega

end Rejection

private theorem below_addMultiPathNexthop_iff [EmptyBytes] {route : Route} {paths : List NextHop}
    (hpresent : ∀ path ∈ paths, Present route path) :
    (Logged.addMultiPathNexthop route paths).Below kMaxNlPayloadSize ↔
      HeadersFit route paths (le16 4 ++ le16 RTA_MULTIPATH) 4 := by
  refine Iff.trans ?_ (below_addPaths_iff hpresent assembled_start (Nat.dvd_zero 4))
  constructor
  · intro hbelow w hw
    exact hbelow w (SpanWriter.mem_writes_bind_of_ok rfl hw)
  · intro hbelow
    refine .bind (SpanWriter.below_put (by decide)) fun b hb => ?_
    obtain rfl := Except.ok.inj hb
    exact hbelow

/-! ### Next hops without a gateway -/

section Links

variable {route : Route} {paths : List NextHop}

/-- The next hops of a link-scope route over the first `n` interfaces. -/
def linkHops (n : ℕ) : List NextHop :=
  (List.range n).map fun i => { ifIndex := some (.ofNat (i + 1)) }

/-- A link-scope route over the first `n` interfaces. -/
def linkRoute (n : ℕ) : Route :=
  { family := AF_INET, scope := RT_SCOPE_LINK, dst := (.v4 ⟨[10, 9, 0, 0], rfl⟩, 16)
    nextHops := (linkHops n).toFinset }

private theorem nodup_linkHops {n : ℕ} (hn : n < 2 ^ 32) : (linkHops n).Nodup := by
  refine List.nodup_range.map_on fun i hi j hj heq => ?_
  rw [List.mem_range] at hi hj
  simp only [NextHop.mk.injEq, Option.some.injEq, and_true] at heq
  have hnat := congrArg UInt32.toNat heq
  have hsize : UInt32.size = 2 ^ 32 := rfl
  rw [UInt32.toNat_ofNat_of_lt' (by omega), UInt32.toNat_ofNat_of_lt' (by omega)] at hnat
  omega

private theorem length_linkHops (n : ℕ) : (linkHops n).length = n := by
  rw [linkHops, List.length_map, List.length_range]

private theorem free_of_mem_linkHops {n : ℕ} {path : NextHop} (h : path ∈ linkHops n) :
    path.labelAction = none ∧ path.gateway = none := by
  obtain ⟨i, -, rfl⟩ := List.mem_map.mp h
  exact ⟨rfl, rfl⟩

private theorem present_linkHops {n : ℕ} {path : NextHop} (h : path ∈ linkHops n) :
    Present (linkRoute n) path := by
  obtain ⟨haction, hgateway⟩ := free_of_mem_linkHops h
  simp [Present, haction, hgateway, linkRoute]

/-- Next hops that need no attribute are never compared with the size of the buffer. -/
theorem addPaths_free [EmptyBytes] (hscope : route.scope = RT_SCOPE_LINK)
    (hfree : ∀ path ∈ paths, path.labelAction = none ∧ path.gateway = none) (b : Buffer) (o : ℕ) :
    ∃ b', addPaths route paths b o = .ok b' := by
  induction paths generalizing b o with
  | nil => exact ⟨b, rfl⟩
  | cons path paths ih =>
    obtain ⟨haction, hgateway⟩ := hfree path List.mem_cons_self
    simp only [addPaths, addNexthop, addIpNexthop, haction, hgateway, hscope, or_true, if_true]
    exact ih (fun p hp => hfree p (List.mem_cons_of_mem _ hp)) _ _

/-- A next hop without attributes takes eight bytes. -/
theorem sum_hopSize_free (hfree : ∀ path ∈ paths, path.labelAction = none ∧ path.gateway = none) :
    (paths.map hopSize).sum = 8 * paths.length := by
  have height : ∀ size ∈ paths.map hopSize, size = 8 := by
    intro size hsize
    obtain ⟨path, hpath, rfl⟩ := List.mem_map.mp hsize
    rw [hopSize_eq, hopAttrs, if_pos (hfree path hpath), Rtattr.encodeAll_nil, List.length_nil]
  rw [List.eq_replicate_of_mem height, List.sum_replicate_nat, List.length_map, Nat.mul_comm]

/-- A route over interfaces whose message fits is accepted. -/
theorem addRoute_free [EmptyBytes] (hfamily : route.family = AF_INET ∨ route.family = AF_INET6)
    (hdst : route.dst.1 ≠ .empty) (hscope : route.scope = RT_SCOPE_LINK) (hne : paths ≠ [])
    (hfree : ∀ path ∈ paths, path.labelAction = none ∧ path.gateway = none)
    (hsize : routeSize route paths ≤ kMaxNlPayloadSize) :
    ∃ b, addRoute route paths = .ok b := by
  obtain ⟨nlFlags, hstart⟩ := message_init route route.family route.dst.2
  have hdvd := route.dst.1.dvd_length_bytes
  rw [routeSize, nextHopsSize, if_neg hne] at hsize
  rw [addRoute, if_neg (by rcases hfamily with hf | hf <;> simp [hf]),
    bind_of_ok (IPAddress.bytes?_of_ne hdst)]
  have halign : align4 (4 + route.dst.1.bytes.length) = 4 + route.dst.1.bytes.length :=
    align4_of_dvd (by omega)
  -- the destination, the priority and the next hops are added one after another
  obtain ⟨b₁, hb₁⟩ := hstart.exists_addAttributes RTA_DST
    route.dst.1.bytes (by rw [halign, Rtattr.encodeAll_nil, List.length_nil]; omega)
  rw [bind_of_ok hb₁]
  have hmsg₁ := hstart.addAttributes hb₁
  have hlen₁ : (Rtattr.encodeAll ([] ++ [(RTA_DST, route.dst.1.bytes)])).length =
      4 + route.dst.1.bytes.length := by
    rw [Rtattr.encodeAll_append_singleton, Rtattr.encodeAll_nil, List.nil_append,
      Rtattr.length_encode, halign]
  obtain ⟨b₂, hb₂⟩ := hmsg₁.exists_addPriority route.priority (by omega)
  rw [bind_of_ok hb₂]
  have hmsg₂ := hmsg₁.addPriority hb₂
  rw [addNextHops, if_neg (mt List.length_eq_zero_iff.mp hne)]
  obtain ⟨nhop, hnhop⟩ := addPaths_free hscope hfree (le16 4 ++ le16 RTA_MULTIPATH) 4
  have hu16 := u16_addMultiPathNexthop (headersFit_of_sum (by omega)) hnhop
  rw [length_flatMap_encodedHop] at hu16
  rw [addMultiPathNexthop, bind_of_ok hnhop]
  apply hmsg₂.exists_addAttributes
  rw [Rtattr.encodeAll_append, List.length_append, hlen₁, length_encodeAll_priorityAttrs,
    length_slice, hu16, Nat.add_sub_cancel_left, sum_hopSize_free hfree]
  rw [sum_hopSize_free hfree] at hsize
  simp only [align4]
  omega

end Links

/-- The encoder stays inside the buffer of the next hops exactly if the header of every next hop
that is reached fits behind the accepted ones; it always stays inside the buffer of the message. A
route that does not fit is then rejected for want of space. -/
theorem encoder_inside_buffers_iff [EmptyBytes] (route : Route) (paths : List NextHop)
    (hpresent : ∀ path ∈ paths, Present route path) :
    ((Logged.addMultiPathNexthop route paths).Below kMaxNlPayloadSize ↔
      ∀ before path after, paths = before ++ path :: after →
        (∃ nhop, addMultiPathNexthop route before = .ok nhop) →
          4 + (before.map hopSize).sum + Logged.headerSize path ≤ kMaxNlPayloadSize) ∧
    (∀ type data msg, (Logged.addAttributes type data msg).Below kMaxNlPayloadSize) ∧
    ((Logged.addMultiPathNexthop route paths).Below kMaxNlPayloadSize →
      LabelsFit route paths →
      ((route.family = AF_INET ∨ route.family = AF_INET6) → route.dst.1 ≠ .empty →
        kMaxNlPayloadSize < routeSize route paths →
          addRoute route paths = .error (.status .NO_MESSAGE_BUFFER)) ∧
      (∀ label, route.family = AF_MPLS → route.mplsLabel = some label →
        kMaxNlPayloadSize < labelRouteSize paths →
          addLabelRoute route paths = .error (.status .NO_MESSAGE_BUFFER))) := by
  have hiff := below_addMultiPathNexthop_iff hpresent
  refine ⟨hiff, Logged.below_addAttributes, fun hbelow hlabels => ⟨?_, ?_⟩⟩
  · exact fun hfamily hdst => addRoute_full hfamily hdst hpresent hlabels (hiff.mp hbelow)
  · exact fun label hfamily hlabel =>
      addLabelRoute_full hfamily hlabel hpresent hlabels (hiff.mp hbelow)

/-- A link-scope route over 511 interfaces stays inside the buffer of the next hops and is then too
large for the message. -/
theorem encoder_inside_buffers_511 :
    (∀ path ∈ linkHops 511, Present (linkRoute 511) path) ∧
      (Logged.addMultiPathNexthop (linkRoute 511) (linkHops 511)).Below kMaxNlPayloadSize ∧
      addRoute (linkRoute 511) (linkHops 511) = .error (.status .NO_MESSAGE_BUFFER) := by
  have hmax : kMaxNlPayloadSize = 4096 := rfl
  have hpresent : ∀ path ∈ linkHops 511, Present (linkRoute 511) path := fun _ => present_linkHops
  obtain ⟨hiff, -, hreject⟩ := encoder_inside_buffers_iff (linkRoute 511) (linkHops 511) hpresent
  have hbelow := hiff.mpr fun before path after hpaths _ => by
    have hlen := congrArg List.length hpaths
    rw [length_linkHops, List.length_append, List.length_cons] at hlen
    have hsum := sum_hopSize_free fun p (hp : p ∈ before) =>
      free_of_mem_linkHops (hpaths ▸ List.mem_append_left _ hp)
    have hheader := (Logged.headerSize_bounds path).2
    omega
  refine ⟨hpresent, hbelow, (hreject hbelow ?_).1 (.inl rfl) ?_ ?_⟩
  · intro before path after hpaths _ haction
    have hpath : path ∈ linkHops 511 := hpaths ▸ List.mem_append_right before List.mem_cons_self
    simp [(free_of_mem_linkHops hpath).1] at haction
  · simp [linkRoute]
  · have hsum := sum_hopSize_free fun path => free_of_mem_linkHops (n := 511)
    rw [length_linkHops] at hsum
    have hne : linkHops 511 ≠ [] := List.ne_nil_of_length_pos (by rw [length_linkHops]; omega)
    rw [routeSize, nextHopsSize, if_neg hne]
    omega

/-- With 512 interfaces the last header starts at offset 4092 and ends behind the buffer, which
nothing prevents. -/
theorem link_hops_leave_buffer :
    (linkHops 512).Nodup ∧ (∀ path ∈ linkHops 512, Present (linkRoute 512) path) ∧
      (∃ nhop, addMultiPathNexthop (linkRoute 512) (linkHops 512) = .ok nhop) ∧
      ¬ (Logged.addMultiPathNexthop (linkRoute 512) (linkHops 512)).Below kMaxNlPayloadSize := by
  have hpresent : ∀ path ∈ linkHops 512, Present (linkRoute 512) path := fun _ => present_linkHops
  have hfree : ∀ path ∈ linkHops 511, path.labelAction = none ∧ path.gateway = none :=
    fun _ => free_of_mem_linkHops
  refine ⟨nodup_linkHops (by decide), hpresent,
    addPaths_free rfl (fun _ => free_of_mem_linkHops) _ _, ?_⟩
  rw [below_addMultiPathNexthop_iff hpresent]
  intro hfit
  have hlast : linkHops 512 = linkHops 511 ++ [{ ifIndex := some 512 }] := by
    rw [linkHops, List.range_succ, List.map_append]
    rfl
  have hle := hfit _ _ _ hlast (addPaths_free rfl hfree _ _)
  rw [sum_hopSize_free hfree, length_linkHops] at hle
  have hheader : Logged.headerSize { ifIndex := some 512 } = 8 := rfl
  have hmax : kMaxNlPayloadSize = 4096 := rfl
  omega

end NetlinkRouteMessage

end Fbmeshd
