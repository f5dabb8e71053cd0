import Fbmeshd.Lib.Except
import Fbmeshd.Rnl.RouteMessage

/-!
# What the encoder writes

The format of route messages as lists of attributes, and the proof that the encoder writes it. The
buffer of the next hops is followed through the updates of its length fields: at each point it
holds the next hops so far, with the true length at the start.
-/

namespace Fbmeshd

open Bytes

/-- The second part goes on with the result of the first one. -/
theorem bind_of_ok {ε α β : Type} {x : Except ε α} {a : α} (h : x = .ok a) (f : α → Except ε β) :
    x >>= f = f a := by
  rw [h]
  rfl

/-- A value that is there. -/
theorem optionalValue_eq_ok {α : Type} {x : Option α} {a : α} (h : optionalValue x = .ok a) :
    x = some a := by
  cases x with
  | none => nomatch h
  | some b => exact congrArg some (Except.ok.inj h)

private theorem IPAddress.bytes?_eq_ok [EmptyBytes] {ip : IPAddress} {bs : List UInt8}
    (h : ip.bytes? = .ok bs) : bs = ip.bytes := by
  cases ip with
  | empty =>
    by_cases hthrows : EmptyBytes.throws = true
    · simp [IPAddress.bytes?, hthrows] at h
    · exact (by simpa [IPAddress.bytes?, hthrows] using h : [] = bs).symm
  | v4 b => exact (Except.ok.inj h).symm
  | v6 b scopeId => exact (Except.ok.inj h).symm

/-- An address that is not empty has bytes. -/
theorem IPAddress.bytes?_of_ne [EmptyBytes] {ip : IPAddress} (h : ip ≠ .empty) :
    ip.bytes? = .ok ip.bytes := by
  cases ip with
  | empty => exact absurd rfl h
  | v4 b => rfl
  | v6 b scopeId => rfl

/-- An address needs no padding. -/
theorem IPAddress.dvd_length_bytes (ip : IPAddress) : 4 ∣ ip.bytes.length := by
  cases ip with
  | empty => exact Nat.dvd_zero 4
  | v4 b => rw [bytes, List.Vector.toList_length]
  | v6 b scopeId =>
    rw [bytes, List.Vector.toList_length]
    decide

namespace NetlinkRouteMessage

/-- The bytes of a next hop with some attributes. -/
def hopBytes (rtnhLen : ℕ) (ifIndex : UInt32) (attrs : List UInt8) : List UInt8 :=
  le16 rtnhLen ++ ([0, 0] ++ (le32 ifIndex.toNat ++ attrs))

/-- The size of a next hop. -/
@[simp] theorem length_hopBytes (rtnhLen : ℕ) (ifIndex : UInt32) (attrs : List UInt8) :
    (hopBytes rtnhLen ifIndex attrs).length = 8 + attrs.length := by
  simp only [hopBytes, List.length_append, length_le16, length_le32, List.length_cons,
    List.length_nil]
  omega

/-- The attribute for the label to swap in, if there is one. -/
def swapAttrs (label : Option UInt32) : List (ℕ × List UInt8) :=
  label.elim [] fun label => [(RTA_NEWDST, beBytes32 (encodeLabel label true))]

/-- The types and values of the attributes of a next hop. -/
def nextHopAttrs (path : NextHop) : List (ℕ × List UInt8) :=
  let gateway := path.gateway.elim [] IPAddress.bytes
  match path.labelAction with
  | some .PUSH =>
    [(RTA_ENCAP, Rtattr.encode MPLS_IPTUNNEL_DST (encodeLabels (path.pushLabels.getD []))),
      (RTA_ENCAP_TYPE, le16 LWTUNNEL_ENCAP_MPLS), (RTA_GATEWAY, gateway)]
  | some .SWAP | some .PHP =>
    swapAttrs path.swapLabel ++ [(RTA_VIA, le16 path.getFamily.toNat ++ gateway)]
  | some .POP_AND_LOOKUP => [(RTA_OIF, le32 (path.ifIndex.getD 0).toNat)]
  | none => [(RTA_GATEWAY, gateway)]

/-- The bytes of a next hop. Its length leaves out the padding of the last attribute. -/
def nextHopBytes (path : NextHop) : List UInt8 :=
  hopBytes (8 + Rtattr.listLength (nextHopAttrs path)) (path.ifIndex.getD 0)
    (Rtattr.encodeAll (nextHopAttrs path))

/-- The length in its header differs from its size by padding only. -/
theorem align4_rtnhLen (path : NextHop) :
    align4 (8 + Rtattr.listLength (nextHopAttrs path)) = (nextHopBytes path).length := by
  rw [nextHopBytes, length_hopBytes, ← Rtattr.align4_listLength]
  simp only [align4]
  omega

/-- The buffer of the next hops, with a length and with what follows the header. -/
def Assembled (b : Buffer) (n : ℕ) (body : List UInt8) : Prop :=
  ofBytes b = ofBytes (le16 n ++ (le16 RTA_MULTIPATH ++ body))

section Assembled

variable {b : Buffer} {n : ℕ} {body pre old post : List UInt8}

private theorem Assembled.append_zeros (h : Assembled b n body) (k : ℕ) :
    Assembled b n (body ++ List.replicate k 0) := by
  rw [Assembled, h, ← List.append_assoc, ← List.append_assoc, ← List.append_assoc,
    ofBytes_append_zeros]

private theorem Assembled.setLen (h : Assembled b n body) (n' : ℕ) :
    Assembled (b.write 0 (le16 n')) n' body := by
  have hlen : (le16 n').length = (le16 n).length := rfl
  rw [Assembled, Buffer.ofBytes_write, h]
  exact write_ofBytes [] _ hlen

private theorem Assembled.write (h : Assembled b n (pre ++ (old ++ post))) (new : List UInt8)
    (hlen : new.length = old.length) {o : ℕ} (ho : o = 4 + pre.length) :
    Assembled (b.write o new) n (pre ++ (new ++ post)) := by
  have hpre : 4 + pre.length = (le16 n ++ (le16 RTA_MULTIPATH ++ pre)).length := by
    simp only [List.length_append, length_le16]
    omega
  rw [Assembled, Buffer.ofBytes_write, h, ho, hpre]
  have hshape : ∀ x : List UInt8, le16 n ++ (le16 RTA_MULTIPATH ++ (pre ++ (x ++ post))) =
      (le16 n ++ (le16 RTA_MULTIPATH ++ pre)) ++ (x ++ post) := by
    intro x
    simp only [List.append_assoc]
  rw [hshape, hshape, write_ofBytes _ _ hlen]

private theorem Assembled.write_end (h : Assembled b n body) (new : List UInt8) :
    Assembled (b.write (4 + body.length) new) n (body ++ new) := by
  have hzeros : Assembled b n (body ++ (List.replicate new.length 0 ++ [])) := by
    rw [List.append_nil]
    exact h.append_zeros _
  simpa using hzeros.write new (by simp) rfl

/-- A part of the buffer is read. -/
theorem Assembled.holds (h : Assembled b n (pre ++ (old ++ post))) :
    Holds (ofBytes b) (4 + pre.length) old := by
  have hpre : 4 + pre.length = (le16 n ++ (le16 RTA_MULTIPATH ++ pre)).length := by
    simp only [List.length_append, length_le16]
    omega
  rw [h, hpre, ← List.append_assoc, ← List.append_assoc, ← List.append_assoc (le16 n)]
  exact holds_ofBytes _ _ _

/-- The length at the start of the buffer is read. -/
theorem Assembled.u16_zero (h : Assembled b n body) (hn : n < 2 ^ 16) : b.u16 0 = n := by
  have hholds : Holds (ofBytes b) 0 (le16 n) := by
    rw [h]
    exact holds_ofBytes [] (le16 n) _
  exact hholds.u16 hn

/-- The attribute goes to the end of the buffer, and the length follows. -/
theorem Assembled.addSubAttributes {type : ℕ} {data : List UInt8} {r : Buffer × ℕ}
    (h : Assembled b (4 + body.length) body) (hdvd : 4 ∣ body.length)
    (hsize : 4 + body.length < 2 ^ 16)
    (hok : NetlinkRouteMessage.addSubAttributes b type data = .ok r) :
    r.2 = 4 + body.length ∧
      Assembled r.1 (4 + (body ++ Rtattr.encode type data).length)
        (body ++ Rtattr.encode type data) ∧
      4 + (body ++ Rtattr.encode type data).length ≤ kMaxNlPayloadSize := by
  have hlen : b.u16 0 = 4 + body.length := h.u16_zero hsize
  have halign : align4 (4 + body.length) = 4 + body.length := align4_of_dvd (by omega)
  simp only [NetlinkRouteMessage.addSubAttributes, hlen, halign] at hok
  split at hok
  · nomatch hok
  next hfits =>
    obtain rfl := Except.ok.inj hok
    have hn : 4 + (body ++ Rtattr.encode type data).length =
        4 + body.length + align4 (4 + data.length) := by
      rw [List.length_append, Rtattr.length_encode, Nat.add_assoc]
    rw [hn]
    refine ⟨rfl, ?_, by omega⟩
    have hwrite := (h.write_end (le16 (4 + data.length) ++ le16 type ++ data)).append_zeros
      (align4 data.length - data.length)
    simp only [List.append_assoc] at hwrite ⊢
    exact hwrite.setLen _

end Assembled

section NextHops

variable {b b' : Buffer} {pre attrs : List UInt8} {ifIndex : UInt32} {rtnhLen : ℕ}

/-- The buffer ends with a next hop whose attributes are complete so far. -/
structure Hop (b : Buffer) (pre : List UInt8) (rtnhLen : ℕ) (ifIndex : UInt32)
    (attrs : List UInt8) : Prop where
  assembled : Assembled b (4 + (pre ++ hopBytes rtnhLen ifIndex attrs).length)
    (pre ++ hopBytes rtnhLen ifIndex attrs)
  dvd_pre : 4 ∣ pre.length
  dvd_attrs : 4 ∣ attrs.length
  fits : 4 + (pre ++ hopBytes rtnhLen ifIndex attrs).length < 2 ^ 16

/-- A next hop ends at a multiple of four. -/
theorem Hop.dvd_body (h : Hop b pre rtnhLen ifIndex attrs) :
    4 ∣ (pre ++ hopBytes rtnhLen ifIndex attrs).length := by
  have := h.dvd_pre
  have := h.dvd_attrs
  rw [List.length_append, length_hopBytes]
  omega

private theorem Hop.u16_zero (h : Hop b pre rtnhLen ifIndex attrs) :
    b.u16 0 = 4 + pre.length + 8 + attrs.length := by
  rw [h.assembled.u16_zero h.fits, List.length_append, length_hopBytes]
  omega

private theorem Hop.addSubAttributes {type : ℕ} {data : List UInt8} {r : Buffer × ℕ}
    (h : Hop b pre rtnhLen ifIndex attrs)
    (hok : NetlinkRouteMessage.addSubAttributes b type data = .ok r) :
    Hop r.1 pre rtnhLen ifIndex (attrs ++ Rtattr.encode type data) ∧
      4 + pre.length + 8 + (attrs ++ Rtattr.encode type data).length ≤ kMaxNlPayloadSize := by
  have hshape : pre ++ hopBytes rtnhLen ifIndex attrs ++ Rtattr.encode type data =
      pre ++ hopBytes rtnhLen ifIndex (attrs ++ Rtattr.encode type data) := by
    simp only [hopBytes, List.append_assoc]
  have hmax : kMaxNlPayloadSize = 4096 := rfl
  obtain ⟨-, hasm, hfits⟩ := h.assembled.addSubAttributes h.dvd_body h.fits hok
  rw [hshape] at hasm hfits
  refine ⟨⟨hasm, h.dvd_pre, ?_, by omega⟩, ?_⟩
  · rw [List.length_append, Rtattr.length_encode]
    exact Nat.dvd_add h.dvd_attrs (Nat.dvd_mul_left 4 _)
  · rw [List.length_append, length_hopBytes] at hfits
    omega

private theorem Hop.growRtnh (h : Hop b pre rtnhLen ifIndex attrs) (hlen : rtnhLen < 2 ^ 16)
    (d : ℕ) : Hop (growRtnh b (4 + pre.length) d) pre (rtnhLen + d) ifIndex attrs := by
  have hu16 : b.u16 (4 + pre.length) = rtnhLen := h.assembled.holds.u16 hlen
  have hsame : ∀ k, (pre ++ hopBytes k ifIndex attrs).length =
      (pre ++ hopBytes rtnhLen ifIndex attrs).length := by
    intro k
    simp only [List.length_append, length_hopBytes]
  rw [NetlinkRouteMessage.growRtnh, hu16]
  refine ⟨?_, h.dvd_pre, h.dvd_attrs, ?_⟩
  · rw [hsame]
    exact h.assembled.write (le16 (rtnhLen + d)) rfl rfl
  · rw [hsame]
    exact h.fits

/-- A next hop without attributes is filled in. -/
theorem Hop.setRtnh (h : Hop b pre 8 0 []) (index : Option UInt32) :
    Hop (setRtnh b (4 + pre.length) index) pre 8 (index.getD 0) [] := by
  obtain ⟨hasm, hdvd, hattrs, hfits⟩ := h
  have hsame : (pre ++ hopBytes 8 (index.getD 0) []).length = (pre ++ hopBytes 8 0 []).length := by
    simp only [List.length_append, length_hopBytes]
  refine ⟨?_, hdvd, hattrs, hsame ▸ hfits⟩
  rw [hsame]
  have hasm := hasm.write (le16 8) rfl rfl
  -- the interface index stands behind the first four bytes, the flags behind the first two
  have hindex : Assembled (index.elim (b.write (4 + pre.length) (le16 8)) fun i =>
      (b.write (4 + pre.length) (le16 8)).write (4 + pre.length + 4) (le32 i.toNat))
      (4 + (pre ++ hopBytes 8 0 []).length) (pre ++ hopBytes 8 (index.getD 0) []) := by
    cases index with
    | none => exact hasm
    | some i =>
      have hshape : ∀ x : List UInt8, pre ++ (le16 8 ++ ([0, 0] ++ (x ++ []))) =
          (pre ++ (le16 8 ++ [0, 0])) ++ (x ++ []) := by
        intro x
        simp only [List.append_assoc]
      simp only [hopBytes, hshape] at hasm ⊢
      exact hasm.write (le32 i.toNat) rfl (by simp; omega)
  have hshape : pre ++ hopBytes 8 (index.getD 0) [] =
      (pre ++ le16 8) ++ ([0, 0] ++ (le32 (index.getD 0).toNat ++ [])) := by
    simp only [hopBytes, List.append_assoc]
  rw [hshape] at hindex ⊢
  exact hindex.write [0, 0] rfl (by simp; omega)

private theorem Hop.setRtnh_of_eq {path : NextHop} {ifIndex : UInt32} (h : Hop b pre 8 0 [])
    (hindex : path.ifIndex = some ifIndex) :
    Hop (NetlinkRouteMessage.setRtnh b (4 + pre.length) (some ifIndex)) pre 8
      (path.ifIndex.getD 0) [] := by
  rw [hindex]
  exact h.setRtnh (some ifIndex)

/-- A complete next hop. -/
structure HopDone (b : Buffer) (pre : List UInt8) (path : NextHop) : Prop where
  hop : Hop b pre (8 + Rtattr.listLength (nextHopAttrs path)) (path.ifIndex.getD 0)
    (Rtattr.encodeAll (nextHopAttrs path))
  fits : 4 + pre.length + (nextHopBytes path).length ≤ kMaxNlPayloadSize

private theorem Hop.done {path : NextHop} (h : Hop b pre rtnhLen (path.ifIndex.getD 0) attrs)
    (hfits : 4 + pre.length + 8 + attrs.length ≤ kMaxNlPayloadSize)
    (hattrs : attrs = Rtattr.encodeAll (nextHopAttrs path))
    (hlen : rtnhLen = 8 + Rtattr.listLength (nextHopAttrs path)) : HopDone b pre path := by
  subst hattrs hlen
  refine ⟨h, ?_⟩
  rw [nextHopBytes, length_hopBytes]
  omega

private theorem Hop.addGateway [EmptyBytes] {via : IPAddress} (h : Hop b pre rtnhLen ifIndex attrs)
    (hlen : rtnhLen < 2 ^ 16)
    (hok : NetlinkRouteMessage.addGateway b (4 + pre.length) via = .ok b') :
    Hop b' pre (rtnhLen + (via.bytes.length + 4)) ifIndex
        (attrs ++ Rtattr.encode RTA_GATEWAY via.bytes) ∧
      4 + pre.length + 8 + (attrs ++ Rtattr.encode RTA_GATEWAY via.bytes).length ≤
        kMaxNlPayloadSize := by
  obtain ⟨bytes, hbytes, hok⟩ := Except.bind_eq_ok_iff.mp hok
  obtain rfl := IPAddress.bytes?_eq_ok hbytes
  obtain ⟨r, hr, hok⟩ := Except.bind_eq_ok_iff.mp hok
  obtain rfl := Except.ok.inj hok
  obtain ⟨hop, hfits⟩ := h.addSubAttributes hr
  exact ⟨hop.growRtnh hlen _, hfits⟩

private theorem Hop.addIpNexthop [EmptyBytes] {path : NextHop} {route : Route}
    (h : Hop b pre 8 0 []) (haction : path.labelAction = none) (hgateway : path.gateway ≠ none)
    (hok : NetlinkRouteMessage.addIpNexthop b (4 + pre.length) path route = .ok b') :
    HopDone b' pre path := by
  obtain ⟨via, hvia⟩ := Option.ne_none_iff_exists'.mp hgateway
  simp only [NetlinkRouteMessage.addIpNexthop, hvia] at hok
  obtain ⟨hop, hfits⟩ := (h.setRtnh path.ifIndex).addGateway (by decide) hok
  refine hop.done hfits ?_ ?_ <;> simp [nextHopAttrs, haction, hvia, Rtattr.listLength]
  omega

private theorem Hop.addPopNexthop {path : NextHop} (h : Hop b pre 8 0 [])
    (haction : path.labelAction = some .POP_AND_LOOKUP)
    (hok : NetlinkRouteMessage.addPopNexthop b (4 + pre.length) path = .ok b') :
    HopDone b' pre path := by
  rw [NetlinkRouteMessage.addPopNexthop] at hok
  split at hok
  · nomatch hok
  next ifIndex hindex =>
    obtain ⟨r, hr, hok⟩ := Except.bind_eq_ok_iff.mp hok
    obtain rfl := Except.ok.inj hok
    obtain ⟨hop, hfits⟩ := (h.setRtnh_of_eq hindex).addSubAttributes hr
    have hgrown := hop.growRtnh (by decide) (4 + 4)
    refine hgrown.done hfits ?_ ?_ <;> simp [nextHopAttrs, haction, hindex, Rtattr.listLength]

private theorem Hop.addSwapLabel {label : Option UInt32} (h : Hop b pre 8 ifIndex [])
    (hok : NetlinkRouteMessage.addSwapLabel b label = .ok b') :
    Hop b' pre 8 ifIndex (Rtattr.encodeAll (swapAttrs label)) := by
  cases label with
  | none =>
    obtain rfl := Except.ok.inj hok
    exact h
  | some label =>
    rw [NetlinkRouteMessage.addSwapLabel] at hok
    cases hnew : NetlinkRouteMessage.addSubAttributes b RTA_NEWDST
        (beBytes32 (encodeLabel label true)) with
    | error e =>
      rw [hnew] at hok
      nomatch hok
    | ok r =>
      rw [hnew] at hok
      obtain rfl := Except.ok.inj hok
      simpa [swapAttrs] using (h.addSubAttributes hnew).1

private theorem Hop.addSwapOrPHPNexthop [EmptyBytes] {path : NextHop} (h : Hop b pre 8 0 [])
    (haction : path.labelAction = some .SWAP ∨ path.labelAction = some .PHP)
    (hok : NetlinkRouteMessage.addSwapOrPHPNexthop b (4 + pre.length) path = .ok b') :
    HopDone b' pre path := by
  obtain ⟨ifIndex, hindex, hok⟩ := Except.bind_eq_ok_iff.mp hok
  replace hindex := optionalValue_eq_ok hindex
  have hop := h.setRtnh_of_eq hindex
  obtain ⟨b₂, hswap, hok⟩ := Except.bind_eq_ok_iff.mp hok
  obtain ⟨gw, hgw, hok⟩ := Except.bind_eq_ok_iff.mp hok
  obtain ⟨ip, hip, hok⟩ := Except.bind_eq_ok_iff.mp hok
  obtain ⟨r, hr, hok⟩ := Except.bind_eq_ok_iff.mp hok
  obtain rfl := Except.ok.inj hok
  replace hgw := optionalValue_eq_ok hgw
  obtain rfl := IPAddress.bytes?_eq_ok hip
  have hnewdst := hop.addSwapLabel hswap
  have hsmall : (Rtattr.encodeAll (swapAttrs path.swapLabel)).length ≤ 8 := by
    cases path.swapLabel <;> simp [swapAttrs, align4]
  have hdiff : b₂.u16 0 - (NetlinkRouteMessage.setRtnh b (4 + pre.length) (some ifIndex)).u16 0 =
      (Rtattr.encodeAll (swapAttrs path.swapLabel)).length := by
    rw [hnewdst.u16_zero, hop.u16_zero, List.length_nil]
    omega
  rw [hdiff] at hr
  obtain ⟨hvia, hfits⟩ := (hnewdst.growRtnh (by decide) _).addSubAttributes hr
  have hgrown := hvia.growRtnh (by omega) ((le16 path.getFamily.toNat ++ gw.bytes).length + 4)
  have hattrs : nextHopAttrs path = swapAttrs path.swapLabel ++
      [(RTA_VIA, le16 path.getFamily.toNat ++ gw.bytes)] := by
    rcases haction with haction | haction <;>
      simp only [nextHopAttrs, haction, hgw, Option.elim_some]
  refine hgrown.done hfits ?_ ?_ <;> rw [hattrs]
  · rw [Rtattr.encodeAll_append_singleton]
  · cases path.swapLabel <;> simp [swapAttrs, Rtattr.listLength] <;> omega

/-- The length of an attribute is corrected when its value is complete. -/
theorem Hop.enclose {type : ℕ} {inner : List UInt8}
    (h : Hop b pre rtnhLen ifIndex (Rtattr.encode type [] ++ inner)) (hdvd : 4 ∣ inner.length) :
    Hop (b.write (4 + pre.length + 8) (le16 (4 + inner.length))) pre rtnhLen ifIndex
      (Rtattr.encode type inner) := by
  obtain ⟨hasm, hpre, hattrs, hfits⟩ := h
  have hinner : Rtattr.encode type inner = le16 (4 + inner.length) ++ (le16 type ++ inner) := by
    rw [Rtattr.encode, align4_of_dvd hdvd, Nat.sub_self, List.replicate_zero, List.append_nil]
  have hsame : (Rtattr.encode type inner).length = (Rtattr.encode type [] ++ inner).length := by
    rw [List.length_append, Rtattr.length_encode, Rtattr.length_encode, align4_of_dvd (by omega)]
    rfl
  have hlen : (pre ++ hopBytes rtnhLen ifIndex (Rtattr.encode type inner)).length =
      (pre ++ hopBytes rtnhLen ifIndex (Rtattr.encode type [] ++ inner)).length := by
    simp only [List.length_append, length_hopBytes, hsame]
  refine ⟨?_, hpre, hsame ▸ hattrs, hlen ▸ hfits⟩
  rw [hlen]
  have hshape : ∀ k, pre ++ hopBytes rtnhLen ifIndex (le16 k ++ (le16 type ++ inner)) =
      (pre ++ hopBytes rtnhLen ifIndex []) ++ (le16 k ++ (le16 type ++ inner)) := by
    intro k
    simp only [hopBytes, List.append_assoc, List.append_nil]
  have hempty : Rtattr.encode type [] ++ inner = le16 4 ++ (le16 type ++ inner) := by
    simp [Rtattr.encode, align4]
  rw [hempty, hshape] at hasm ⊢
  rw [hinner, hshape]
  refine hasm.write (le16 (4 + inner.length)) rfl ?_
  rw [List.length_append, length_hopBytes, List.length_nil]
  omega

private theorem Hop.addLabelNexthop [EmptyBytes] {path : NextHop} (h : Hop b pre 8 0 [])
    (haction : path.labelAction = some .PUSH)
    (hok : NetlinkRouteMessage.addLabelNexthop b (4 + pre.length) path = .ok b') :
    HopDone b' pre path := by
  obtain ⟨ifIndex, hindex, hok⟩ := Except.bind_eq_ok_iff.mp hok
  replace hindex := optionalValue_eq_ok hindex
  have hop := h.setRtnh_of_eq hindex
  obtain ⟨r₁, hr₁, hok⟩ := Except.bind_eq_ok_iff.mp hok
  obtain ⟨hencap, -⟩ := hop.addSubAttributes hr₁
  rw [List.nil_append] at hencap
  obtain ⟨hoffset, -, -⟩ := hop.assembled.addSubAttributes hop.dvd_body hop.fits hr₁
  rw [List.length_append, length_hopBytes, List.length_nil, Nat.add_zero,
    ← Nat.add_assoc] at hoffset
  cases hlabels : path.pushLabels with
  | none =>
    simp only [hlabels] at hok
    nomatch hok
  | some labels =>
    simp only [hlabels] at hok
    split at hok
    · nomatch hok
    obtain ⟨r₂, hr₂, hok⟩ := Except.bind_eq_ok_iff.mp hok
    obtain ⟨hdst, -⟩ := hencap.addSubAttributes hr₂
    have hdvd : 4 ∣ (Rtattr.encode MPLS_IPTUNNEL_DST (encodeLabels labels)).length := by
      rw [Rtattr.length_encode]
      exact Nat.dvd_mul_left 4 _
    have hprev := hop.u16_zero
    -- what has been added since `prevLen` is the attribute with its header
    have hadded : align4 (r₂.1.u16 0) -
        (NetlinkRouteMessage.setRtnh b (4 + pre.length) (some ifIndex)).u16 0 =
          4 + (Rtattr.encode MPLS_IPTUNNEL_DST (encodeLabels labels)).length := by
      have hfour : (Rtattr.encode RTA_ENCAP []).length = 4 := rfl
      have := h.dvd_pre
      rw [hdst.u16_zero, hprev, align4_of_dvd (by simp only [List.length_append, hfour]; omega)]
      simp only [List.length_append, hfour, List.length_nil]
      omega
    obtain ⟨r₃, hr₃, hok⟩ := Except.bind_eq_ok_iff.mp hok
    rw [hadded, hoffset] at hr₃
    obtain ⟨htype, hfits⟩ := (hdst.enclose hdvd).addSubAttributes hr₃
    cases hgw : path.gateway with
    | none =>
      simp only [hgw] at hok
      nomatch hok
    | some via =>
      simp only [hgw, htype.u16_zero, hprev, List.length_nil, Nat.add_zero,
        Nat.add_sub_cancel_left] at hok
      have hmax : kMaxNlPayloadSize = 4096 := rfl
      obtain ⟨hend, hfits⟩ := (htype.growRtnh (by decide) _).addGateway (by omega) hok
      have hattrs : nextHopAttrs path =
          [(RTA_ENCAP, Rtattr.encode MPLS_IPTUNNEL_DST (encodeLabels labels)),
            (RTA_ENCAP_TYPE, le16 LWTUNNEL_ENCAP_MPLS), (RTA_GATEWAY, via.bytes)] := by
        simp only [nextHopAttrs, haction, hlabels, hgw, Option.getD_some, Option.elim_some]
      refine hend.done hfits ?_ ?_ <;> rw [hattrs]
      · simp only [Rtattr.encodeAll_cons, Rtattr.encodeAll_nil, List.append_assoc, List.append_nil]
      · simp only [Rtattr.listLength, List.length_append, Rtattr.length_encode]
        omega

/-- `addNexthop` completes any next hop that has an action or a gateway. -/
theorem Hop.addNexthop [EmptyBytes] {path : NextHop} {route : Route} (h : Hop b pre 8 0 [])
    (hgateway : path.labelAction = none → path.gateway ≠ none)
    (hok : NetlinkRouteMessage.addNexthop b (4 + pre.length) path route = .ok b') :
    HopDone b' pre path := by
  rw [NetlinkRouteMessage.addNexthop] at hok
  split at hok
  next haction => exact h.addLabelNexthop haction hok
  next haction => exact h.addSwapOrPHPNexthop (.inl haction) hok
  next haction => exact h.addSwapOrPHPNexthop (.inr haction) hok
  next haction => exact h.addPopNexthop haction hok
  next haction => exact h.addIpNexthop haction (hgateway haction) hok

/-- A new next hop at the end of the buffer has no attributes. -/
theorem Assembled.openHop (h : Assembled b (4 + pre.length) pre) (hdvd : 4 ∣ pre.length)
    (hfits : 4 + pre.length ≤ kMaxNlPayloadSize) :
    Hop ((b.write (4 + pre.length) (le16 8)).write 0
      (le16 ((b.write (4 + pre.length) (le16 8)).u16 0 +
        (b.write (4 + pre.length) (le16 8)).u16 (4 + pre.length)))) pre 8 0 [] := by
  have hmax : kMaxNlPayloadSize = 4096 := rfl
  have hlen : (pre ++ hopBytes 8 0 []).length = pre.length + 8 := by
    rw [List.length_append, length_hopBytes, List.length_nil]
  have hstart := h.write_end (le16 8)
  have hrtnh : (b.write (4 + pre.length) (le16 8)).u16 (4 + pre.length) = 8 := by
    rw [← List.append_nil (le16 8)] at hstart
    exact hstart.holds.u16 (by decide)
  rw [hstart.u16_zero (by omega), hrtnh]
  refine ⟨?_, hdvd, Nat.dvd_zero 4, by omega⟩
  have hzeros := (hstart.setLen (4 + pre.length + 8)).append_zeros 6
  rw [hlen, ← Nat.add_assoc]
  rwa [List.append_assoc] at hzeros

/-- The next hops, each where the one before it ends, are what the buffer holds in the end. -/
theorem Assembled.addPaths [EmptyBytes] {route : Route} {paths : List NextHop}
    (hgateway : ∀ path ∈ paths, path.labelAction = none → path.gateway ≠ none)
    (h : Assembled b (4 + pre.length) pre) (hdvd : 4 ∣ pre.length)
    (hfits : 4 + pre.length ≤ kMaxNlPayloadSize)
    (hok : NetlinkRouteMessage.addPaths route paths b (4 + pre.length) = .ok b') :
    Assembled b' (4 + (pre ++ paths.flatMap nextHopBytes).length)
        (pre ++ paths.flatMap nextHopBytes) ∧
      4 + (pre ++ paths.flatMap nextHopBytes).length ≤ kMaxNlPayloadSize := by
  have hmax : kMaxNlPayloadSize = 4096 := rfl
  induction paths generalizing b pre with
  | nil =>
    obtain rfl := Except.ok.inj hok
    simpa using ⟨h, hfits⟩
  | cons path paths ih =>
    obtain ⟨hpath, hpaths⟩ := List.forall_mem_cons.mp hgateway
    obtain ⟨b₁, hb₁, hok⟩ := Except.bind_eq_ok_iff.mp hok
    obtain ⟨hhop, hdone⟩ := (h.openHop hdvd hfits).addNexthop hpath hb₁
    have hlen : b₁.u16 (4 + pre.length) = 8 + Rtattr.listLength (nextHopAttrs path) :=
      hhop.assembled.holds.u16 (by
        have := le_align4 (Rtattr.listLength (nextHopAttrs path))
        rw [Rtattr.align4_listLength] at this
        rw [nextHopBytes, length_hopBytes] at hdone
        omega)
    have hnext : 4 + pre.length + align4 (b₁.u16 (4 + pre.length)) =
        4 + (pre ++ nextHopBytes path).length := by
      rw [hlen, align4_rtnhLen, List.length_append, Nat.add_assoc]
    rw [hnext] at hok
    obtain ⟨hend, hend'⟩ := ih hpaths hhop.assembled hhop.dvd_body
      (by rw [List.length_append]; exact (Nat.add_assoc _ _ _).symm.le.trans hdone) hok
    rw [List.append_assoc] at hend hend'
    exact ⟨hend, hend'⟩

private theorem slice_addMultiPathNexthop [EmptyBytes] {route : Route} {paths : List NextHop}
    (hgateway : ∀ path ∈ paths, path.labelAction = none → path.gateway ≠ none)
    (hok : addMultiPathNexthop route paths = .ok b) :
    slice (ofBytes b) 4 (b.u16 0 - 4) = paths.flatMap nextHopBytes := by
  have hmax : kMaxNlPayloadSize = 4096 := rfl
  have hstart : Assembled (le16 4 ++ le16 RTA_MULTIPATH) (4 + ([] : List UInt8).length) [] := by
    rw [Assembled, List.append_nil]
    rfl
  obtain ⟨hend, hfits⟩ := hstart.addPaths hgateway (Nat.dvd_zero 4) (by decide) hok
  rw [List.nil_append] at hend hfits
  have hbody : Assembled b (4 + (paths.flatMap nextHopBytes).length)
      ([] ++ (paths.flatMap nextHopBytes ++ [])) := by
    rwa [List.append_nil, List.nil_append]
  rw [hend.u16_zero (by omega), Nat.add_sub_cancel_left]
  exact hbody.holds.slice

end NextHops

section Messages

variable {b b' : Buffer} {header : List UInt8} {attrs : List (ℕ × List UInt8)}

/-- A message in its buffer, with the header after the length and with its attributes. -/
structure Message (b : Buffer) (header : List UInt8) (attrs : List (ℕ × List UInt8)) : Prop where
  bytes : ofBytes b = ofBytes (le32 (28 + (Rtattr.encodeAll attrs).length) ++
    (header ++ Rtattr.encodeAll attrs))
  header : header.length = 24
  fits : 28 + (Rtattr.encodeAll attrs).length ≤ kMaxNlPayloadSize
  sizes : ∀ a ∈ attrs, 4 + a.2.length ≤ kMaxNlPayloadSize

/-- The bytes of a message: its length, the header and the attributes. -/
theorem Message.holds (h : Message b header attrs) :
    Holds (ofBytes b) 0 (le32 (28 + (Rtattr.encodeAll attrs).length) ++
      (header ++ Rtattr.encodeAll attrs)) := by
  rw [h.bytes]
  exact holds_ofBytes_self _

/-- Where the parts of a message are. -/
theorem Message.holds_parts (h : Message b header attrs) {m : Memory}
    (hm : Holds m 0 (le32 (28 + (Rtattr.encodeAll attrs).length) ++
      (header ++ Rtattr.encodeAll attrs))) :
    Holds m 4 header ∧ Holds m 28 (Rtattr.encodeAll attrs) := by
  obtain ⟨hheader, hattrs⟩ := holds_append.mp (holds_append.mp hm).2
  rw [h.header] at hattrs
  exact ⟨hheader, hattrs⟩

/-- The first field of a message is its length. -/
theorem Message.u32_zero (h : Message b header attrs) :
    b.u32 0 = 28 + (Rtattr.encodeAll attrs).length := by
  have hmax : kMaxNlPayloadSize = 4096 := rfl
  have := h.fits
  exact (holds_append.mp h.holds).1.u32 (by omega)

/-- The attribute goes to the end of the message. -/
theorem Message.addAttributes {type : ℕ} {data : List UInt8} (h : Message b header attrs)
    (hok : NetlinkRouteMessage.addAttributes type data b = .ok b') :
    Message b' header (attrs ++ [(type, data)]) := by
  have hdvd := Rtattr.dvd_length_encodeAll attrs
  have hle := le_align4 (4 + data.length)
  have hall : Rtattr.encodeAll (attrs ++ [(type, data)]) =
      Rtattr.encodeAll attrs ++ Rtattr.encode type data :=
    Rtattr.encodeAll_append_singleton attrs type data
  have halign : align4 (28 + (Rtattr.encodeAll attrs).length) =
      28 + (Rtattr.encodeAll attrs).length := align4_of_dvd (by omega)
  simp only [NetlinkRouteMessage.addAttributes, h.u32_zero, halign] at hok
  split at hok
  · nomatch hok
  next hfits =>
    obtain rfl := Except.ok.inj hok
    have hlen : 28 + (Rtattr.encodeAll (attrs ++ [(type, data)])).length =
        28 + (Rtattr.encodeAll attrs).length + align4 (4 + data.length) := by
      rw [hall, List.length_append, Rtattr.length_encode, Nat.add_assoc]
    refine ⟨?_, h.header, by omega, ?_⟩
    · have hend : 28 + (Rtattr.encodeAll attrs).length =
          (le32 (28 + (Rtattr.encodeAll attrs).length) ++
            (header ++ Rtattr.encodeAll attrs)).length := by
        simp only [List.length_append, length_le32, h.header]
        omega
      rw [hlen, hall, Buffer.ofBytes_write, Buffer.ofBytes_write, h.bytes]
      rw [write_ofBytes_end _ _ hend,
        ← ofBytes_append_zeros _ (align4 data.length - data.length)]
      simp only [List.append_assoc, Rtattr.encode]
      have hfour : (le32 (28 + (Rtattr.encodeAll attrs).length + align4 (4 + data.length))).length =
          (le32 (28 + (Rtattr.encodeAll attrs).length)).length := rfl
      exact write_ofBytes [] _ hfour
    · rw [List.forall_mem_append]
      refine ⟨h.sizes, ?_⟩
      simp only [List.mem_singleton, forall_eq]
      omega

/-- An attribute that fits is added. -/
theorem Message.exists_addAttributes (h : Message b header attrs) (type : ℕ) (data : List UInt8)
    (hfits : 28 + (Rtattr.encodeAll attrs).length + align4 (4 + data.length) ≤
      kMaxNlPayloadSize) :
    ∃ b', NetlinkRouteMessage.addAttributes type data b = .ok b' := by
  have hdvd := Rtattr.dvd_length_encodeAll attrs
  have halign : align4 (28 + (Rtattr.encodeAll attrs).length) =
      28 + (Rtattr.encodeAll attrs).length := align4_of_dvd (by omega)
  simp only [NetlinkRouteMessage.addAttributes, h.u32_zero, halign]
  rw [if_neg (by omega)]
  exact ⟨_, rfl⟩

/-- The header of a route message after its length. -/
def routeHeader (nlFlags : ℕ) (family dstLen : UInt8) (route : Route) (rtFlags : UInt32) :
    List UInt8 :=
  le16 RTM_NEWROUTE ++ (le16 nlFlags ++ (List.replicate 8 0 ++ ([family, dstLen] ++
    ([0, 0, RT_TABLE_MAIN, route.protocolId, RT_SCOPE_UNIVERSE, route.type] ++
      le32 rtFlags.toNat))))

/-- `init` and the two fields that are set after it. -/
theorem ofBytes_init (route : Route) (family dstLen : UInt8) :
    ∃ nlFlags, ofBytes (setFamily (init [] RTM_NEWROUTE 0 route) family dstLen) =
      ofBytes (le32 28 ++
        routeHeader nlFlags family dstLen route (0 ||| route.flags.getD 0)) := by
  rw [init, if_neg (by decide)]
  dsimp only
  generalize (if route.type ≠ RTN_MULTICAST then _ else _ : ℕ) = nlFlags
  refine ⟨nlFlags, ?_⟩
  rw [setFamily, Buffer.ofBytes_write, Buffer.ofBytes_write, Buffer.ofBytes_write,
    write_ofBytes_end (o := 0) [] _ rfl, ← ofBytes_append_zeros _ 10,
    write_ofBytes_end (o := 18) _ _ rfl]
  have hlen : ([family, dstLen] : List UInt8).length = ([0, 0] : List UInt8).length := rfl
  exact write_ofBytes (le32 28 ++ le16 RTM_NEWROUTE ++ le16 nlFlags ++ List.replicate 8 0) _ hlen

private theorem Message.addNextHops [EmptyBytes] {route : Route} {paths : List NextHop}
    (h : Message b header attrs) (hne : paths ≠ [])
    (hgateway : ∀ path ∈ paths, path.labelAction = none → path.gateway ≠ none)
    (hok : NetlinkRouteMessage.addNextHops route paths b = .ok b') :
    Message b' header (attrs ++ [(RTA_MULTIPATH, paths.flatMap nextHopBytes)]) := by
  rw [NetlinkRouteMessage.addNextHops, if_neg (by simpa using hne)] at hok
  obtain ⟨nhop, hnhop, hok⟩ := Except.bind_eq_ok_iff.mp hok
  rw [slice_addMultiPathNexthop hgateway hnhop] at hok
  exact h.addAttributes hok

/-- The attribute for the priority of a route, if it has one. -/
def priorityAttrs (priority : Option UInt32) : List (ℕ × List UInt8) :=
  priority.elim [] fun adminDistance => [(RTA_PRIORITY, le32 adminDistance.toNat)]

/-- The only attribute of a priority is `RTA_PRIORITY`. -/
theorem type_of_mem_priorityAttrs {priority : Option UInt32} {a : ℕ × List UInt8}
    (h : a ∈ priorityAttrs priority) : a.1 = RTA_PRIORITY := by
  cases priority with
  | none => cases h
  | some p => rw [List.mem_singleton.mp h]

/-- A priority takes eight bytes. -/
theorem length_encodeAll_priorityAttrs (priority : Option UInt32) :
    (Rtattr.encodeAll (priorityAttrs priority)).length = if priority.isSome then 8 else 0 := by
  cases priority with
  | none => rfl
  | some p => simp [priorityAttrs, align4]

/-- `addPriority` appends the priority, if there is one. -/
theorem Message.addPriority {priority : Option UInt32} (h : Message b header attrs)
    (hok : NetlinkRouteMessage.addPriority b priority = .ok b') :
    Message b' header (attrs ++ priorityAttrs priority) := by
  cases priority with
  | none =>
    obtain rfl := Except.ok.inj hok
    rwa [priorityAttrs, Option.elim_none, List.append_nil]
  | some adminDistance => exact h.addAttributes hok

/-- After `init` and `setFamily` a message has the header of its route and no attributes. -/
theorem message_init (route : Route) (family dstLen : UInt8) :
    ∃ nlFlags, Message (setFamily (init [] RTM_NEWROUTE 0 route) family dstLen)
      (routeHeader nlFlags family dstLen route (0 ||| route.flags.getD 0)) [] := by
  obtain ⟨nlFlags, hinit⟩ := ofBytes_init route family dstLen
  refine ⟨nlFlags, ?_, rfl, by decide, List.forall_mem_nil _⟩
  rw [hinit, Rtattr.encodeAll_nil, List.append_nil]
  rfl

/-- The message of `addRoute` before the next hops are added. -/
theorem addRoute_eq_ok [EmptyBytes] {route : Route} {paths : List NextHop}
    (hok : addRoute route paths = .ok b) :
    ∃ nlFlags b₀, Message b₀
      (routeHeader nlFlags route.family route.dst.2 route (0 ||| route.flags.getD 0))
      ((RTA_DST, route.dst.1.bytes) :: priorityAttrs route.priority) ∧
      addNextHops route paths b₀ = .ok b := by
  rw [addRoute] at hok
  split at hok
  · nomatch hok
  obtain ⟨ip, hip, hok⟩ := Except.bind_eq_ok_iff.mp hok
  obtain rfl := IPAddress.bytes?_eq_ok hip
  obtain ⟨b₁, hb₁, hok⟩ := Except.bind_eq_ok_iff.mp hok
  obtain ⟨b₂, hb₂, hok⟩ := Except.bind_eq_ok_iff.mp hok
  obtain ⟨nlFlags, hstart⟩ := message_init route route.family route.dst.2
  exact ⟨nlFlags, b₂, (hstart.addAttributes hb₁).addPriority hb₂, hok⟩

/-- The message that `addRoute` builds. -/
theorem addRoute_message [EmptyBytes] {route : Route} {paths : List NextHop} (hne : paths ≠ [])
    (hgateway : ∀ path ∈ paths, path.labelAction = none → path.gateway ≠ none)
    (hok : addRoute route paths = .ok b) :
    ∃ nlFlags, Message b
      (routeHeader nlFlags route.family route.dst.2 route (0 ||| route.flags.getD 0))
      ((RTA_DST, route.dst.1.bytes) :: priorityAttrs route.priority ++
        [(RTA_MULTIPATH, paths.flatMap nextHopBytes)]) := by
  obtain ⟨nlFlags, b₀, hmsg, hok⟩ := addRoute_eq_ok hok
  exact ⟨nlFlags, hmsg.addNextHops hne hgateway hok⟩

/-- The message of `addLabelRoute` before the next hops are added. -/
theorem addLabelRoute_eq_ok [EmptyBytes] {route : Route} {paths : List NextHop}
    (hok : addLabelRoute route paths = .ok b) :
    route.family = AF_MPLS ∧ ∃ nlFlags label b₀, route.mplsLabel = some label ∧
      Message b₀ (routeHeader nlFlags AF_MPLS (.ofNat kLabelSizeBits) route 0)
        [(RTA_DST, beBytes32 (encodeLabel label true))] ∧
      addNextHops route paths b₀ = .ok b := by
  simp only [addLabelRoute] at hok
  split at hok
  · nomatch hok
  next hfamily =>
    split at hok
    · nomatch hok
    next label hlabel =>
      obtain ⟨b₁, hb₁, hok⟩ := Except.bind_eq_ok_iff.mp hok
      obtain ⟨nlFlags, hinit⟩ := ofBytes_init route AF_MPLS (.ofNat kLabelSizeBits)
      have hstart : Message (initLabelRoute RTM_NEWROUTE route)
          (routeHeader nlFlags AF_MPLS (.ofNat kLabelSizeBits) route 0) [] := by
        refine ⟨?_, rfl, by decide, nofun⟩
        rw [initLabelRoute, Buffer.ofBytes_write, hinit]
        have hlen : (le32 0).length = (le32 (0 ||| route.flags.getD 0).toNat).length := rfl
        exact write_ofBytes (le32 28 ++ le16 RTM_NEWROUTE ++ le16 nlFlags ++ List.replicate 8 0 ++
          [AF_MPLS, .ofNat kLabelSizeBits, 0, 0, RT_TABLE_MAIN, route.protocolId,
            RT_SCOPE_UNIVERSE, route.type]) [] hlen
      exact ⟨not_not.mp hfamily, nlFlags, label, b₁, hlabel, hstart.addAttributes hb₁, hok⟩

/-- The message that `addLabelRoute` builds. -/
theorem addLabelRoute_message [EmptyBytes] {route : Route} {paths : List NextHop} (hne : paths ≠ [])
    (hgateway : ∀ path ∈ paths, path.labelAction = none → path.gateway ≠ none)
    (hok : addLabelRoute route paths = .ok b) :
    route.family = AF_MPLS ∧ ∃ nlFlags label, route.mplsLabel = some label ∧
      Message b (routeHeader nlFlags AF_MPLS (.ofNat kLabelSizeBits) route 0)
        [(RTA_DST, beBytes32 (encodeLabel label true)),
          (RTA_MULTIPATH, paths.flatMap nextHopBytes)] := by
  obtain ⟨hfamily, nlFlags, label, b₀, hlabel, hmsg, hok⟩ := addLabelRoute_eq_ok hok
  exact ⟨hfamily, nlFlags, label, hlabel, hmsg.addNextHops hne hgateway hok⟩

end Messages

end NetlinkRouteMessage

end Fbmeshd
