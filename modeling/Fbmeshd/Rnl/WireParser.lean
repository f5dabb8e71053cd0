import Fbmeshd.Rnl.RouteParser
import Fbmeshd.Rnl.RouteWire

/-!
# Parsing what the encoder writes

The parser of route messages on memory that holds the encoder's format: what each kind of value is
read as, and what the loops over next hops and over the attributes of a message return.
-/

namespace Fbmeshd

open Bytes Reader

section Values

variable {m : Memory} {o n : ℕ} {family : UInt8}

private theorem eval_bytesVectorAt {v : List.Vector UInt8 n} (h : Holds m o v.toList) :
    (bytesVectorAt o n).eval m = .ok v := by
  have hslice : slice m o n = v.toList := by
    have := h.slice
    rwa [List.Vector.toList_length] at this
  exact congrArg Except.ok (List.Vector.eq _ _ hslice)

/-- An address is read back without its scope. -/
theorem eval_ipAddressAt {ip : IPAddress} (h : Holds m o ip.bytes) (hne : ip ≠ .empty)
    (hfamily : ip.family = family) : (ipAddressAt o family).eval m = .ok (some ip.unscoped) := by
  subst hfamily
  cases ip with
  | empty => exact absurd rfl hne
  | v4 b =>
    rw [ipAddressAt, IPAddress.family, if_pos rfl, eval_bind_of_ok (eval_bytesVectorAt h)]
    rfl
  | v6 b scopeId =>
    rw [ipAddressAt, IPAddress.family, if_neg (by decide), if_pos rfl,
      eval_bind_of_ok (eval_bytesVectorAt h)]
    rfl

/-- A 32-bit number is read back. -/
theorem eval_u32At {i : UInt32} (h : Holds m o (le32 i.toNat)) :
    (u32At o).eval m = .ok i.toNat := by
  rw [Reader.eval_u32At, h.u32 i.toNat_lt]

namespace NetlinkRouteMessage

private theorem encodeLabel_div {label : UInt32} (bos : Bool) (hlabel : label.toNat < 2 ^ 20) :
    encodeLabel label bos / 2 ^ kLabelShift = label.toNat := by
  have hsmall : ¬ label.toNat > 0xFFFFF := by omega
  simp only [encodeLabel, if_neg hsmall]
  rw [← Nat.shiftRight_eq_div_pow, Nat.shiftRight_or_distrib, Nat.shiftLeft_shiftRight]
  cases bos <;> simp [kLabelShift, kLabelBosShift]

private theorem encodeLabel_lt {label : UInt32} (bos : Bool) (hlabel : label.toNat < 2 ^ 20) :
    encodeLabel label bos < 2 ^ 32 := by
  have hdiv := encodeLabel_div bos hlabel
  simp only [kLabelShift] at hdiv
  omega

/-- A label is read back. -/
theorem eval_labelAt {label : UInt32} {bos : Bool}
    (h : Holds m o (beBytes32 (encodeLabel label bos))) (hlabel : label.toNat < 2 ^ 20) :
    (labelAt o).eval m = .ok label := by
  rw [labelAt, eval_bind_of_ok (eval_be32At o), h.be32 (encodeLabel_lt bos hlabel),
    encodeLabel_div bos hlabel, UInt32.ofNat_toNat]
  rfl

@[simp] private theorem length_encodeLabels (labels : List UInt32) :
    (encodeLabels labels).length = 4 * labels.length := by
  induction labels with
  | nil => rfl
  | cons label labels ih =>
    rw [encodeLabels, List.length_append, ih, length_beBytes32, List.length_cons]
    omega

private theorem eval_readLabels {labels : List UInt32} (h : Holds m o (encodeLabels labels))
    (hlabels : ∀ label ∈ labels, label.toNat < 2 ^ 20) :
    (readLabels o labels.length).eval m = .ok labels := by
  induction labels generalizing o with
  | nil => rfl
  | cons label labels ih =>
    obtain ⟨hlabel, hrest⟩ := List.forall_mem_cons.mp hlabels
    obtain ⟨hfirst, h⟩ := holds_append.mp h
    rw [length_beBytes32] at h
    rw [List.length_cons, readLabels, eval_bind_of_ok (eval_labelAt hfirst hlabel),
      eval_bind_of_ok (ih h hrest)]
    rfl

/-- The label stack inside an `RTA_ENCAP`. -/
theorem eval_parseMplsLabels {a : Rtattr} {labels : List UInt32} {fuel : ℕ}
    (h : Holds m a.data (Rtattr.encode MPLS_IPTUNNEL_DST (encodeLabels labels)))
    (hmax : labels.length ≤ kMaxLabels) (hlabels : ∀ label ∈ labels, label.toNat < 2 ^ 20) :
    (parseMplsLabels (fuel + 1) a).eval m = .ok (some labels) := by
  have hsixteen : kMaxLabels = 16 := rfl
  have hlen := length_encodeLabels labels
  obtain ⟨hload, hvalue⟩ := Rtattr.load_of_holds h (by decide) (by omega)
  have hrtaLen : u16 m a.data = 4 + (encodeLabels labels).length := congrArg Rtattr.len hload
  have htype : u16 m (a.data + 2) = MPLS_IPTUNNEL_DST := congrArg Rtattr.type hload
  have hcount : numLabels (4 + (encodeLabels labels).length) = labels.length := by
    rw [numLabels, if_neg (by omega), hlen]
    omega
  rw [parseMplsLabels, mplsLabelsLoop, eval_bind_of_ok (eval_u16At _),
    eval_bind_of_ok (eval_u16At _), htype, if_pos rfl, hrtaLen, hcount, if_neg (by omega),
    Int.toNat_natCast, eval_bind, eval_within, eval_readLabels hvalue hlabels]
  rfl

end NetlinkRouteMessage

end Values

/-- The gateway of a next hop in an address family of the source, as it can be sent. -/
def NextHop.HasGateway (path : NextHop) (gw : IPAddress) : Prop :=
  path.gateway = some gw ∧ gw ≠ .empty ∧ gw.unscoped = gw

/-- A next hop of an IP route: an interface, a gateway of the family of the route, and either no
label data or labels to push. -/
structure NextHop.IsIp (family : UInt8) (path : NextHop) : Prop where
  ifIndex : path.ifIndex ≠ none
  gateway : ∃ gw, path.HasGateway gw ∧ gw.family = family
  weight : path.weight = 0
  swapLabel : path.swapLabel = none
  labels : path.labelAction = none ∧ path.pushLabels = none ∨
    path.labelAction = some .PUSH ∧ ∃ labels, path.pushLabels = some labels ∧
      1 ≤ labels.length ∧ labels.length ≤ kMaxLabels ∧ ∀ label ∈ labels, label.toNat < 2 ^ 20

/-- A next hop of a label route: an interface, and what its action needs. -/
structure NextHop.IsLabel (path : NextHop) : Prop where
  ifIndex : path.ifIndex ≠ none
  action : (path.labelAction = some .SWAP ∧ (∃ gw, path.gateway = some gw ∧ gw ≠ .empty) ∧
      ∃ label, path.swapLabel = some label ∧ label.toNat < 2 ^ 20) ∨
    (path.labelAction = some .PHP ∧ (∃ gw, path.gateway = some gw ∧ gw ≠ .empty) ∧
      path.swapLabel = none) ∨
    (path.labelAction = some .POP_AND_LOOKUP ∧ path.gateway = none ∧ path.swapLabel = none)

private theorem NextHop.IsLabel.gateway_eq_none_iff {path : NextHop} (h : path.IsLabel) :
    path.gateway = none ↔ path.labelAction = some .POP_AND_LOOKUP := by
  obtain ⟨haction, ⟨gw, hgw, -⟩, -⟩ | ⟨haction, ⟨gw, hgw, -⟩, -⟩ | ⟨haction, hgw, -⟩ := h.action <;>
    simp [haction, hgw]

/-- A next hop with the fields that are set in another one. -/
def NextHop.overwrite (new nh : NextHop) : NextHop where
  ifIndex := new.ifIndex.or nh.ifIndex
  gateway := new.gateway.or nh.gateway
  weight := nh.weight
  labelAction := nh.labelAction
  swapLabel := new.swapLabel.or nh.swapLabel
  pushLabels := new.pushLabels.or nh.pushLabels

private theorem NextHop.overwrite_assoc (new' new nh : NextHop) :
    (new'.overwrite new).overwrite nh = new'.overwrite (new.overwrite nh) := by
  simp only [overwrite, Option.or_assoc]

/-- Overwriting twice is overwriting once. -/
@[simp] theorem NextHop.overwrite_overwrite (new nh : NextHop) :
    new.overwrite (new.overwrite nh) = new.overwrite nh := by
  simp only [overwrite, ← Option.or_assoc, Option.or_self]

namespace NetlinkRouteMessage

section NextHopAttributes

variable {m : Memory} {fuel : ℕ} {family : UInt8}

private theorem parses_gateway {gw : IPAddress} (hne : gw ≠ .empty) (hfamily : gw.family = family) :
    Rtattr.Parses (parseNextHopAttribute fuel family) m (RTA_GATEWAY, gw.bytes)
      fun nh => { nh with gateway := some gw.unscoped } := by
  intro a nh htype _ hvalue
  rw [parseNextHopAttribute, if_pos htype, parseIp,
    eval_bind_of_ok (eval_ipAddressAt hvalue hne hfamily)]
  rfl

private theorem parses_via {gw : IPAddress} (hne : gw ≠ .empty) (viaFamily : ℕ) :
    Rtattr.Parses (parseNextHopAttribute fuel family) m (RTA_VIA, le16 viaFamily ++ gw.bytes)
      fun nh => { nh with gateway := some gw.unscoped } := by
  intro a nh (htype : a.type = RTA_VIA) hlen hvalue
  obtain ⟨-, hbytes⟩ := holds_append.mp hvalue
  rw [length_le16] at hbytes
  rw [parseNextHopAttribute, if_neg (by rw [htype]; decide), if_pos htype]
  -- the length of the attribute tells the family
  cases gw with
  | empty => exact absurd rfl hne
  | v4 b =>
    have hshort : ¬ a.len > 16 := by simp [hlen, IPAddress.bytes]
    rw [if_neg hshort, eval_bind_of_ok (eval_bytesVectorAt hbytes)]
    rfl
  | v6 b scopeId =>
    have hlong : a.len > 16 := by simp [hlen, IPAddress.bytes]
    rw [if_pos hlong, eval_bind_of_ok (eval_bytesVectorAt hbytes)]
    rfl

private theorem parses_oif (ifIndex : UInt32) :
    Rtattr.Parses (parseNextHopAttribute fuel family) m (RTA_OIF, le32 ifIndex.toNat)
      fun nh => { nh with ifIndex := some ifIndex } := by
  intro a nh (htype : a.type = RTA_OIF) _ hvalue
  rw [parseNextHopAttribute, if_neg (by rw [htype]; decide), if_neg (by rw [htype]; decide),
    if_pos htype, eval_bind_of_ok (eval_u32At hvalue), UInt32.ofNat_toNat]
  rfl

private theorem parses_encap {labels : List UInt32} (hmax : labels.length ≤ kMaxLabels)
    (hlabels : ∀ label ∈ labels, label.toNat < 2 ^ 20) :
    Rtattr.Parses (parseNextHopAttribute (fuel + 1) family) m
      (RTA_ENCAP, Rtattr.encode MPLS_IPTUNNEL_DST (encodeLabels labels))
      fun nh => { nh with pushLabels := some labels } := by
  intro a nh (htype : a.type = RTA_ENCAP) _ hvalue
  rw [parseNextHopAttribute, if_neg (by rw [htype]; decide), if_neg (by rw [htype]; decide),
    if_neg (by rw [htype]; decide), if_pos htype,
    eval_bind_of_ok (eval_parseMplsLabels hvalue hmax hlabels)]
  rfl

private theorem parses_newdst {label : UInt32} (hlabel : label.toNat < 2 ^ 20) :
    Rtattr.Parses (parseNextHopAttribute fuel family) m
      (RTA_NEWDST, beBytes32 (encodeLabel label true))
      fun nh => { nh with swapLabel := some label } := by
  intro a nh (htype : a.type = RTA_NEWDST) _ hvalue
  rw [parseNextHopAttribute, if_neg (by rw [htype]; decide), if_neg (by rw [htype]; decide),
    if_neg (by rw [htype]; decide), if_neg (by rw [htype]; decide), if_pos htype,
    eval_bind_of_ok (eval_labelAt hvalue hlabel)]
  rfl

/-- The types of attributes that next hops have. -/
def nextHopTypes : List ℕ := [RTA_GATEWAY, RTA_VIA, RTA_OIF, RTA_ENCAP, RTA_NEWDST]

private theorem parseNextHopAttribute_of_notMem {a : Rtattr} (h : a.type ∉ nextHopTypes)
    (nh : NextHop) :
    (parseNextHopAttribute fuel family a nh).eval m = .ok nh := by
  simp only [nextHopTypes, List.mem_cons, List.not_mem_nil, or_false, not_or] at h
  obtain ⟨h₁, h₂, h₃, h₄, h₅⟩ := h
  rw [parseNextHopAttribute, if_neg h₁, if_neg h₂, if_neg h₃, if_neg h₄, if_neg h₅, eval_pure]

/-- The parser collects all fields of a next hop of an IP route but the action. -/
theorem effects_of_isIp {path : NextHop} (h : path.IsIp family) :
    ∃ effects, List.Forall₂ (Rtattr.Parses (parseNextHopAttribute (fuel + 1) family) m)
        (nextHopAttrs path) effects ∧
      effects.foldl (fun nh effect => effect nh) { ifIndex := some (path.ifIndex.getD 0) } =
        { path with labelAction := none } := by
  obtain ⟨hindex, ⟨gw, ⟨hgw, hne, hscope⟩, hfamily⟩, hweight, hswap, hlabels⟩ := h
  obtain ⟨ifIndex, hindex⟩ := Option.ne_none_iff_exists'.mp hindex
  obtain ⟨ifIndex, gateway, weight, labelAction, swapLabel, pushLabels⟩ := path
  simp only at hindex hgw hweight hswap hlabels
  subst hindex hgw hweight hswap
  have hgateway : Rtattr.Parses (parseNextHopAttribute (fuel + 1) family) m
      (RTA_GATEWAY, gw.bytes) fun nh => { nh with gateway := some gw } := by
    simpa only [hscope] using parses_gateway hne hfamily
  rcases hlabels with ⟨rfl, rfl⟩ | ⟨rfl, labels, rfl, -, hmax, hlabels⟩
  · exact ⟨_, .cons hgateway .nil, rfl⟩
  · have hignored : Rtattr.Parses (parseNextHopAttribute (fuel + 1) family) m
        (RTA_ENCAP_TYPE, le16 LWTUNNEL_ENCAP_MPLS) id := fun a nh htype _ _ =>
      parseNextHopAttribute_of_notMem (by rw [htype]; decide) nh
    exact ⟨_, .cons (parses_encap hmax hlabels) (.cons hignored (.cons hgateway .nil)), rfl⟩

/-- The fields of a next hop of a label route that its message carries. -/
def labelFields (path : NextHop) : NextHop where
  ifIndex := path.ifIndex
  gateway := path.gateway.map IPAddress.unscoped
  swapLabel := path.swapLabel

private theorem effects_of_isLabel {path : NextHop} (h : path.IsLabel) :
    ∃ effects, List.Forall₂ (Rtattr.Parses (parseNextHopAttribute fuel family) m)
        (nextHopAttrs path) effects ∧
      effects.foldl (fun nh effect => effect nh) { ifIndex := some (path.ifIndex.getD 0) } =
        labelFields path := by
  obtain ⟨hindex, haction⟩ := h
  obtain ⟨ifIndex, hindex⟩ := Option.ne_none_iff_exists'.mp hindex
  obtain ⟨ifIndex, gateway, weight, labelAction, swapLabel, pushLabels⟩ := path
  simp only at hindex haction
  subst hindex
  obtain ⟨rfl, ⟨gw, rfl, hne⟩, label, rfl, hlabel⟩ | ⟨rfl, ⟨gw, rfl, hne⟩, rfl⟩ | ⟨rfl, rfl, rfl⟩ :=
    haction
  · exact ⟨_, .cons (parses_newdst hlabel) (.cons (parses_via hne _) .nil), rfl⟩
  · exact ⟨_, .cons (parses_via hne _) .nil, rfl⟩
  · exact ⟨_, .cons (parses_oif _) .nil, rfl⟩

/-- An attribute of a next hop sets fields, whatever they were before. An address that is read
has no scope id. -/
theorem exists_eval_parseNextHopAttribute (m : Memory) (fuel : ℕ) (family : UInt8) (a : Rtattr) :
    ∃ r : Except Abort NextHop,
      (∀ nh, (parseNextHopAttribute fuel family a nh).eval m = r.map (·.overwrite nh)) ∧
      ∀ new, r = .ok new → new.gateway.map IPAddress.unscoped = new.gateway := by
  have hset : ∀ new : NextHop, new.gateway.map IPAddress.unscoped = new.gateway →
      (∀ nh, (parseNextHopAttribute fuel family a nh).eval m = .ok (new.overwrite nh)) →
      ∃ r : Except Abort NextHop,
        (∀ nh, (parseNextHopAttribute fuel family a nh).eval m = r.map (·.overwrite nh)) ∧
        ∀ new, r = .ok new → new.gateway.map IPAddress.unscoped = new.gateway := by
    intro new hscope heval
    exact ⟨.ok new, heval, fun new' hnew => Except.ok.inj hnew ▸ hscope⟩
  by_cases hgateway : a.type = RTA_GATEWAY
  · obtain ⟨ip, hip, hscope⟩ : ∃ ip, (parseIp a family).eval m = .ok ip ∧
        ip.map IPAddress.unscoped = ip := by
      rw [parseIp, ipAddressAt]
      split
      · exact ⟨_, rfl, rfl⟩
      split
      · exact ⟨_, rfl, rfl⟩
      · exact ⟨_, rfl, rfl⟩
    refine hset { gateway := ip } hscope fun nh => ?_
    rw [parseNextHopAttribute, if_pos hgateway, eval_bind_of_ok hip]
    cases ip <;> rfl
  by_cases hvia : a.type = RTA_VIA
  · by_cases hlong : a.len > 16
    · refine hset { gateway := some (.v6 ⟨slice m (a.data + 2) 16, length_slice _ _ _⟩ 0) } rfl
        fun nh => ?_
      rw [parseNextHopAttribute, if_neg hgateway, if_pos hvia, if_pos hlong]
      rfl
    · refine hset { gateway := some (.v4 ⟨slice m (a.data + 2) 4, length_slice _ _ _⟩) } rfl
        fun nh => ?_
      rw [parseNextHopAttribute, if_neg hgateway, if_pos hvia, if_neg hlong]
      rfl
  by_cases hoif : a.type = RTA_OIF
  · refine hset { ifIndex := some (.ofNat (u32 m a.data)) } rfl fun nh => ?_
    rw [parseNextHopAttribute, if_neg hgateway, if_neg hvia, if_pos hoif]
    rfl
  by_cases hencap : a.type = RTA_ENCAP
  · cases hlabels : (parseMplsLabels fuel a).eval m with
    | error e =>
      refine ⟨.error e, fun nh => ?_, nofun⟩
      rw [parseNextHopAttribute, if_neg hgateway, if_neg hvia, if_neg hoif, if_pos hencap]
      exact eval_bind_of_error hlabels
    | ok labels =>
      refine hset { pushLabels := labels } rfl fun nh => ?_
      rw [parseNextHopAttribute, if_neg hgateway, if_neg hvia, if_neg hoif, if_pos hencap,
        eval_bind_of_ok hlabels]
      cases labels <;> rfl
  by_cases hnewdst : a.type = RTA_NEWDST
  · refine hset { swapLabel := some (.ofNat (be32 m a.data / 2 ^ kLabelShift)) } rfl fun nh => ?_
    rw [parseNextHopAttribute, if_neg hgateway, if_neg hvia, if_neg hoif, if_neg hencap,
      if_pos hnewdst]
    rfl
  · refine hset {} rfl fun nh => ?_
    rw [parseNextHopAttribute, if_neg hgateway, if_neg hvia, if_neg hoif, if_neg hencap,
      if_neg hnewdst]
    rfl

/-- The visits of several attributes of a next hop. -/
def visitAll (m : Memory) (fuel : ℕ) (family : UInt8) (attrs : List Rtattr) (nh : NextHop) :
    Except Abort NextHop :=
  attrs.foldlM (fun nh a => (parseNextHopAttribute fuel family a nh).eval m) nh

/-- What a list of attributes does to a next hop: it fails, or it overwrites some fields. -/
theorem exists_visitAll (m : Memory) (fuel : ℕ) (family : UInt8) (attrs : List Rtattr) :
    ∃ r : Except Abort NextHop,
      (∀ nh, visitAll m fuel family attrs nh = r.map (·.overwrite nh)) ∧
      ∀ new, r = .ok new → new.gateway.map IPAddress.unscoped = new.gateway := by
  induction attrs with
  | nil => exact ⟨.ok {}, fun nh => rfl, fun new hnew => Except.ok.inj hnew ▸ rfl⟩
  | cons a attrs ih =>
    obtain ⟨r, hr, hscope⟩ := ih
    obtain ⟨rₐ, hrₐ, hscopeₐ⟩ := exists_eval_parseNextHopAttribute m fuel family a
    refine ⟨rₐ.bind fun new => r.map (·.overwrite new), fun nh => ?_, fun new hnew => ?_⟩
    · rw [visitAll, List.foldlM_cons, hrₐ]
      cases rₐ with
      | error e => rfl
      | ok newₐ =>
        refine (hr _).trans ?_
        cases r with
        | error e => rfl
        | ok new => exact congrArg Except.ok (new.overwrite_assoc newₐ nh).symm
    · cases rₐ with
      | error e => nomatch hnew
      | ok newₐ =>
        obtain ⟨new', rfl, rfl⟩ := Except.map_eq_ok_iff.mp hnew
        have hnew' := hscope new' rfl
        have hnewₐ := hscopeₐ newₐ rfl
        cases hgw : new'.gateway with
        | none => simpa [NextHop.overwrite, hgw] using hnewₐ
        | some gw => simpa [NextHop.overwrite, hgw] using hnew'

end NextHopAttributes

section NextHopLists

variable {m : Memory} {fuel o : ℕ} {family : UInt8} {path : NextHop} {paths : List NextHop}

private theorem nextHopAttrs_types (path : NextHop) : ∀ a ∈ nextHopAttrs path, a.1 < 2 ^ 16 := by
  rw [nextHopAttrs]
  split <;> cases path.swapLabel <;> simp [swapAttrs, RTA_ENCAP, RTA_ENCAP_TYPE, RTA_GATEWAY,
    RTA_NEWDST, RTA_VIA, RTA_OIF]

/-- What stands in the fields of a next hop. -/
theorem hop_of_holds (h : Holds m o (nextHopBytes path))
    (hsize : (nextHopBytes path).length < 2 ^ 16) :
    u16 m o = 8 + Rtattr.listLength (nextHopAttrs path) ∧ u16 m (o + 2) = 0 ∧
      u32 m (o + 4) = (path.ifIndex.getD 0).toNat ∧
      Holds m (o + 8) (Rtattr.encodeAll (nextHopAttrs path)) := by
  have hle := le_align4 (8 + Rtattr.listLength (nextHopAttrs path))
  rw [align4_rtnhLen] at hle
  obtain ⟨hlen, h⟩ := holds_append.mp h
  obtain ⟨hflags, h⟩ := holds_append.mp h
  obtain ⟨hindex, hattrs⟩ := holds_append.mp h
  simp only [length_le16, length_le32, List.length_cons, List.length_nil, Nat.add_assoc,
    Nat.reduceAdd] at hflags hindex hattrs
  have hzero : Holds m (o + 2) (le16 0) := hflags
  exact ⟨hlen.u16 (by omega), hzero.u16 (by decide), hindex.u32 (UInt32.toNat_lt _), hattrs⟩

/-- The walk over the attributes of a next hop, and over what follows it if the count wraps
around. -/
theorem eval_walk_hop {effects : List (NextHop → NextHop)} {rest : List Rtattr} {nh : NextHop}
    (h : Holds m o (nextHopBytes path)) (hsize : (nextHopBytes path).length < 2 ^ 16)
    (hparse : List.Forall₂ (Rtattr.Parses (parseNextHopAttribute fuel family) m)
      (nextHopAttrs path) effects)
    (hrest : Rtattr.Listed m (o + (nextHopBytes path).length)
      (sub64 (Rtattr.listLength (nextHopAttrs path))
        (Rtattr.encodeAll (nextHopAttrs path)).length) rest)
    (hfuel : (nextHopAttrs path).length + rest.length < fuel) :
    (Rtattr.walk (parseNextHopAttribute fuel family) fuel (o + 8)
      (Rtattr.listLength (nextHopAttrs path)) nh).eval m =
        visitAll m fuel family rest (effects.foldl (fun nh effect => effect nh) nh) := by
  obtain ⟨-, -, -, hattrs⟩ := hop_of_holds h hsize
  have hle := le_align4 (Rtattr.listLength (nextHopAttrs path))
  rw [Rtattr.align4_listLength] at hle
  rw [nextHopBytes, length_hopBytes] at hsize hrest
  have hfits := Rtattr.fits_of_length (nextHopAttrs_types path) (by omega)
  rw [← Nat.add_assoc] at hrest
  have hstored := Rtattr.stored_of_holds hattrs
  have hlisted := hstored.listed_append hfits le_rfl (by omega) hrest
  rw [hlisted.eval_walk (by simpa using hfuel), List.foldlM_append,
    hstored.foldlM_place hfits hparse]
  rfl

/-- The walk over each next hop of a list at an offset collects what `collected` says. -/
inductive Collects (m : Memory) (fuel : ℕ) (family : UInt8)
    (collected : NextHop → Except Abort NextHop) : ℕ → List NextHop → Prop
  | nil {o : ℕ} : Collects m fuel family collected o []
  | cons {o : ℕ} {path : NextHop} {paths : List NextHop}
      (hwalk : (Rtattr.walk (parseNextHopAttribute fuel family) fuel (o + 8)
        (Rtattr.listLength (nextHopAttrs path))
        { ifIndex := some (path.ifIndex.getD 0) }).eval m = collected path)
      (hrest : Collects m fuel family collected (o + (nextHopBytes path).length) paths) :
      Collects m fuel family collected o (path :: paths)

variable {collected : NextHop → Except Abort NextHop}

/-- What is collected counts for the given next hops only. -/
theorem Collects.congr {collected' : NextHop → Except Abort NextHop}
    (h : Collects m fuel family collected o paths)
    (heq : ∀ path ∈ paths, collected path = collected' path) :
    Collects m fuel family collected' o paths := by
  induction h with
  | nil => exact .nil
  | cons hwalk _ ih =>
    obtain ⟨hpath, heq⟩ := List.forall_mem_cons.mp heq
    exact .cons (hwalk.trans hpath) (ih heq)

/-- The next hop that `parseNextHops` makes of what a walk has collected. -/
def madeOf (family : UInt8) (collected : NextHop → Except Abort NextHop) (path : NextHop) :
    Except Abort NextHop :=
  (collected path).map (setMplsAction · family)

/-- One round of the loop over next hops. -/
theorem eval_nextHopsLoop_succ {loopFuel : ℕ} {nhLen : ℤ} (h : Holds m o (nextHopBytes path))
    (hsize : (nextHopBytes path).length < 2 ^ 16)
    (hwalk : (Rtattr.walk (parseNextHopAttribute fuel family) fuel (o + 8)
      (Rtattr.listLength (nextHopAttrs path))
      { ifIndex := some (path.ifIndex.getD 0) }).eval m = collected path) :
    (nextHopsLoop fuel family (loopFuel + 1) o nhLen).eval m =
      let next := o + (nextHopBytes path).length
      let rest := nhLen - (nextHopBytes path).length
      madeOf family collected path >>= fun nextHop =>
        if 8 ≤ u16 m next ∧ u16 m next ≤ rest then
          (nextHopsLoop fuel family loopFuel next rest).eval m >>= fun nextHops =>
            pure (nextHop :: nextHops)
        else pure [nextHop] := by
  obtain ⟨hlen, -, hindex, -⟩ := hop_of_holds h hsize
  have hsub : sub64 (8 + Rtattr.listLength (nextHopAttrs path)) 8 =
      Rtattr.listLength (nextHopAttrs path) := by
    have hle := le_align4 (8 + Rtattr.listLength (nextHopAttrs path))
    rw [align4_rtnhLen] at hle
    rw [sub64_of_le (by omega) (by omega), Nat.add_sub_cancel_left]
  rw [nextHopsLoop, eval_bind_of_ok (Reader.eval_u32At _), eval_bind_of_ok (eval_u16At _), hlen,
    hindex, hsub, UInt32.ofNat_toNat, align4_rtnhLen, madeOf]
  cases hpath : collected path with
  | error e => exact eval_bind_of_error (hwalk.trans hpath)
  | ok nh =>
    rw [eval_bind_of_ok (hwalk.trans hpath), eval_bind_of_ok (eval_u16At _)]
    dsimp only [Except.map, bind, Except.bind]
    split
    · exact eval_bind
    · rfl

/-- The loop returns the next hops of the list: the rest of the count is zero behind the last one,
whatever stands there. -/
theorem Collects.eval_nextHopsLoop {loopFuel : ℕ}
    (hcollects : Collects m fuel family collected o paths) (hne : paths ≠ [])
    (h : Holds m o (paths.flatMap nextHopBytes))
    (hsize : (paths.flatMap nextHopBytes).length < 2 ^ 16) (hfuel : paths.length ≤ loopFuel) :
    (nextHopsLoop fuel family loopFuel o (paths.flatMap nextHopBytes).length).eval m =
      paths.mapM (madeOf family collected) := by
  induction hcollects generalizing loopFuel with
  | nil => exact absurd rfl hne
  | @cons o path paths hwalk _ ih =>
    obtain ⟨loopFuel, rfl⟩ := Nat.exists_eq_succ_of_ne_zero (Nat.ne_zero_of_lt hfuel)
    rw [List.flatMap_cons, List.length_append] at hsize ⊢
    rw [List.flatMap_cons, holds_append] at h
    have hrest : (((nextHopBytes path).length + (paths.flatMap nextHopBytes).length : ℕ) : ℤ) -
        (nextHopBytes path).length = (paths.flatMap nextHopBytes).length := by
      omega
    rw [eval_nextHopsLoop_succ h.1 (by omega) hwalk, hrest, List.mapM_cons]
    refine congrArg _ (funext fun nextHop => ?_)
    dsimp only
    cases paths with
    | nil =>
      rw [if_neg (by simp; omega), List.mapM_nil]
      rfl
    | cons path' paths =>
      have hnext := h.2
      rw [List.flatMap_cons, holds_append] at hnext
      have hsize' := hsize
      rw [List.flatMap_cons, List.length_append] at hsize'
      obtain ⟨hlen, -⟩ := hop_of_holds hnext.1 (by omega)
      have hle := le_align4 (8 + Rtattr.listLength (nextHopAttrs path'))
      rw [align4_rtnhLen] at hle
      have hok : 8 ≤ u16 m (o + (nextHopBytes path).length) ∧
          (u16 m (o + (nextHopBytes path).length) : ℤ) ≤
            ((path' :: paths).flatMap nextHopBytes).length := by
        rw [List.flatMap_cons, List.length_append, hlen]
        omega
      rw [if_pos hok, ih (List.cons_ne_nil _ _) h.2 (by omega) (by simpa using hfuel)]

/-- If the attributes of a next hop need no padding, the walk ends behind them. -/
theorem listed_nil_of_dvd (hdvd : 4 ∣ Rtattr.listLength (nextHopAttrs path))
    (hsize : (nextHopBytes path).length < 2 ^ 16) (o : ℕ) :
    Rtattr.Listed m o (sub64 (Rtattr.listLength (nextHopAttrs path))
      (Rtattr.encodeAll (nextHopAttrs path)).length) [] := by
  rw [nextHopBytes, length_hopBytes, ← Rtattr.align4_listLength, align4_of_dvd hdvd] at hsize
  rw [← Rtattr.align4_listLength, align4_of_dvd hdvd, sub64_of_le le_rfl (by omega), Nat.sub_self]
  exact .nil (.inl (by decide))

private theorem dvd_listLength_of_isIp (h : path.IsIp family) :
    4 ∣ Rtattr.listLength (nextHopAttrs path) := by
  obtain ⟨gw, ⟨hgw, -, -⟩, -⟩ := h.gateway
  have hdvd := gw.dvd_length_bytes
  rcases h.labels with ⟨haction, -⟩ | ⟨haction, -⟩ <;>
    simp only [nextHopAttrs, haction, hgw, Option.elim_some, Rtattr.listLength, align4] <;> omega

/-- The parser collects next hops without labels as they are. -/
theorem collects_of_isIp (hpaths : ∀ path ∈ paths, path.IsIp family)
    (h : Holds m o (paths.flatMap nextHopBytes))
    (hsize : (paths.flatMap nextHopBytes).length < 2 ^ 16) (hfuel : 3 < fuel) :
    Collects m fuel family (fun path => .ok { path with labelAction := none }) o paths := by
  induction paths generalizing o with
  | nil => exact .nil
  | cons path paths ih =>
    obtain ⟨hpath, hpaths⟩ := List.forall_mem_cons.mp hpaths
    rw [List.flatMap_cons, holds_append] at h
    rw [List.flatMap_cons, List.length_append] at hsize
    refine .cons ?_ (ih hpaths h.2 (by omega))
    obtain ⟨fuel, rfl⟩ := Nat.exists_eq_succ_of_ne_zero (Nat.ne_zero_of_lt hfuel)
    obtain ⟨effects, heffects, hfold⟩ := effects_of_isIp hpath
    have hcount : (nextHopAttrs path).length ≤ 3 := by
      rcases hpath.labels with ⟨haction, -⟩ | ⟨haction, -⟩ <;> simp [nextHopAttrs, haction]
    have hend := listed_nil_of_dvd (m := m) (dvd_listLength_of_isIp hpath) (by omega)
    rw [eval_walk_hop h.1 (by omega) heffects (hend _) (Nat.lt_of_le_of_lt hcount hfuel), hfold]
    rfl

/-- The attributes that a walk visits which runs past the end of the message. -/
def Follows (m : Memory) (stop : ℕ) (rest : List Rtattr) : Prop :=
  ∀ len, 2 ^ 63 ≤ len → len < 2 ^ 64 → Rtattr.Listed m stop len rest

/-- A walk that runs past the end of a next hop takes the next hops that follow for attributes
of type zero. -/
theorem Follows.hops {rest : List Rtattr}
    (hrest : Follows m (o + (paths.flatMap nextHopBytes).length) rest)
    (h : Holds m o (paths.flatMap nextHopBytes))
    (hsize : (paths.flatMap nextHopBytes).length < 2 ^ 16) (len : ℕ)
    (hlen : 2 ^ 63 + (paths.flatMap nextHopBytes).length ≤ len) (hlen' : len < 2 ^ 64) :
    ∃ attrs, Rtattr.Listed m o len (attrs ++ rest) ∧ (∀ a ∈ attrs, a.type ∉ nextHopTypes) ∧
      attrs.length = paths.length := by
  induction paths generalizing o len with
  | nil => exact ⟨[], hrest len (by omega) hlen', List.forall_mem_nil _, rfl⟩
  | cons path paths ih =>
    rw [List.flatMap_cons, holds_append] at h
    rw [List.flatMap_cons, List.length_append] at hsize hlen hrest
    rw [← Nat.add_assoc] at hrest
    obtain ⟨hu16, htype, -, -⟩ := hop_of_holds h.1 (by omega)
    have hle := le_align4 (8 + Rtattr.listLength (nextHopAttrs path))
    rw [align4_rtnhLen] at hle
    obtain ⟨attrs, hlisted, htypes, hcount⟩ := ih hrest h.2 (by omega)
      (len - (nextHopBytes path).length) (by omega) (by omega)
    refine ⟨.load m o :: attrs, .cons ?_ ?_, List.forall_mem_cons.mpr ⟨?_, htypes⟩, ?_⟩
    · rw [Rtattr.AtEnd, hu16]
      omega
    · rwa [hu16, align4_rtnhLen, sub64_of_le (by omega) hlen']
    · have hzero : (Rtattr.load m o).type = 0 := htype
      rw [hzero]
      decide
    · rw [List.length_cons, hcount, List.length_cons]

/-- The length of a next hop with `RTA_VIA` is two bytes short of its end, so the count of the
walk wraps around. -/
theorem sub64_listLength_of_via (h : path.IsLabel)
    (haction : path.labelAction ≠ some .POP_AND_LOOKUP) :
    sub64 (Rtattr.listLength (nextHopAttrs path))
      (Rtattr.encodeAll (nextHopAttrs path)).length = 2 ^ 64 - 2 := by
  have hmod : 4 ∣ Rtattr.listLength (nextHopAttrs path) + 2 ∧
      Rtattr.listLength (nextHopAttrs path) < 2 ^ 16 := by
    obtain ⟨hswap, ⟨gw, hgw, hne⟩, label, hlabel, -⟩ | ⟨hphp, ⟨gw, hgw, hne⟩, hlabel⟩ | ⟨hpop, -⟩ :=
      h.action
    · cases gw with
      | empty => exact absurd rfl hne
      | v4 bytes =>
        simp [nextHopAttrs, swapAttrs, Rtattr.listLength, IPAddress.bytes, align4, hswap, hgw,
          hlabel]
      | v6 bytes scopeId =>
        simp [nextHopAttrs, swapAttrs, Rtattr.listLength, IPAddress.bytes, align4, hswap, hgw,
          hlabel]
    · cases gw with
      | empty => exact absurd rfl hne
      | v4 bytes =>
        simp [nextHopAttrs, swapAttrs, Rtattr.listLength, IPAddress.bytes, hphp, hgw, hlabel]
      | v6 bytes scopeId =>
        simp [nextHopAttrs, swapAttrs, Rtattr.listLength, IPAddress.bytes, hphp, hgw, hlabel]
    · exact absurd hpop haction
  rw [← Rtattr.align4_listLength]
  simp only [sub64, align4]
  omega

/-- What the parser collects of a next hop, if what follows the message sets some fields of those
with a gateway. -/
def labelResult (r : Except Abort NextHop) (path : NextHop) : Except Abort NextHop :=
  if path.gateway = none then .ok (labelFields path) else r.map (·.overwrite (labelFields path))

private theorem visitAll_of_ignored {attrs rest : List Rtattr} {nh : NextHop}
    (h : ∀ a ∈ attrs, a.type ∉ nextHopTypes) :
    visitAll m fuel family (attrs ++ rest) nh = visitAll m fuel family rest nh := by
  have hattrs : visitAll m fuel family attrs nh = .ok nh :=
    Rtattr.foldlM_of_ignored fun a ha nh => parseNextHopAttribute_of_notMem (h a ha) nh
  rw [visitAll] at hattrs
  rw [visitAll, List.foldlM_append, hattrs]
  rfl

/-- The parser collects next hops with labels, and for each one what follows all of them. -/
theorem collects_of_isLabel {rest : List Rtattr} {r : Except Abort NextHop}
    (hpaths : ∀ path ∈ paths, path.IsLabel) (h : Holds m o (paths.flatMap nextHopBytes))
    (hsize : (paths.flatMap nextHopBytes).length < 2 ^ 16)
    (hrest : Follows m (o + (paths.flatMap nextHopBytes).length) rest)
    (hr : ∀ nh, visitAll m fuel family rest nh = r.map (·.overwrite nh))
    (hfuel : paths.length + rest.length + 2 < fuel) :
    Collects m fuel family (labelResult r) o paths := by
  induction paths generalizing o with
  | nil => exact .nil
  | cons path paths ih =>
    obtain ⟨hpath, hpaths⟩ := List.forall_mem_cons.mp hpaths
    rw [List.flatMap_cons, holds_append] at h
    rw [List.flatMap_cons, List.length_append] at hsize hrest
    rw [← Nat.add_assoc] at hrest
    rw [List.length_cons] at hfuel
    refine .cons ?_ (ih hpaths h.2 (by omega) hrest (by omega))
    obtain ⟨effects, heffects, hfold⟩ := effects_of_isLabel hpath
    have hcount : (nextHopAttrs path).length ≤ 2 := by
      obtain ⟨haction, -, label, hlabel, -⟩ | ⟨haction, -, hlabel⟩ | ⟨haction, -⟩ := hpath.action
        <;> simp [nextHopAttrs, swapAttrs, *]
    rw [labelResult]
    split
    next hnone =>
      have hpop := hpath.gateway_eq_none_iff.mp hnone
      have hdvd : 4 ∣ Rtattr.listLength (nextHopAttrs path) := by
        simp [nextHopAttrs, hpop, Rtattr.listLength]
      rw [eval_walk_hop h.1 (by omega) heffects (listed_nil_of_dvd hdvd (by omega) _)
        (by simp; omega), hfold]
      rfl
    next hsome =>
      have hpop := mt hpath.gateway_eq_none_iff.mpr hsome
      obtain ⟨attrs, hlisted, htypes, hlen⟩ := hrest.hops h.2 (by omega) (2 ^ 64 - 2)
        (by omega) (by omega)
      rw [← sub64_listLength_of_via hpath hpop] at hlisted
      rw [eval_walk_hop h.1 (by omega) heffects hlisted (by simp; omega), hfold,
        visitAll_of_ignored htypes, hr]

end NextHopLists

end NetlinkRouteMessage

end Fbmeshd
