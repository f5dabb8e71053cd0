import Fbmeshd.Rnl.EventParser

/-!
# Memory safety of the parsers

None of the parsers compares the length of an attribute with the size of what it reads from it,
and a length that is not a multiple of four makes the count of the bytes that remain wrap
around. So whether the parsers stay inside a receive buffer depends on its content. The
predicates of this file say of a buffer, at each level of nesting, that what the parser of that
level reads is inside; all reads stay inside and the parsers return exactly on such buffers.
-/

namespace Fbmeshd

open Bytes Reader

/-- The size of an address of a family. -/
def addressSize (family : UInt8) : ℕ :=
  if family = AF_INET then 4 else if family = AF_INET6 then 16 else 0

/-- An address of the family at an offset ends below the bound. In other families nothing is
read. -/
def AddressInside (bound o : ℕ) (family : UInt8) : Prop :=
  0 < addressSize family → o + addressSize family ≤ bound

section Values

variable {m : Memory} {bound o n : ℕ} {family : UInt8}

private theorem safe_labelAt_iff : Safe m bound (labelAt o) ↔ o + 4 ≤ bound := by
  rw [labelAt, safe_bind_pure_iff, be32At, safe_read_iff]

private theorem safe_bytesVectorAt_iff : Safe m bound (bytesVectorAt o n) ↔ o + n ≤ bound :=
  safe_read_iff

private theorem safe_ipAddressAt_iff :
    Safe m bound (ipAddressAt o family) ↔ AddressInside bound o family := by
  rw [ipAddressAt, AddressInside, addressSize]
  split
  · rw [safe_bind_pure_iff, safe_bytesVectorAt_iff]
    simp
  split
  · rw [safe_bind_pure_iff, safe_bytesVectorAt_iff]
    simp
  · exact iff_of_true (safe_pure none) (by simp)

end Values

namespace NetlinkRouteMessage

/-- The attributes inside an `RTA_ENCAP`, up to the one with the labels. The first one need not
pass `RTA_OK`. -/
inductive LabelStack (m : Memory) (bound : ℕ) : ℕ → ℤ → Prop
  | labels {o : ℕ} {len : ℤ} (hread : o + 4 ≤ bound) (htype : u16 m (o + 2) = MPLS_IPTUNNEL_DST)
      (hmax : numLabels (u16 m o) ≤ kMaxLabels)
      (hlabels : 0 < numLabels (u16 m o) → o + 4 + 4 * numLabels (u16 m o) ≤ bound) :
      LabelStack m bound o len
  | short {o : ℕ} {len : ℤ} (hread : o + 4 ≤ bound) (htype : u16 m (o + 2) ≠ MPLS_IPTUNNEL_DST)
      (hrest : len - align4 (u16 m o) < 4) : LabelStack m bound o len
  | ended {o : ℕ} {len : ℤ} (hread : o + 4 ≤ bound) (htype : u16 m (o + 2) ≠ MPLS_IPTUNNEL_DST)
      (hnext : o + align4 (u16 m o) + 2 ≤ bound)
      (hend : u16 m (o + align4 (u16 m o)) < 4 ∨
        len - align4 (u16 m o) < u16 m (o + align4 (u16 m o))) : LabelStack m bound o len
  | next {o : ℕ} {len : ℤ} (hread : o + 4 ≤ bound) (htype : u16 m (o + 2) ≠ MPLS_IPTUNNEL_DST)
      (hmin : 4 ≤ u16 m (o + align4 (u16 m o)))
      (hfits : u16 m (o + align4 (u16 m o)) ≤ len - align4 (u16 m o))
      (hrest : LabelStack m bound (o + align4 (u16 m o)) (len - align4 (u16 m o))) :
      LabelStack m bound o len

/-- What is read of an attribute of a next hop ends below the bound and inside the attribute. -/
structure NextHopAttr (m : Memory) (bound : ℕ) (family : UInt8) (a : Rtattr) : Prop where
  gateway : a.type = RTA_GATEWAY → AddressInside (min bound a.stop) a.data family
  via : a.type = RTA_VIA → a.data + 2 + (if a.len > 16 then 16 else 4) ≤ min bound a.stop
  oif : a.type = RTA_OIF → a.data + 4 ≤ min bound a.stop
  encap : a.type = RTA_ENCAP → LabelStack m (min bound a.stop) a.data (a.len - 4)
  newdst : a.type = RTA_NEWDST → a.data + 4 ≤ min bound a.stop

/-- The next hop at an offset, with the length field of its successor. -/
structure NextHopEntry (m : Memory) (bound : ℕ) (family : UInt8) (o : ℕ) : Prop where
  header : o + 8 ≤ bound
  attrs : Rtattr.Inside m bound (NextHopAttr m bound family) (o + 8) (sub64 (u16 m o) 8)
  next : o + align4 (u16 m o) + 2 ≤ bound

/-- The next hops inside an `RTA_MULTIPATH`. The length field after the last one is inside, since
`RTNH_OK` reads it whether or not any bytes remain. -/
inductive NextHopList (m : Memory) (bound : ℕ) (family : UInt8) : ℕ → ℤ → Prop
  | last {o : ℕ} {len : ℤ} (hop : NextHopEntry m bound family o)
      (hend : u16 m (o + align4 (u16 m o)) < 8 ∨
        len - align4 (u16 m o) < u16 m (o + align4 (u16 m o))) : NextHopList m bound family o len
  | cons {o : ℕ} {len : ℤ} (hop : NextHopEntry m bound family o)
      (hmin : 8 ≤ u16 m (o + align4 (u16 m o)))
      (hfits : u16 m (o + align4 (u16 m o)) ≤ len - align4 (u16 m o))
      (hrest : NextHopList m bound family (o + align4 (u16 m o)) (len - align4 (u16 m o))) :
      NextHopList m bound family o len

/-- What is read of an attribute of a route ends below the bound and inside the attribute. -/
structure RouteAttr (m : Memory) (bound : ℕ) (family : UInt8) (a : Rtattr) : Prop
    extends NextHopAttr m bound family a where
  label : a.type = RTA_DST → family = AF_MPLS → a.data + 4 ≤ min bound a.stop
  dst : a.type = RTA_DST → family ≠ AF_MPLS → AddressInside (min bound a.stop) a.data family
  priority : a.type = RTA_PRIORITY → a.data + 4 ≤ min bound a.stop
  multipath : a.type = RTA_MULTIPATH →
    NextHopList m (min bound a.stop) family a.data (a.len - 4)

variable {m : Memory} {bound fuel o : ℕ} {len : ℤ} {family : UInt8} {a : Rtattr}

private theorem safe_readLabels_iff {n : ℕ} :
    Safe m bound (readLabels o n) ↔ (0 < n → o + 4 * n ≤ bound) := by
  induction n generalizing o with
  | zero => exact iff_of_true (safe_pure []) (by simp)
  | succ n ih =>
    rw [readLabels, safe_bind_iff_and fun _ => safe_bind_pure_iff.trans ih, safe_labelAt_iff]
    omega

private theorem safe_mplsLabelsLoop_iff (hfuel : bound < o + 4 * fuel) (hpos : 0 < fuel) :
    Safe m bound (mplsLabelsLoop fuel o len) ↔ LabelStack m bound o len := by
  induction fuel generalizing o len with
  | zero => omega
  | succ fuel ih =>
    have hle := le_align4 (u16 m o)
    rw [mplsLabelsLoop, u16At, safe_read_bind_iff, u16At, safe_read_bind_iff]
    dsimp only
    split
    next htype =>
      split
      next hmax =>
        refine iff_of_false (fun h => not_safe_abort _ h.2.2) fun h => ?_
        cases h with
        | labels _ _ hmax' => omega
        | short _ hne | ended _ hne | next _ hne => exact hne htype
      next hmax =>
        rw [safe_bind_pure_iff, safe_within_iff, safe_readLabels_iff]
        have hcount : 0 < numLabels (u16 m o) → 4 + 4 * numLabels (u16 m o) ≤ u16 m o := by
          simp only [numLabels]
          split <;> omega
        constructor
        · rintro ⟨hread, -, hlabels⟩
          exact .labels (by omega) htype (by omega) (by omega)
        · intro h
          cases h with
          | labels hread _ _ hlabels => exact ⟨by omega, by omega, by omega⟩
          | short _ hne | ended _ hne | next _ hne => exact absurd htype hne
    next htype =>
      split
      next hrest =>
        refine ⟨fun h => .short (by omega) htype hrest, fun h => ⟨?_, ?_, safe_pure none⟩⟩ <;>
          cases h <;> omega
      next hrest =>
        rw [u16At, safe_read_bind_iff]
        split
        next hend =>
          constructor
          · rintro ⟨hread, -, hnext, -⟩
            exact .ended (by omega) htype hnext hend
          · intro h
            cases h with
            | labels _ hdst => exact absurd hdst htype
            | short _ _ h => exact absurd h hrest
            | ended hread _ hnext => exact ⟨by omega, by omega, hnext, safe_pure none⟩
            | next _ _ hmin hfits => omega
        next hend =>
          -- an attribute of length zero would be its own successor
          have hzero : u16 m o ≠ 0 := by
            intro hzero
            simp only [hzero, align4, Nat.reduceAdd, Nat.reduceDiv, Nat.zero_mul, Nat.add_zero]
              at hend
            omega
          have hnext : o + 4 ≤ bound →
              (Safe m bound (mplsLabelsLoop fuel (o + align4 (u16 m o)) (len - align4 (u16 m o))) ↔
                LabelStack m bound (o + align4 (u16 m o)) (len - align4 (u16 m o))) := by
            intro hread
            have hfour : 4 ≤ align4 (u16 m o) := by
              simp only [align4]
              omega
            exact ih (by omega) (by omega)
          constructor
          · rintro ⟨hread, -, -, h⟩
            exact .next (by omega) htype (by omega) (by omega) ((hnext (by omega)).mp h)
          · intro h
            cases h with
            | labels _ hdst => exact absurd hdst htype
            | short _ _ h => exact absurd h hrest
            | ended _ _ _ h => exact absurd h hend
            | next hread _ _ _ h =>
              have hsafe := (hnext hread).mpr h
              refine ⟨by omega, by omega, ?_, hsafe⟩
              cases h <;> omega

private theorem safe_parseNextHopAttribute_iff (hfuel : bound < 4 * fuel) (a : Rtattr)
    (nh : NextHop) :
    Safe m (min bound a.stop) (parseNextHopAttribute fuel family a nh) ↔
      NextHopAttr m bound family a := by
  have hstack : Safe m (min bound a.stop) (parseMplsLabels fuel a) ↔
      LabelStack m (min bound a.stop) a.data (a.len - 4) :=
    safe_mplsLabelsLoop_iff (by omega) (by omega)
  rw [parseNextHopAttribute]
  split
  next ht =>
    rw [safe_bind_pure_iff, parseIp, safe_ipAddressAt_iff]
    refine ⟨fun h => ⟨fun _ => h, ?_, ?_, ?_, ?_⟩, fun h => h.gateway ht⟩ <;>
      exact fun ht' => absurd (ht.symm.trans ht') (by decide)
  split
  next ht =>
    have hvia : Safe m (min bound a.stop) (if a.len > 16 then do
          let ip ← bytesVectorAt (a.data + 2) 16
          pure { nh with gateway := some (.v6 ip 0) }
        else do
          let ip ← bytesVectorAt (a.data + 2) 4
          pure { nh with gateway := some (.v4 ip) }) ↔
        a.data + 2 + (if a.len > 16 then 16 else 4) ≤ min bound a.stop := by
      split <;> rw [safe_bind_pure_iff, safe_bytesVectorAt_iff]
    rw [hvia]
    refine ⟨fun h => ⟨?_, fun _ => h, ?_, ?_, ?_⟩, fun h => h.via ht⟩ <;>
      exact fun ht' => absurd (ht.symm.trans ht') (by decide)
  split
  next ht =>
    rw [safe_bind_pure_iff, u32At, safe_read_iff]
    refine ⟨fun h => ⟨?_, ?_, fun _ => h, ?_, ?_⟩, fun h => h.oif ht⟩ <;>
      exact fun ht' => absurd (ht.symm.trans ht') (by decide)
  split
  next ht =>
    rw [safe_bind_pure_iff, hstack]
    refine ⟨fun h => ⟨?_, ?_, ?_, fun _ => h, ?_⟩, fun h => h.encap ht⟩ <;>
      exact fun ht' => absurd (ht.symm.trans ht') (by decide)
  split
  next ht =>
    rw [safe_bind_pure_iff, safe_labelAt_iff]
    refine ⟨fun h => ⟨?_, ?_, ?_, ?_, fun _ => h⟩, fun h => h.newdst ht⟩ <;>
      exact fun ht' => absurd (ht.symm.trans ht') (by decide)
  next hgateway hvia hoif hencap hnewdst =>
    exact iff_of_true (safe_pure nh) ⟨fun ht => absurd ht hgateway, fun ht => absurd ht hvia,
      fun ht => absurd ht hoif, fun ht => absurd ht hencap, fun ht => absurd ht hnewdst⟩

private theorem safe_nextHopsLoop_iff {loopFuel : ℕ} (hfuel : bound < 4 * fuel)
    (hloop : bound < o + 4 * loopFuel) (hpos : 0 < loopFuel) :
    Safe m bound (nextHopsLoop fuel family loopFuel o len) ↔
      NextHopList m bound family o len := by
  induction loopFuel generalizing o len with
  | zero => omega
  | succ loopFuel ih =>
    have hwalk : ∀ nh, Safe m bound (Rtattr.walk (parseNextHopAttribute fuel family) fuel (o + 8)
          (sub64 (u16 m o) 8) nh) ↔
        Rtattr.Inside m bound (NextHopAttr m bound family) (o + 8) (sub64 (u16 m o) 8) :=
      fun nh => Rtattr.safe_walk_iff (by omega) (by omega) (safe_parseNextHopAttribute_iff hfuel)
    rw [nextHopsLoop, u32At, safe_read_bind_iff, u16At, safe_read_bind_iff]
    dsimp only
    by_cases hheader : o + 8 ≤ bound
    · have htail : ∀ nh, Safe m bound (u16At (o + align4 (u16 m o)) >>= fun nextLen =>
          if 8 ≤ nextLen ∧ (nextLen : ℤ) ≤ len - align4 (u16 m o) then do
            let nextHops ← nextHopsLoop fuel family loopFuel (o + align4 (u16 m o))
              (len - align4 (u16 m o))
            pure (setMplsAction nh family :: nextHops)
          else pure [setMplsAction nh family]) ↔
          o + align4 (u16 m o) + 2 ≤ bound ∧
            (8 ≤ u16 m (o + align4 (u16 m o)) ∧
              (u16 m (o + align4 (u16 m o)) : ℤ) ≤ len - align4 (u16 m o) →
              NextHopList m bound family (o + align4 (u16 m o)) (len - align4 (u16 m o))) := by
        intro nh
        rw [u16At, safe_read_bind_iff]
        refine and_congr_right fun _ => ?_
        split
        next hok =>
          -- a next hop of length zero would be its own successor
          have hzero : u16 m o ≠ 0 := by
            intro hzero
            simp only [hzero, align4, Nat.reduceAdd, Nat.reduceDiv, Nat.zero_mul, Nat.add_zero]
              at hok
            omega
          have hfour : 4 ≤ align4 (u16 m o) := by
            simp only [align4]
            omega
          rw [safe_bind_pure_iff, ih (by omega) (by omega), imp_iff_right hok]
        next hok => exact iff_of_true (safe_pure _) fun h => absurd h hok
      rw [safe_bind_iff_and htail, hwalk]
      constructor
      · rintro ⟨-, -, hattrs, hnext, hrest⟩
        by_cases hok : 8 ≤ u16 m (o + align4 (u16 m o)) ∧
            (u16 m (o + align4 (u16 m o)) : ℤ) ≤ len - align4 (u16 m o)
        · exact .cons ⟨hheader, hattrs, hnext⟩ hok.1 hok.2 (hrest hok)
        · exact .last ⟨hheader, hattrs, hnext⟩ (by omega)
      · intro h
        cases h with
        | last hop hend => exact ⟨by omega, by omega, hop.attrs, hop.next, fun hok => by omega⟩
        | cons hop _ _ hrest => exact ⟨by omega, by omega, hop.attrs, hop.next, fun _ => hrest⟩
    · refine iff_of_false (fun h => hheader (by omega)) fun h => ?_
      cases h with
      | last hop | cons hop => exact hheader hop.header

private theorem safe_parseRouteAttribute_iff {dstLen : UInt8} (hfuel : bound < 4 * fuel)
    (a : Rtattr)
    (st : RouteState) :
    Safe m (min bound a.stop) (parseRouteAttribute fuel family dstLen a st) ↔
      RouteAttr m bound family a := by
  have hhop : ∀ nh, Safe m (min bound a.stop) (parseNextHopAttribute fuel family a nh) ↔
      NextHopAttr m bound family a :=
    safe_parseNextHopAttribute_iff hfuel a
  have hlist : Safe m (min bound a.stop) (parseNextHops fuel a family) ↔
      NextHopList m (min bound a.stop) family a.data (a.len - 4) :=
    safe_nextHopsLoop_iff (by omega) (by omega) (by omega)
  -- an attribute of a route is none of a next hop
  have hother : a.type = RTA_DST ∨ a.type = RTA_PRIORITY ∨ a.type = RTA_MULTIPATH →
      NextHopAttr m bound family a := by
    intro ht
    constructor <;> intro ht' <;> rw [ht'] at ht <;> exact absurd ht (by decide)
  rw [parseRouteAttribute]
  split
  next ht =>
    split
    next hmpls =>
      rw [safe_bind_pure_iff, safe_labelAt_iff]
      exact ⟨fun h => ⟨hother (.inl ht), fun _ _ => h, fun _ hne => absurd hmpls hne,
        fun ht' => absurd (ht.symm.trans ht') (by decide),
        fun ht' => absurd (ht.symm.trans ht') (by decide)⟩, fun h => h.label ht hmpls⟩
    next hmpls =>
      rw [safe_bind_pure_iff, parseIp, safe_ipAddressAt_iff]
      exact ⟨fun h => ⟨hother (.inl ht), fun _ heq => absurd heq hmpls, fun _ _ => h,
        fun ht' => absurd (ht.symm.trans ht') (by decide),
        fun ht' => absurd (ht.symm.trans ht') (by decide)⟩, fun h => h.dst ht hmpls⟩
  split
  next ht =>
    rw [safe_bind_pure_iff, u32At, safe_read_iff]
    refine ⟨fun h => ⟨hother (.inr (.inl ht)), ?_, ?_, fun _ => h, ?_⟩, fun h => h.priority ht⟩ <;>
      exact fun ht' => absurd (ht.symm.trans ht') (by decide)
  split
  next ht =>
    rw [safe_bind_pure_iff, hlist]
    refine ⟨fun h => ⟨hother (.inr (.inr ht)), ?_, ?_, ?_, fun _ => h⟩, fun h => h.multipath ht⟩ <;>
      exact fun ht' => absurd (ht.symm.trans ht') (by decide)
  next hdst hpriority hmultipath =>
    rw [safe_bind_pure_iff, hhop]
    exact ⟨fun h => ⟨h, fun ht => absurd ht hdst, fun ht => absurd ht hdst,
      fun ht => absurd ht hpriority, fun ht => absurd ht hmultipath⟩, fun h => h.toNextHopAttr⟩

/-- What is read of a route message: its header and its attributes. -/
structure RouteMessage (m : Memory) (bound nlmsg : ℕ) : Prop where
  header : nlmsg + 28 ≤ bound
  attrs : Rtattr.Inside m bound (RouteAttr m bound (m (nlmsg + 16))) (nlmsg + 28)
    (sub64 (u32 m nlmsg) 28)

private theorem safe_parseMessage_iff {nlmsg : ℕ} (hfuel : bound < 4 * fuel) :
    Safe m bound (parseMessage fuel nlmsg) ↔ RouteMessage m bound nlmsg := by
  rw [parseMessage]
  simp only [u8At, u16At, u32At, safe_read_bind_iff, safe_bind_pure_iff]
  rw [Rtattr.safe_walk_iff (by omega) (by omega) (safe_parseRouteAttribute_iff hfuel)]
  constructor
  · rintro ⟨-, -, -, -, -, -, -, -, hheader, hattrs⟩
    exact ⟨by omega, hattrs⟩
  · rintro ⟨hheader, hattrs⟩
    exact ⟨by omega, by omega, by omega, by omega, by omega, by omega, by omega, by omega, by omega,
      hattrs⟩

end NetlinkRouteMessage

section OtherMessages

variable {m : Memory} {bound fuel nlmsg : ℕ} {family : UInt8}

namespace NetlinkLinkMessage

/-- The name of a link ends below the bound and inside its attribute. -/
def LinkAttr (m : Memory) (bound : ℕ) (a : Rtattr) : Prop :=
  a.type = IFLA_IFNAME → ∃ stop, a.data ≤ stop ∧ stop < min bound a.stop ∧ m stop = 0

private theorem safe_parseLinkAttribute_iff (hfuel : bound ≤ fuel) (a : Rtattr) (link : Link) :
    Safe m (min bound a.stop) (parseLinkAttribute fuel a link) ↔ LinkAttr m bound a := by
  rw [parseLinkAttribute, LinkAttr]
  split
  next ht =>
    rw [safe_bind_pure_iff, safe_cstringAt_iff (by omega)]
    exact ⟨fun h _ => h, fun h => h ht⟩
  next ht => exact iff_of_true (safe_pure link) fun ht' => absurd ht' ht

/-- What is read of a link message: its header and its attributes. -/
structure LinkMessage (m : Memory) (bound nlmsg : ℕ) : Prop where
  header : nlmsg + 28 ≤ bound
  attrs : Rtattr.Inside m bound (LinkAttr m bound) (nlmsg + 32) (sub64 (u32 m nlmsg) 32)

private theorem safe_parseMessage_iff (hfuel : bound < fuel) :
    Safe m bound (parseMessage fuel nlmsg) ↔ LinkMessage m bound nlmsg := by
  rw [parseMessage]
  simp only [u32At, safe_read_bind_iff]
  rw [Rtattr.safe_walk_iff (by omega) (by omega) (safe_parseLinkAttribute_iff hfuel.le)]
  constructor
  · rintro ⟨-, -, hheader, hattrs⟩
    exact ⟨by omega, hattrs⟩
  · rintro ⟨hheader, hattrs⟩
    exact ⟨by omega, by omega, by omega, hattrs⟩

end NetlinkLinkMessage

namespace NetlinkAddrMessage

/-- An address ends below the bound and inside its attribute. -/
def AddrAttr (bound : ℕ) (family : UInt8) (a : Rtattr) : Prop :=
  a.type = IFA_ADDRESS → AddressInside (min bound a.stop) a.data family

private theorem safe_parseAddrAttribute_iff {len : UInt8} (a : Rtattr) (addr : IfAddress) :
    Safe m (min bound a.stop) (parseAddrAttribute family len a addr) ↔ AddrAttr bound family a := by
  rw [parseAddrAttribute, AddrAttr]
  split
  next ht =>
    rw [safe_bind_pure_iff, safe_ipAddressAt_iff]
    exact ⟨fun h _ => h, fun h => h ht⟩
  next ht => exact iff_of_true (safe_pure addr) fun ht' => absurd ht' ht

/-- What is read of an address message: its header and its attributes. -/
structure AddrMessage (m : Memory) (bound nlmsg : ℕ) : Prop where
  header : nlmsg + 24 ≤ bound
  attrs : Rtattr.Inside m bound (AddrAttr bound (m (nlmsg + 16))) (nlmsg + 24)
    (sub64 (u32 m nlmsg) 24)

private theorem safe_parseMessage_iff (hfuel : bound < fuel) :
    Safe m bound (parseMessage fuel nlmsg) ↔ AddrMessage m bound nlmsg := by
  rw [parseMessage]
  simp only [u8At, u16At, u32At, safe_read_bind_iff]
  rw [Rtattr.safe_walk_iff (by omega) (by omega) safe_parseAddrAttribute_iff]
  constructor
  · rintro ⟨-, -, -, -, -, hheader, hattrs⟩
    exact ⟨by omega, hattrs⟩
  · rintro ⟨hheader, hattrs⟩
    exact ⟨by omega, by omega, by omega, by omega, by omega, by omega, hattrs⟩

end NetlinkAddrMessage

namespace NetlinkNeighborMessage

/-- What is read of the two addresses of a neighbor ends below the bound and inside its
attribute. -/
structure NeighborAttr (bound : ℕ) (family : UInt8) (a : Rtattr) : Prop where
  dst : a.type = NDA_DST → AddressInside (min bound a.stop) a.data family
  lladdr : a.type = NDA_LLADDR → a.data + 6 ≤ min bound a.stop

private theorem safe_parseNeighborAttribute_iff (a : Rtattr) (neighbor : Neighbor) :
    Safe m (min bound a.stop) (parseNeighborAttribute family a neighbor) ↔
      NeighborAttr bound family a := by
  rw [parseNeighborAttribute]
  split
  next ht =>
    rw [safe_bind_pure_iff, safe_ipAddressAt_iff]
    exact ⟨fun h => ⟨fun _ => h, fun ht' => absurd (ht.symm.trans ht') (by decide)⟩,
      fun h => h.dst ht⟩
  split
  next ht =>
    rw [safe_bind_pure_iff, safe_bytesVectorAt_iff]
    exact ⟨fun h => ⟨fun ht' => absurd (ht.symm.trans ht') (by decide), fun _ => h⟩,
      fun h => h.lladdr ht⟩
  next hdst hlladdr =>
    exact iff_of_true (safe_pure neighbor)
      ⟨fun ht => absurd ht hdst, fun ht => absurd ht hlladdr⟩

/-- What is read of a neighbor message: its header and its attributes. -/
structure NeighborMessage (m : Memory) (bound nlmsg : ℕ) : Prop where
  header : nlmsg + 26 ≤ bound
  attrs : Rtattr.Inside m bound (NeighborAttr bound (m (nlmsg + 16))) (nlmsg + 28)
    (sub64 (u32 m nlmsg) 28)

private theorem safe_parseMessage_iff (hfuel : bound < fuel) :
    Safe m bound (parseMessage fuel nlmsg) ↔ NeighborMessage m bound nlmsg := by
  rw [parseMessage]
  simp only [u8At, u16At, u32At, safe_read_bind_iff]
  rw [Rtattr.safe_walk_iff (by omega) (by omega) safe_parseNeighborAttribute_iff]
  constructor
  · rintro ⟨-, -, -, -, hheader, hattrs⟩
    exact ⟨by omega, hattrs⟩
  · rintro ⟨hheader, hattrs⟩
    exact ⟨by omega, by omega, by omega, by omega, by omega, hattrs⟩

end NetlinkNeighborMessage

end OtherMessages

namespace NetlinkProtocolSocket

/-- What is read of a message by the parser of its type is below the bound. -/
structure ReadableMessage (m : Memory) (bound nlh : ℕ) : Prop where
  route : u16 m (nlh + 4) = RTM_NEWROUTE ∨ u16 m (nlh + 4) = RTM_DELROUTE →
    NetlinkRouteMessage.RouteMessage m bound nlh
  link : u16 m (nlh + 4) = RTM_DELLINK ∨ u16 m (nlh + 4) = RTM_NEWLINK →
    NetlinkLinkMessage.LinkMessage m bound nlh
  addr : u16 m (nlh + 4) = RTM_DELADDR ∨ u16 m (nlh + 4) = RTM_NEWADDR →
    NetlinkAddrMessage.AddrMessage m bound nlh
  neighbor : u16 m (nlh + 4) = RTM_DELNEIGH ∨ u16 m (nlh + 4) = RTM_NEWNEIGH →
    NetlinkNeighborMessage.NeighborMessage m bound nlh
  error : u16 m (nlh + 4) = NLMSG_ERROR → nlh + 36 ≤ bound

/-- A receive buffer of messages whose padding is inside and that can be read. It ends where
`NLMSG_OK` fails. -/
inductive ReadableMessages (m : Memory) (bound : ℕ) : ℕ → ℕ → Prop
  | nil {nlh len : ℕ} (hend : len < 16 ∨ u32 m nlh < 16 ∨ len < u32 m nlh) :
      ReadableMessages m bound nlh len
  | cons {nlh len : ℕ} (hmin : 16 ≤ u32 m nlh) (hpad : align4 (u32 m nlh) ≤ len)
      (hmessage : ReadableMessage m bound nlh)
      (hrest : ReadableMessages m bound (nlh + align4 (u32 m nlh)) (len - align4 (u32 m nlh))) :
      ReadableMessages m bound nlh len

variable {m : Memory} {pid : UInt32} {bound fuel nlh len : ℕ}

private theorem safe_parseAck_iff : Safe m bound (parseAck pid nlh) ↔ nlh + 36 ≤ bound := by
  rw [parseAck, u32At, safe_read_bind_iff]
  refine ⟨fun h => by omega, fun h => ⟨by omega, ?_⟩⟩
  split
  · exact safe_pure NlMessage.foreignAck
  · exact safe_read_bind (by omega) _ (safe_read_bind (by omega) _ (safe_pure _))

private theorem safe_parseNlMessage_iff (hbound : nlh + 16 ≤ bound) (hfuel : bound < fuel) :
    Safe m bound (parseNlMessage pid fuel nlh) ↔ ReadableMessage m bound nlh := by
  rw [parseNlMessage, u16At, safe_read_bind_iff, u32At, safe_read_bind_iff,
    and_iff_right (by omega), and_iff_right (by omega)]
  dsimp only
  split
  next ht =>
    rw [safe_bind_pure_iff, NetlinkRouteMessage.safe_parseMessage_iff (by omega)]
    refine ⟨fun h => ⟨fun _ => h, ?_, ?_, ?_, ?_⟩, fun h => h.route ht⟩ <;>
      rcases ht with ht | ht <;> rw [ht] <;> exact fun h => absurd h (by decide)
  split
  next ht =>
    rw [safe_bind_pure_iff, NetlinkLinkMessage.safe_parseMessage_iff hfuel]
    refine ⟨fun h => ⟨?_, fun _ => h, ?_, ?_, ?_⟩, fun h => h.link ht⟩ <;>
      rcases ht with ht | ht <;> rw [ht] <;> exact fun h => absurd h (by decide)
  split
  next ht =>
    rw [safe_bind_pure_iff, NetlinkAddrMessage.safe_parseMessage_iff hfuel]
    refine ⟨fun h => ⟨?_, ?_, fun _ => h, ?_, ?_⟩, fun h => h.addr ht⟩ <;>
      rcases ht with ht | ht <;> rw [ht] <;> exact fun h => absurd h (by decide)
  split
  next ht =>
    rw [safe_bind_pure_iff, NetlinkNeighborMessage.safe_parseMessage_iff hfuel]
    refine ⟨fun h => ⟨?_, ?_, ?_, fun _ => h, ?_⟩, fun h => h.neighbor ht⟩ <;>
      rcases ht with ht | ht <;> rw [ht] <;> exact fun h => absurd h (by decide)
  next hroute hlink haddr hneighbor =>
    have hother : ReadableMessage m bound nlh ↔
        (u16 m (nlh + 4) = NLMSG_ERROR → nlh + 36 ≤ bound) :=
      ⟨fun h => h.error, fun h => ⟨fun ht => absurd ht hroute, fun ht => absurd ht hlink,
        fun ht => absurd ht haddr, fun ht => absurd ht hneighbor, h⟩⟩
    rw [hother]
    split
    next ht => rw [safe_parseAck_iff, imp_iff_right ht]
    next ht =>
      refine iff_of_true ?_ fun ht' => absurd ht' ht
      split
      · exact safe_pure _
      split <;> exact safe_pure _

private theorem safe_messagesLoop_iff {loopFuel : ℕ} (hbound : nlh + len = bound)
    (hfuel : bound < fuel)
    (hloop : len < loopFuel) (hsize : bound < 2 ^ 31) :
    Safe m bound (messagesLoop pid fuel loopFuel nlh len) ↔
      ReadableMessages m bound nlh len := by
  induction loopFuel generalizing nlh len with
  | zero => omega
  | succ loopFuel ih =>
    rw [messagesLoop]
    split
    next hshort => exact iff_of_true (safe_pure []) (.nil (.inl hshort))
    next hshort =>
    rw [u32At, safe_read_bind_iff, and_iff_right (by omega)]
    split
    next hend => exact iff_of_true (safe_pure []) (.nil (.inr hend))
    next hend =>
    have hle := le_align4 (u32 m nlh)
    have hlt : align4 (u32 m nlh) < u32 m nlh + 4 := by
      simp only [align4]
      omega
    have halign : nlmsgAlign (u32 m nlh) = align4 (u32 m nlh) := Nat.mod_eq_of_lt (by omega)
    rw [halign]
    by_cases hpad : align4 (u32 m nlh) ≤ len
    · rw [sub32_of_le hpad (by omega), safe_bind_iff_and fun message => safe_bind_pure_iff.trans
        (ih (by omega) (by omega)), safe_parseNlMessage_iff (by omega) hfuel]
      refine ⟨fun h => .cons (by omega) hpad h.1 h.2, fun h => ?_⟩
      cases h with
      | nil h => omega
      | cons _ _ hmessage hrest => exact ⟨hmessage, hrest⟩
    · -- the count wraps around, and the next header is looked for behind the buffer
      have hwrap : ¬ Safe m bound (messagesLoop pid fuel loopFuel (nlh + align4 (u32 m nlh))
          (sub32 len (align4 (u32 m nlh)))) := by
        obtain ⟨loopFuel, rfl⟩ := Nat.exists_eq_succ_of_ne_zero (n := loopFuel) (by omega)
        have hlarge : ¬ sub32 len (align4 (u32 m nlh)) < 16 := by
          simp only [sub32]
          omega
        rw [messagesLoop, if_neg hlarge, u32At, safe_read_bind_iff]
        omega
      rw [safe_bind_iff_and fun message => safe_bind_pure_iff.trans (iff_false_intro hwrap)]
      refine iff_of_false (fun h => h.2) fun h => ?_
      cases h with
      | nil h => omega
      | cons _ h => exact hpad h

/-- `processMessage` and the parsers it calls return, read below `bytesRead`, and read no
attribute beyond its own length, exactly on buffers of messages that can be read. -/
theorem parseMessages_safe_iff {bytesRead : ℕ} (hsize : bytesRead ≤ kMaxNlPayloadSize)
    (hfuel : bytesRead < fuel) :
    Safe m bytesRead (parseMessages pid fuel bytesRead) ↔
      ReadableMessages m bytesRead 0 bytesRead := by
  have hmax : kMaxNlPayloadSize = 4096 := rfl
  exact safe_messagesLoop_iff (by omega) hfuel hfuel (by omega)

/-- A route to 10.0.0.0/8 with the given list of next hops, of `n` bytes. -/
def exampleMultipath (n : ℕ) (nextHops : List UInt8) : Memory := ofBytes <|
  [.ofNat (40 + n), 0, 0, 0, 24, 0, 2, 0, 1, 0, 0, 0, 0, 0, 0, 0] ++
  [2, 8, 0, 0, 254, 99, 0, 1, 0, 0, 0, 0] ++ [8, 0, 1, 0, 10, 0, 0, 0] ++
  [.ofNat (4 + n), 0, 9, 0] ++ nextHops

/-- The next hop 192.168.0.1 on interface 3. -/
def exampleNextHop : List UInt8 := [16, 0, 0, 0, 3, 0, 0, 0, 8, 0, 5, 0, 192, 168, 0, 1]

/-- With an entry of length zero after the last next hop the list can be read. -/
theorem terminated_multipath_safe :
    Safe (exampleMultipath 20 (exampleNextHop ++ [0, 0, 0, 0])) 60 (parseMessages 7 61 60) := by
  refine (parseMessages_safe_iff (by decide) (by decide)).mpr (.cons (by decide) (by decide)
    ⟨fun _ => ⟨by decide, ?_⟩, fun h => absurd h (by decide), fun h => absurd h (by decide),
      fun h => absurd h (by decide), by decide⟩ (.nil (by decide)))
  refine .cons (by decide) (by decide) ?_ (.cons (by decide) (by decide) ?_ (.short (by decide)))
  · exact ⟨⟨fun h => absurd h (by decide), by decide, by decide, fun h => absurd h (by decide),
      by decide⟩, fun _ h => absurd h (by decide), fun _ _ _ => by decide, by decide,
      fun h => absurd h (by decide)⟩
  · refine ⟨⟨fun h => absurd h (by decide), by decide, by decide, fun h => absurd h (by decide),
      by decide⟩, fun h => absurd h (by decide), fun h => absurd h (by decide), by decide,
      fun _ => .last ⟨by decide, ?_, by decide⟩ (by decide)⟩
    exact .cons (by decide) (by decide) ⟨fun _ _ => by decide, by decide, by decide,
      fun h => absurd h (by decide), by decide⟩ (.short (by decide))

/-- As the kernel sends the list, the length of a next hop is read behind the attribute and
behind the message. A message that is only a header is read as if the route header followed. -/
theorem multipath_read_beyond :
    (⟨56, 2, [56]⟩ : Access) ∈ (parseMessages 7 57 56).reads (exampleMultipath 16 exampleNextHop) ∧
      ⟨16, 1, []⟩ ∈ (parseMessages 7 17 16).reads (ofBytes [16, 0, 0, 0, 24, 0]) := by
  decide

end NetlinkProtocolSocket

end Fbmeshd
