import Fbmeshd.Rnl.AddressSync
import Fbmeshd.Rnl.AttributeList
import Fbmeshd.Rnl.EventParser
import Fbmeshd.Rnl.RouteRoundTrip

/-!
# Messages about addresses

`NetlinkAddrMessage::addOrDeleteIfAddress` writes an address into a message, and `parseMessage`
reads it back from the kernel's notification, which has the same format. What comes back is what
the kernel is taken to store for the request.
-/

namespace Fbmeshd

open Bytes Reader NetlinkMessage
open NetlinkRouteMessage (StartsWith)

/-- `IFA_LOCAL`. -/
def IFA_LOCAL : ℕ := 2

/-- The members of `rnl::IfAddress` that only a request uses. -/
structure IfAddressRequest extends IfAddress where
  flags : Option UInt8 := none
  family : Option UInt8 := none

namespace IfAddressRequest

/-- `getFamily`, which throws if there is neither a prefix nor a family. -/
def getFamily (ifAddr : IfAddressRequest) : Option UInt8 :=
  match ifAddr.addrPrefix with
  | some p => some p.1.family
  | none => ifAddr.family

end IfAddressRequest

namespace NetlinkAddrMessage

/-- The fields of `ifaddrmsg`: family, prefix length, flags, scope and index. -/
def addrFields (ifAddr : IfAddressRequest) (p : CIDRNetwork) : List UInt8 :=
  [p.1.family, p.2, ifAddr.flags.getD 0, ifAddr.scope.getD 0] ++ le32 ifAddr.ifIndex.toNat

/-- `addOrDeleteIfAddress`, with the message it leaves behind and `none` for an exception. A scope
that is not given stays zero. -/
def addOrDeleteIfAddress (ifAddr : IfAddressRequest) (type : ℕ) : Option (ResultCode × Buffer) :=
  if type ≠ RTM_NEWADDR ∧ type ≠ RTM_DELADDR then some (.FAIL, [])
  else
    ifAddr.getFamily.map fun family =>
      if family ≠ AF_INET ∧ family ≠ AF_INET6 then (.INVALID_ADDRESS_FAMILY, [])
      else
        match ifAddr.addrPrefix with
        | none => (.NO_IP, [])
        | some p =>
          let msg := (init [] type).write 16 (addrFields ifAddr p)
          match addAttributes ⟨IFA_ADDRESS, p.1.bytes⟩ msg with
          | (.SUCCESS, msg) => addAttributes ⟨IFA_LOCAL, p.1.bytes⟩ msg
          | failed => failed

variable {m : Memory} {b : Buffer} {fuel : ℕ} {ifAddr : IfAddressRequest} {p : CIDRNetwork}
  {type : ℕ}

/-- An attribute leaves the header of the message alone, but for the length. -/
theorem header_of_addAttributes {msg msg' : Buffer} {first : ℕ} {attrs : List (ℕ × List UInt8)}
    {attr : Attribute} (h : HasAttributes msg first attrs) (hdata : attr.data.length < 2 ^ 31)
    (hok : addAttributes attr msg = (.SUCCESS, msg')) {i : ℕ} (hi : 4 ≤ i) (hfirst : i < first) :
    ofBytes msg' i = ofBytes msg i := by
  have hlen := h.len
  rw [h.addAttributes_eq hdata] at hok
  split at hok
  · simp at hok
  · obtain rfl := (Prod.mk.inj hok).2
    rw [Buffer.ofBytes_write, Buffer.ofBytes_write,
      write_of_outside (.inr (by rw [length_le32]; omega)), write_of_outside (.inl (by omega))]

/-- There is room for an address. -/
theorem exists_addAttributes {msg : Buffer} {attrs : List (ℕ × List UInt8)} (attr : Attribute)
    (h : HasAttributes msg 24 attrs) (hattrs : (Rtattr.encodeAll attrs).length ≤ 20)
    (hdata : attr.data.length ≤ 16) : ∃ msg', addAttributes attr msg = (.SUCCESS, msg') := by
  have hmax : kMaxNlPayloadSize = 4096 := rfl
  have hlen := h.len
  rw [h.addAttributes_eq (by omega), if_neg]
  · exact ⟨_, rfl⟩
  · simp only [align4]
    omega

/-- The attributes of a message about an address. -/
def addrAttrs (ip : IPAddress) : List (ℕ × List UInt8) :=
  [(IFA_ADDRESS, ip.bytes), (IFA_LOCAL, ip.bytes)]

/-- The message of a request: its header, its fields and the address twice. -/
structure Describes (b : Buffer) (ifAddr : IfAddressRequest) (p : CIDRNetwork) (type : ℕ) :
    Prop where
  attributes : HasAttributes b 24 (addrAttrs p.1)
  type : Holds (ofBytes b) 4 (le16 type)
  fields : Holds (ofBytes b) 16 (addrFields ifAddr p)

private theorem exists_describes (htype : type = RTM_NEWADDR ∨ type = RTM_DELADDR)
    (hp : ifAddr.addrPrefix = some p) (hne : p.1 ≠ .empty) :
    ∃ b, addOrDeleteIfAddress ifAddr type = some (.SUCCESS, b) ∧ Describes b ifAddr p type := by
  have hfamily : ¬ (p.1.family ≠ AF_INET ∧ p.1.family ≠ AF_INET6) := by
    cases hip : p.1 <;> simp_all [IPAddress.family]
  have hbytes := p.1.length_bytes_le
  have hbegun : Begun (init [] type) 24 := .addr [] (by omega)
  have hinit : Initialized ((init [] type).write 16 (addrFields ifAddr p)) 24 := by
    obtain ⟨hlen, hdvd, hheader, hfits⟩ := hbegun.initialized
    exact ⟨(u32_write_of_le _ (by decide) _).trans hlen, hdvd, hheader, hfits⟩
  obtain ⟨msg₁, hmsg₁⟩ := exists_addAttributes ⟨IFA_ADDRESS, p.1.bytes⟩
    hinit.hasAttributes (by simp) hbytes
  have h₁ := hinit.hasAttributes.addAttributes (by simp; omega) hmsg₁
  obtain ⟨msg₂, hmsg₂⟩ := exists_addAttributes ⟨IFA_LOCAL, p.1.bytes⟩ h₁
    (by simp [Attribute.stored, align4]; omega) hbytes
  have h₂ := h₁.addAttributes (by simp; omega) hmsg₂
  have hsame : ∀ i, 4 ≤ i → i < 24 →
      ofBytes msg₂ i = ofBytes ((init [] type).write 16 (addrFields ifAddr p)) i := by
    intro i hi hlt
    rw [header_of_addAttributes h₁ (by simp; omega) hmsg₂ hi hlt,
      header_of_addAttributes hinit.hasAttributes (by simp; omega) hmsg₁ hi hlt]
  refine ⟨msg₂, ?_, h₂, ?_, ?_⟩
  · rw [addOrDeleteIfAddress, if_neg (by omega)]
    simp only [IfAddressRequest.getFamily, hp, Option.map_some, if_neg hfamily, hmsg₁, hmsg₂]
  · have hheader : Holds (ofBytes (init [] type)) 4 (le16 type) := by
      rw [init, if_neg (by omega)]
      dsimp only
      rw [Buffer.ofBytes_write]
      exact (holds_append.mp (holds_append.mp (holds_write _ _ _)).2).1
    refine hheader.congr fun i hi hlt => ?_
    rw [length_le16] at hlt
    rw [hsame i hi (by omega), Buffer.ofBytes_write, write_of_outside (.inl (by omega))]
  · have hfields : Holds (ofBytes ((init [] type).write 16 (addrFields ifAddr p))) 16
        (addrFields ifAddr p) := by
      rw [Buffer.ofBytes_write]
      exact holds_write _ _ _
    refine hfields.congr fun i hi hlt => hsame i (by omega) ?_
    simpa [addrFields] using hlt

/-- What a notification about the address of a request says: the prefix as it is sent, and
`RT_SCOPE_UNIVERSE` for a scope that is not given. -/
def announced (ifAddr : IfAddressRequest) (p : CIDRNetwork) (type : ℕ) : IfAddress where
  addrPrefix := some (sentPrefix p)
  ifIndex := ifAddr.ifIndex
  isValid := type = RTM_NEWADDR
  scope := some (ifAddr.scope.getD RT_SCOPE_UNIVERSE)

private theorem parses_address {ip : IPAddress} (hne : ip ≠ .empty) (prefixLen : UInt8) :
    Rtattr.Parses (parseAddrAttribute ip.family prefixLen) m (IFA_ADDRESS, ip.bytes)
      fun addr => { addr with addrPrefix := some (ip.unscoped, prefixLen) } := by
  intro a addr htype _ hvalue
  rw [parseAddrAttribute, if_pos htype, eval_bind_of_ok (eval_ipAddressAt hvalue hne rfl)]
  rfl

private theorem parses_local {value : List UInt8} (family prefixLen : UInt8) :
    Rtattr.Parses (parseAddrAttribute family prefixLen) m (IFA_LOCAL, value) id := by
  intro a addr htype _ _
  have hne : a.type ≠ IFA_ADDRESS := by
    rw [htype]
    exact (by decide : IFA_LOCAL ≠ IFA_ADDRESS)
  rw [parseAddrAttribute, if_neg hne]
  rfl

private theorem u32_of_startsWith (hm : StartsWith m b) (hlen : 4 ≤ b.u32 0) :
    u32 m 0 = b.u32 0 := by
  simp only [Buffer.u32, u32, u16, Nat.zero_add, Nat.reduceAdd, hm 0 (by omega), hm 1 (by omega),
    hm 2 (by omega), hm 3 (by omega)]

private theorem Describes.eval_parseMessage (h : Describes b ifAddr p type) (htype : type < 2 ^ 16)
    (hne : p.1 ≠ .empty) (hm : StartsWith m b) (hfuel : 2 < fuel) :
    (parseMessage fuel 0).eval m = .ok (announced ifAddr p type) := by
  have hmax : kMaxNlPayloadSize = 4096 := rfl
  have hattrs := h.attributes
  have hlen := hattrs.len
  have hfits := hattrs.fits
  have hsame {o : ℕ} {bs : List UInt8} (hholds : Holds (ofBytes b) o bs)
      (hend : o + bs.length ≤ 24) : Holds m o bs :=
    hholds.congr fun i _ hi => hm i (by omega)
  have hu32 : u32 m 0 = 24 + (Rtattr.encodeAll (addrAttrs p.1)).length :=
    (u32_of_startsWith hm (by omega)).trans hlen
  have hu16 : u16 m 4 = type := (hsame h.type (by simp)).u16 htype
  obtain ⟨⟨hfamily, hprefixLen, -, hscope, -⟩, hindex⟩ :=
    holds_append.mp (hsame h.fields (by simp))
  have hstored : Rtattr.Stored m 24 (addrAttrs p.1) :=
    hattrs.stored.congr fun i _ hi => hm i (by omega)
  have heffects : List.Forall₂
      (Rtattr.Parses (parseAddrAttribute p.1.family p.2) m) (addrAttrs p.1)
      [fun addr => { addr with addrPrefix := some (p.1.unscoped, p.2) }, id] :=
    .cons (parses_address hne p.2) (.cons (parses_local _ _) .nil)
  have hwalk := hstored.eval_walk_effects (Rtattr.fits_of_length hattrs.types (by omega))
    (by omega) hfuel heffects
  have hlen64 : sub64 (24 + (Rtattr.encodeAll (addrAttrs p.1)).length) 24 =
      (Rtattr.encodeAll (addrAttrs p.1)).length := by
    rw [sub64_of_le (Nat.le_add_right 24 _) (by omega), Nat.add_sub_cancel_left]
  rw [parseMessage, eval_bind_of_ok (Reader.eval_u32At _), eval_bind_of_ok (eval_u16At _),
    eval_bind_of_ok (eval_u8At _), eval_bind_of_ok (eval_u8At _), eval_bind_of_ok (eval_u8At _),
    eval_bind_of_ok (show (u32At (0 + 20)).eval m = _ from eval_u32At hindex)]
  simp only [Nat.zero_add, hu32, hu16, hfamily, hprefixLen, hscope, hlen64, UInt32.ofNat_toNat,
    hwalk]
  rfl

/-- The request of a message of a type. -/
def request (type : ℕ) (addr : IfAddress) : AddressRequest :=
  if type = RTM_NEWADDR then .add addr else .delete addr

private theorem sentPrefix_sentPrefix (p : CIDRNetwork) :
    sentPrefix (sentPrefix p) = sentPrefix p := by
  obtain ⟨ip, prefixLen⟩ := p
  cases ip <;> rfl

/-- The kernel takes what a message says for the request it was made from. -/
theorem accept_announced (hp : ifAddr.addrPrefix = some p) (t : AddressTable) :
    t.accept (request type (announced ifAddr p type)) =
      t.accept (request type ifAddr.toIfAddress) := by
  by_cases hnew : type = RTM_NEWADDR
  · simp [request, hnew, AddressTable.accept, announced, hp, sentPrefix_sentPrefix]
  · simp [request, hnew, AddressTable.accept, announced, hp, sentPrefix_sentPrefix]

/-- A request has the status that is expected for its prefix. If it succeeds, then the message
reads as an address which means the same to the kernel. -/
theorem addOrDeleteIfAddress_round_trip (htype : type = RTM_NEWADDR ∨ type = RTM_DELADDR)
    (hp : ifAddr.addrPrefix = some p) :
    ∃ b, addOrDeleteIfAddress ifAddr type = some (encodeIfAddress ifAddr.toIfAddress, b) ∧
      (encodeIfAddress ifAddr.toIfAddress = .SUCCESS → ∃ addr,
        (∀ m, StartsWith m b → ∀ fuel > 2, (parseMessage fuel 0).eval m = .ok addr) ∧
        ∀ t : AddressTable, t.accept (request type addr) =
          t.accept (request type ifAddr.toIfAddress)) := by
  have htype16 : type < 2 ^ 16 := by
    rcases htype with rfl | rfl <;> decide
  by_cases hne : p.1 = .empty
  · have hfamily : p.1.family ≠ AF_INET ∧ p.1.family ≠ AF_INET6 := by
      rw [hne]
      decide
    have hstatus : encodeIfAddress ifAddr.toIfAddress = .INVALID_ADDRESS_FAMILY := by
      simp [encodeIfAddress, hp, hfamily]
    refine ⟨[], ?_, fun hsuccess => by simp [hstatus] at hsuccess⟩
    rw [addOrDeleteIfAddress, if_neg (by omega), hstatus]
    simp [IfAddressRequest.getFamily, hp, hfamily]
  · have hstatus : encodeIfAddress ifAddr.toIfAddress = .SUCCESS := by
      cases hip : p.1 <;> simp_all [encodeIfAddress, IPAddress.family]
    obtain ⟨b, hb, hdescribes⟩ := exists_describes htype hp hne
    refine ⟨b, hstatus ▸ hb, fun _ => ⟨announced ifAddr p type, ?_, accept_announced hp⟩⟩
    intro m hm fuel hfuel
    exact hdescribes.eval_parseMessage htype16 hne hm hfuel

/-- A request to add `10.77.3.1/24`. -/
def addSampleAddress : IfAddressRequest where
  addrPrefix := some (.v4 ⟨[10, 77, 3, 1], rfl⟩, 24)
  ifIndex := 3

/-- The message that adds 10.77.3.1/24. -/
theorem addOrDeleteIfAddress_round_trip_sample : ∃ b addr,
    addOrDeleteIfAddress addSampleAddress RTM_NEWADDR = some (.SUCCESS, b) ∧
      (parseMessage 3 0).eval (ofBytes b) = .ok addr ∧
      ∀ t : AddressTable, t.accept (request RTM_NEWADDR addr) =
        t.accept (request RTM_NEWADDR addSampleAddress.toIfAddress) := by
  obtain ⟨b, hb, hsuccess⟩ := addOrDeleteIfAddress_round_trip (.inl rfl)
    (show addSampleAddress.addrPrefix = some (.v4 ⟨[10, 77, 3, 1], rfl⟩, 24) from rfl)
  obtain ⟨addr, hparse, haccept⟩ := hsuccess (by decide)
  exact ⟨b, addr, hb, hparse (ofBytes b) (fun _ _ => rfl) 3 (by decide), haccept⟩

end NetlinkAddrMessage

end Fbmeshd
