import Fbmeshd.Rnl.Types
import Fbmeshd.Routing.Admission

/-!
# Datagrams of the routing protocol

A datagram reaches the node through `UDPRoutingPacketTransport::onDataAvailable`, which takes the
station from the address of the sender, and `Routing::receivePacket`, which reads the type of the
frame and decodes it. The first is `noexcept`, so every exception on the way ends the process.
-/

namespace Fbmeshd

namespace IPAddress

/-- `getMacAddressFromEUI64` of an IPv6 address. -/
def getMacAddressFromEUI64 (b : List.Vector UInt8 16) : Option MacAddress :=
  let byte (i : ℕ) : UInt8 := b.toList.getD i 0
  if byte 11 = 0xff ∧ byte 12 = 0xfe then
    some ((byte 8 ^^^ 0x02).toBitVec ++ (byte 9).toBitVec ++ (byte 10).toBitVec ++
      (byte 13).toBitVec ++ (byte 14).toBitVec ++ (byte 15).toBitVec)
  else none

/-- `asV6().getMacAddressFromLinkLocal()`. The outer option is empty where `asV6` throws. -/
def getMacAddressFromLinkLocal : IPAddress → Option (Option MacAddress)
  | .v6 b scopeId =>
    some (if (IPAddress.v6 b scopeId).isLinkLocal = some true then getMacAddressFromEUI64 b
      else none)
  | _ => none

/-- The IPv6 address of a station in a network of eight bytes, in the modified EUI-64 format. -/
def eui64 (net : List.Vector UInt8 8) (mac : MacAddress) : List.Vector UInt8 16 :=
  let byte (i : ℕ) : UInt8 := .ofBitVec (mac.extractLsb' (8 * (5 - i)) 8)
  ⟨net.toList ++ [byte 0 ^^^ 0x02, byte 1, byte 2, 0xff, 0xfe, byte 3, byte 4, byte 5], by
    rw [List.length_append, net.toList_length]; rfl⟩

/-- The bytes of `IPAddressV6{LINK_LOCAL, mac}`, the address `sendPacket` sends to. -/
def linkLocal (mac : MacAddress) : List.Vector UInt8 16 :=
  eui64 ⟨[0xfe, 0x80, 0, 0, 0, 0, 0, 0], rfl⟩ mac

/-- An address in the modified EUI-64 format shows the station. -/
theorem getMacAddressFromEUI64_eui64 (net : List.Vector UInt8 8) (mac : MacAddress) :
    getMacAddressFromEUI64 (eui64 net mac) = some mac := by
  have hflip (x : BitVec 8) : (UInt8.ofBitVec x ^^^ 0x02 ^^^ 0x02).toBitVec = x := by
    rw [UInt8.xor_assoc, UInt8.xor_self, UInt8.xor_zero]
  have hmac : mac.extractLsb' 40 8 ++ mac.extractLsb' 32 8 ++ mac.extractLsb' 24 8 ++
      mac.extractLsb' 16 8 ++ mac.extractLsb' 8 8 ++ mac.extractLsb' 0 8 = mac := by
    iterate 5 rw [BitVec.extractLsb'_append_extractLsb'_eq_extractLsb' (by decide)]
    exact BitVec.extractLsb'_eq_self
  match net with
  | ⟨[_, _, _, _, _, _, _, _], hlen⟩ =>
    rw [getMacAddressFromEUI64, if_pos ⟨rfl, rfl⟩]
    refine congrArg some (Eq.trans ?_ hmac)
    rw [← hflip (mac.extractLsb' 40 8)]
    rfl

/-- So the network and the station can be told from the address. -/
theorem eui64_inj {net net' : List.Vector UInt8 8} {mac mac' : MacAddress}
    (h : eui64 net mac = eui64 net' mac') : net = net' ∧ mac = mac' := by
  constructor
  · have htake := congrArg (fun b : List.Vector UInt8 16 => b.toList.take 8) h
    refine List.Vector.toList_injective ?_
    simpa [eui64, List.Vector.toList] using htake
  · have hmac := congrArg getMacAddressFromEUI64 h
    rw [getMacAddressFromEUI64_eui64, getMacAddressFromEUI64_eui64] at hmac
    exact Option.some.inj hmac

/-- A sender is known by its link-local address. -/
theorem getMacAddressFromLinkLocal_linkLocal (mac : MacAddress) (scopeId : UInt16) :
    (IPAddress.v6 (linkLocal mac) scopeId).getMacAddressFromLinkLocal = some (some mac) := by
  have hlocal : (IPAddress.v6 (linkLocal mac) scopeId).isLinkLocal = some true := by
    have hsecond : (0x80 : UInt8) &&& 0xc0 = 0x80 := by decide
    simp [isLinkLocal, linkLocal, eui64, List.Vector.toList, List.Vector.head, List.Vector.get,
      hsecond]
  unfold getMacAddressFromLinkLocal
  dsimp only
  rw [if_pos hlocal]
  exact congrArg some (getMacAddressFromEUI64_eui64 _ mac)

/-- The station of a sender is known exactly for the link-local addresses of the modified EUI-64
format. -/
theorem getMacAddressFromLinkLocal_eq_some_iff {client : IPAddress} {sa : MacAddress} :
    client.getMacAddressFromLinkLocal = some (some sa) ↔
      ∃ b scopeId, client = .v6 b scopeId ∧ client.isLinkLocal = some true ∧
        getMacAddressFromEUI64 b = some sa := by
  cases client with
  | empty => simp [getMacAddressFromLinkLocal]
  | v4 b => simp [getMacAddressFromLinkLocal]
  | v6 b scopeId =>
    by_cases hlocal : (IPAddress.v6 b scopeId).isLinkLocal = some true
    · simp [getMacAddressFromLinkLocal, hlocal]
    · simp [getMacAddressFromLinkLocal, hlocal]

end IPAddress

/-- How the handling of a datagram ends: it returns, an exception leaves a function that is
`noexcept`, or memory behind the datagram is read. -/
inductive Handled (α : Type*) where
  | returned (result : α)
  | terminated
  | outOfBounds
  deriving DecidableEq

namespace Routing

/-- `MeshPathFrameType::PANN`. -/
def PANN : UInt8 := 0

section Receive

-- The thrift decoder, which throws on malformed input.
variable (deserialize : List UInt8 → Option MeshPathFramePANN)

/-- `receivePacket`. -/
def receivePacket (stas : LinkMetrics) (clk : PannClock) (sa : MacAddress) (data : List UInt8)
    (r : Routing) : Handled (Routing × List Transmission) :=
  match data with
  | [] => .outOfBounds
  | action :: data =>
    if action = PANN then
      match deserialize data with
      | some pann => .returned (r.hwmpPannFrameProcess stas clk sa pann)
      | none => .terminated
    else .returned (r, [])

/-- `onDataAvailable`, with or without a callback, which is `receivePacket`. -/
def onDataAvailable (callback : Bool) (stas : LinkMetrics) (clk : PannClock) (client : IPAddress)
    (data : List UInt8) (r : Routing) : Handled (Routing × List Transmission) :=
  if callback then
    match client.getMacAddressFromLinkLocal with
    | some (some sa) => r.receivePacket deserialize stas clk sa data
    | _ => .terminated
  else .returned (r, [])

end Receive

variable {deserialize : List UInt8 → Option MeshPathFramePANN} {stas : LinkMetrics}
  {clk : PannClock} {sa : MacAddress} {data : List UInt8} {r : Routing}

/-- A packet is handled if it has a type, and if a path announcement can be decoded. -/
theorem receivePacket_eq_returned_iff {result : Routing × List Transmission} :
    r.receivePacket deserialize stas clk sa data = .returned result ↔
      ∃ action rest, data = action :: rest ∧
        ((action ≠ PANN ∧ result = (r, [])) ∨
          (action = PANN ∧ ∃ pann, deserialize rest = some pann ∧
            result = r.hwmpPannFrameProcess stas clk sa pann)) := by
  cases data with
  | nil => simp [receivePacket]
  | cons action rest =>
    by_cases haction : action = PANN
    · cases hpann : deserialize rest with
      | none => simp [receivePacket, haction, hpann]
      | some pann => simp [receivePacket, haction, hpann, eq_comm]
    · simp [receivePacket, haction, eq_comm]

/-- A datagram is handled, and then processed or ignored, exactly if there is no callback, or if
the sender has a link-local address made from a station's address and the datagram is not empty
and is no path announcement that cannot be decoded. -/
theorem datagram_handled_iff {callback : Bool} {client : IPAddress}
    {result : Routing × List Transmission} :
    r.onDataAvailable deserialize callback stas clk client data = .returned result ↔
      (callback = false ∧ result = (r, [])) ∨
        ∃ b scopeId sa action rest, callback = true ∧ client = .v6 b scopeId ∧
          client.isLinkLocal = some true ∧ IPAddress.getMacAddressFromEUI64 b = some sa ∧
          data = action :: rest ∧
          ((action ≠ PANN ∧ result = (r, [])) ∨
            (action = PANN ∧ ∃ pann, deserialize rest = some pann ∧
              result = r.hwmpPannFrameProcess stas clk sa pann)) := by
  cases callback with
  | false => simp [onDataAvailable, eq_comm]
  | true =>
    have hknown : r.onDataAvailable deserialize true stas clk client data = .returned result ↔
        ∃ sa, client.getMacAddressFromLinkLocal = some (some sa) ∧
          r.receivePacket deserialize stas clk sa data = .returned result := by
      unfold onDataAvailable
      rw [if_pos rfl]
      split
      next sa hsa => simp [hsa]
      next hunknown =>
        simp only [reduceCtorEq, false_iff, not_exists, not_and]
        exact fun sa hsa => absurd hsa (hunknown sa)
    rw [hknown, or_iff_right (by simp)]
    constructor
    · rintro ⟨sa, hsa, hpacket⟩
      obtain ⟨b, scopeId, hclient, hlocal, heui⟩ :=
        IPAddress.getMacAddressFromLinkLocal_eq_some_iff.mp hsa
      obtain ⟨action, rest, hdata, hresult⟩ := receivePacket_eq_returned_iff.mp hpacket
      exact ⟨b, scopeId, sa, action, rest, rfl, hclient, hlocal, heui, hdata, hresult⟩
    · rintro ⟨b, scopeId, sa, action, rest, -, hclient, hlocal, heui, hdata, hresult⟩
      exact ⟨sa, IPAddress.getMacAddressFromLinkLocal_eq_some_iff.mpr
          ⟨b, scopeId, hclient, hlocal, heui⟩,
        receivePacket_eq_returned_iff.mpr ⟨action, rest, hdata, hresult⟩⟩

/-- A decoder that knows one frame of one byte. -/
def oneFrame : List UInt8 → Option MeshPathFramePANN
  | [1] => some (gateAnnouncement 10 1 3)
  | _ => none

/-- The announcement from station 3 is processed. -/
theorem announcement_from_station_handled :
    sampleNode.onDataAvailable oneFrame true throughStation3 (clockAt 4 5)
        (.v6 (IPAddress.linkLocal 3) 0) [0, 1] =
      .returned (sampleNode.hwmpPannFrameProcess throughStation3 (clockAt 4 5) 3
        (gateAnnouncement 10 1 3)) := by
  obtain ⟨b, scopeId, hclient, hlocal, heui⟩ := IPAddress.getMacAddressFromLinkLocal_eq_some_iff.mp
    (IPAddress.getMacAddressFromLinkLocal_linkLocal 3 0)
  exact datagram_handled_iff.mpr (.inr ⟨b, scopeId, 3, 0, [1], rfl, hclient, hlocal, heui, rfl,
    .inr ⟨rfl, _, rfl, rfl⟩⟩)

/-- The address 2001:db8::1. -/
def globalAddress : IPAddress :=
  .v6 ⟨[0x20, 0x01, 0x0d, 0xb8, 0, 0, 0, 0, 0, 0, 0, 0, 0, 0, 0, 1], rfl⟩ 0

/-- The address ::ffff:192.0.2.1. -/
def mappedAddress : IPAddress :=
  .v6 ⟨[0, 0, 0, 0, 0, 0, 0, 0, 0, 0, 0xff, 0xff, 192, 0, 2, 1], rfl⟩ 0

/-- Any datagram from an address that is not link-local, a truncated announcement and an empty
datagram from a neighbor are not handled. -/
theorem datagrams_not_handled :
    (∀ data, sampleNode.onDataAvailable oneFrame true throughStation3 (clockAt 4 5) globalAddress
      data = .terminated) ∧
    (∀ data, sampleNode.onDataAvailable oneFrame true throughStation3 (clockAt 4 5) mappedAddress
      data = .terminated) ∧
    sampleNode.onDataAvailable oneFrame true throughStation3 (clockAt 4 5)
      (.v6 (IPAddress.linkLocal 3) 0) [0] = .terminated ∧
    sampleNode.onDataAvailable oneFrame true throughStation3 (clockAt 4 5)
      (.v6 (IPAddress.linkLocal 3) 0) [] = .outOfBounds :=
  ⟨fun _ => rfl, fun _ => rfl, by simp [onDataAvailable, receivePacket, oneFrame, PANN,
      IPAddress.getMacAddressFromLinkLocal_linkLocal],
    by simp [onDataAvailable, receivePacket, IPAddress.getMacAddressFromLinkLocal_linkLocal]⟩

end Routing

end Fbmeshd
