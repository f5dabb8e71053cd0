import Fbmeshd.Rnl.RouteMessage
import Mathlib.Data.Int.Notation

/-!
# The attributes of a message

`NetlinkMessage::addAttributes` appends attributes to any kind of netlink message. A message is
read back by a walk that starts behind its header.
-/

namespace Fbmeshd

open Bytes

/-- The constructor `NetlinkMessage(type)`, on a buffer that is zero. -/
def NetlinkMessage.create (type : ℕ) : Buffer := Buffer.write [] 0 (le32 16 ++ le16 type)

/-- `NetlinkLinkMessage::init`. -/
def NetlinkLinkMessage.init (msg : Buffer) (type : ℕ) (linkFlags : UInt32) : Buffer :=
  if type ≠ RTM_NEWLINK ∧ type ≠ RTM_DELLINK ∧ type ≠ RTM_GETLINK then msg
  else
    let flags := NLM_F_REQUEST ||| NLM_F_ACK
    let flags := if type = RTM_GETLINK then flags ||| NLM_F_DUMP else flags
    let msg := msg.write 0 (le32 32 ++ (le16 type ++ le16 flags))
    -- ifi_flags and ifi_change
    msg.write 24 (le32 linkFlags.toNat ++ le32 0xffffffff)

/-- `NetlinkAddrMessage::init`. -/
def NetlinkAddrMessage.init (msg : Buffer) (type : ℕ) : Buffer :=
  if type ≠ RTM_NEWADDR ∧ type ≠ RTM_DELADDR ∧ type ≠ RTM_GETADDR then msg
  else
    let flags := NLM_F_REQUEST ||| NLM_F_ACK
    let flags := if type = RTM_GETADDR then flags ||| NLM_F_DUMP else flags
    let flags := if type = RTM_NEWADDR then flags ||| NLM_F_CREATE else flags
    msg.write 0 (le32 24 ++ (le16 type ++ le16 flags))

/-- `NetlinkNeighborMessage::init`. -/
def NetlinkNeighborMessage.init (msg : Buffer) (type : ℕ) (neighFlags : UInt32) : Buffer :=
  if type ≠ RTM_NEWNEIGH ∧ type ≠ RTM_DELNEIGH ∧ type ≠ RTM_GETNEIGH then msg
  else
    let flags := NLM_F_REQUEST ||| NLM_F_ACK
    let flags := if type = RTM_GETNEIGH then flags ||| NLM_F_DUMP else flags
    let msg := msg.write 0 (le32 28 ++ (le16 type ++ le16 flags))
    -- ndm_flags has 8 bits
    msg.write 26 [.ofNat neighFlags.toNat]

namespace NetlinkMessage

/-- `NLMSG_ALIGN` and `RTA_ALIGN` of a `uint32_t`. -/
def align32 (n : ℕ) : ℕ := (n + 3) % 2 ^ 32 / 4 * 4

/-- An attribute as it is given to `addAttributes`, which takes the type as an `int`. -/
structure Attribute where
  type : ℤ
  data : List UInt8
  deriving DecidableEq

/-- `addAttributes`, with the message it leaves behind. -/
def addAttributes (attr : Attribute) (msg : Buffer) : ResultCode × Buffer :=
  let rtaLen := (4 + attr.data.length) % 2 ^ 32
  let nlmsgAlen := align32 (msg.u32 0)
  if (nlmsgAlen + align32 rtaLen) % 2 ^ 32 > kMaxNlPayloadSize then (.NO_MESSAGE_BUFFER, msg)
  else
    -- rta_type has 16 bits
    let msg := msg.write nlmsgAlen (le16 rtaLen ++ le16 (attr.type % 2 ^ 16).toNat ++ attr.data)
    (.SUCCESS, msg.write 0 (le32 ((nlmsgAlen + align32 rtaLen) % 2 ^ 32)))

/-- The message after some calls, and the attributes of those that succeeded. -/
def addAll : List Attribute → Buffer → Buffer × List Attribute
  | [], msg => (msg, [])
  | attr :: attrs, msg =>
    match addAttributes attr msg with
    | (.SUCCESS, msg) =>
      let rest := addAll attrs msg
      (rest.1, attr :: rest.2)
    | (_, msg) => addAll attrs msg

/-- The attributes of a message, walked from the first one. The count of the bytes is that of
`RTM_PAYLOAD` and its relatives. -/
def walkAttributes (fuel first : ℕ) (msg : Buffer) : Except Abort (List (ℕ × List UInt8)) :=
  (Rtattr.walk Rtattr.collect fuel first (msg.u32 0 - first) []).eval (ofBytes msg)

/-- A message that consists of a header, which ends where the first attribute goes. -/
structure Initialized (msg : Buffer) (first : ℕ) : Prop where
  len : msg.u32 0 = first
  dvd : 4 ∣ first
  header : 16 ≤ first
  fits : first ≤ kMaxNlPayloadSize

/-- The messages that the constructor with a type and the `init` functions begin, with the
place of the first attribute. -/
inductive Begun : Buffer → ℕ → Prop
  | plain (type : ℕ) : Begun (create type) 16
  | route (msg : Buffer) {type : ℕ} (rtFlags : UInt32) (route : Route)
      (htype : type = RTM_NEWROUTE ∨ type = RTM_DELROUTE ∨ type = RTM_GETROUTE) :
      Begun (NetlinkRouteMessage.init msg type rtFlags route) 28
  | link (msg : Buffer) {type : ℕ} (linkFlags : UInt32)
      (htype : type = RTM_NEWLINK ∨ type = RTM_DELLINK ∨ type = RTM_GETLINK) :
      Begun (NetlinkLinkMessage.init msg type linkFlags) 32
  | addr (msg : Buffer) {type : ℕ}
      (htype : type = RTM_NEWADDR ∨ type = RTM_DELADDR ∨ type = RTM_GETADDR) :
      Begun (NetlinkAddrMessage.init msg type) 24
  | neighbor (msg : Buffer) {type : ℕ} (neighFlags : UInt32)
      (htype : type = RTM_NEWNEIGH ∨ type = RTM_DELNEIGH ∨ type = RTM_GETNEIGH) :
      Begun (NetlinkNeighborMessage.init msg type neighFlags) 28

private theorem u32_write_zero (msg : Buffer) {len : ℕ} (hlen : len < 2 ^ 32) (bs : List UInt8) :
    (msg.write 0 (le32 len ++ bs)).u32 0 = len := by
  rw [Buffer.u32, Buffer.ofBytes_write]
  exact (holds_append.mp (holds_write _ _ _)).1.u32 hlen

/-- Fields behind the length do not change it. -/
theorem u32_write_of_le (msg : Buffer) {o : ℕ} (ho : 4 ≤ o) (bs : List UInt8) :
    (msg.write o bs).u32 0 = msg.u32 0 := by
  have hsame (i : ℕ) (hi : i < 4) : ofBytes (msg.write o bs) i = ofBytes msg i := by
    rw [Buffer.ofBytes_write]
    exact write_of_outside (.inl (by omega))
  simp only [Buffer.u32, Bytes.u32, Bytes.u16, hsame 0 (by decide), hsame 1 (by decide),
    hsame 2 (by decide), hsame 3 (by decide), Nat.zero_add, Nat.reduceAdd]

/-- A type that is one of three is not refused. -/
theorem not_refused {type a b c : ℕ} (h : type = a ∨ type = b ∨ type = c) :
    ¬ (type ≠ a ∧ type ≠ b ∧ type ≠ c) := by
  omega

/-- A message that has begun is initialized. -/
theorem Begun.initialized {msg : Buffer} {first : ℕ} (h : Begun msg first) :
    Initialized msg first := by
  cases h with
  | plain type => exact ⟨u32_write_zero _ (by decide) _, by decide, by decide, by decide⟩
  | route msg rtFlags route htype =>
    refine ⟨?_, by decide, by decide, by decide⟩
    rw [NetlinkRouteMessage.init, if_neg (not_refused htype)]
    dsimp only
    rw [u32_write_of_le _ (by decide), List.append_assoc]
    exact u32_write_zero _ (by decide) _
  | link msg linkFlags htype =>
    refine ⟨?_, by decide, by decide, by decide⟩
    rw [NetlinkLinkMessage.init, if_neg (not_refused htype)]
    dsimp only
    rw [u32_write_of_le _ (by decide)]
    exact u32_write_zero _ (by decide) _
  | addr msg htype =>
    refine ⟨?_, by decide, by decide, by decide⟩
    rw [NetlinkAddrMessage.init, if_neg (not_refused htype)]
    exact u32_write_zero _ (by decide) _
  | neighbor msg neighFlags htype =>
    refine ⟨?_, by decide, by decide, by decide⟩
    rw [NetlinkNeighborMessage.init, if_neg (not_refused htype)]
    dsimp only
    rw [u32_write_of_le _ (by decide)]
    exact u32_write_zero _ (by decide) _

/-- What is stored of an attribute. -/
def Attribute.stored (attr : Attribute) : ℕ × List UInt8 := ((attr.type % 2 ^ 16).toNat, attr.data)

/-- A message with attributes. -/
structure HasAttributes (msg : Buffer) (first : ℕ) (attrs : List (ℕ × List UInt8)) : Prop where
  len : msg.u32 0 = first + (Rtattr.encodeAll attrs).length
  dvd : 4 ∣ first
  header : 16 ≤ first
  fits : first + (Rtattr.encodeAll attrs).length ≤ kMaxNlPayloadSize
  stored : Rtattr.Stored (ofBytes msg) first attrs
  types : ∀ a ∈ attrs, a.1 < 2 ^ 16

/-- An initialized message has no attributes yet. -/
theorem Initialized.hasAttributes {msg : Buffer} {first : ℕ} (h : Initialized msg first) :
    HasAttributes msg first [] :=
  ⟨h.len, h.dvd, h.header, h.fits, trivial, by simp⟩

/-- A call that fails changes nothing. -/
theorem addAttributes_of_fails (attr : Attribute) (msg : Buffer)
    (h : (addAttributes attr msg).1 ≠ .SUCCESS) : (addAttributes attr msg).2 = msg := by
  unfold addAttributes at h ⊢
  dsimp only at h ⊢
  split at h
  next hfull => rw [if_pos hfull]
  · exact absurd rfl h

/-- The first call of a run either succeeds or leaves the message to the others. -/
theorem addAll_cons (attr : Attribute) (calls : List Attribute) (msg : Buffer) :
    (addAttributes attr msg = (.SUCCESS, (addAttributes attr msg).2) ∧
      addAll (attr :: calls) msg =
        ((addAll calls (addAttributes attr msg).2).1,
          attr :: (addAll calls (addAttributes attr msg).2).2)) ∨
    ((addAttributes attr msg).2 = msg ∧ addAll (attr :: calls) msg = addAll calls msg) := by
  by_cases hok : (addAttributes attr msg).1 = .SUCCESS
  · have hres : addAttributes attr msg = (.SUCCESS, (addAttributes attr msg).2) :=
      Prod.ext hok rfl
    refine .inl ⟨hres, ?_⟩
    rw [addAll, hres]
  · have hsame := addAttributes_of_fails attr msg hok
    refine .inr ⟨hsame, ?_⟩
    rw [addAll]
    split
    next heq => exact absurd (congrArg Prod.fst heq) hok
    next heq => rw [← hsame, heq]

namespace HasAttributes

variable {msg msg' : Buffer} {first : ℕ} {attrs : List (ℕ × List UInt8)} {attr : Attribute}

private theorem dvd_len (h : HasAttributes msg first attrs) : 4 ∣ msg.u32 0 := by
  rw [h.len]
  exact Nat.dvd_add h.dvd (Rtattr.dvd_length_encodeAll attrs)

/-- The 32-bit arithmetic of `addAttributes` is exact for values that are not gigantic. -/
theorem addAttributes_eq (h : HasAttributes msg first attrs) (hdata : attr.data.length < 2 ^ 31) :
    addAttributes attr msg =
      if msg.u32 0 + align4 (4 + attr.data.length) > kMaxNlPayloadSize then
        (.NO_MESSAGE_BUFFER, msg)
      else
        (.SUCCESS, (msg.write (msg.u32 0)
          (le16 (4 + attr.data.length) ++ le16 (attr.type % 2 ^ 16).toNat ++ attr.data)).write 0
            (le32 (msg.u32 0 + align4 (4 + attr.data.length)))) := by
  have hmax : kMaxNlPayloadSize = 4096 := rfl
  have hfits := h.fits
  rw [← h.len] at hfits
  have hlen : align32 (msg.u32 0) = msg.u32 0 := by
    have hdvd := h.dvd_len
    simp only [align32]
    omega
  have hrta : (4 + attr.data.length) % 2 ^ 32 = 4 + attr.data.length := Nat.mod_eq_of_lt (by omega)
  have hpad : align32 (4 + attr.data.length) = align4 (4 + attr.data.length) := by
    simp only [align32, align4]
    omega
  have hsum : (msg.u32 0 + align4 (4 + attr.data.length)) % 2 ^ 32 =
      msg.u32 0 + align4 (4 + attr.data.length) := by
    simp only [align4]
    omega
  simp only [addAttributes, hlen, hrta, hpad, hsum]

/-- A call that succeeds adds its attribute at the end. -/
theorem addAttributes (h : HasAttributes msg first attrs) (hdata : attr.data.length < 2 ^ 31)
    (hok : NetlinkMessage.addAttributes attr msg = (.SUCCESS, msg')) :
    HasAttributes msg' first (attrs ++ [attr.stored]) := by
  have hmax : kMaxNlPayloadSize = 4096 := rfl
  have hheader := h.header
  have hlen := h.len
  have hle := le_align4 (4 + attr.data.length)
  have hall : (Rtattr.encodeAll (attrs ++ [attr.stored])).length =
      (Rtattr.encodeAll attrs).length + align4 (4 + attr.data.length) := by
    rw [Attribute.stored, Rtattr.encodeAll_append_singleton, List.length_append,
      Rtattr.length_encode]
  rw [h.addAttributes_eq hdata] at hok
  split at hok
  · simp at hok
  next hroom =>
    obtain rfl := (Prod.mk.inj hok).2
    have hmem : ofBytes ((msg.write (msg.u32 0)
        (le16 (4 + attr.data.length) ++ le16 (attr.type % 2 ^ 16).toNat ++ attr.data)).write 0
          (le32 (msg.u32 0 + align4 (4 + attr.data.length)))) = write (write (ofBytes msg)
            (msg.u32 0)
              (le16 (4 + attr.data.length) ++ le16 (attr.type % 2 ^ 16).toNat ++ attr.data)) 0
                (le32 (msg.u32 0 + align4 (4 + attr.data.length))) := by
      rw [Buffer.ofBytes_write, Buffer.ofBytes_write]
    refine ⟨?_, h.dvd, hheader, by omega, ?_, ?_⟩
    · rw [Buffer.u32, hmem, (holds_write _ _ _).u32 (by omega)]
      omega
    · rw [hmem, Rtattr.stored_append]
      refine ⟨h.stored.congr fun i hi hlt => ?_, ?_, trivial⟩
      · rw [write_of_outside (.inr (by rw [length_le32]; omega)),
          write_of_outside (.inl (by omega))]
      · rw [← hlen]
        refine (holds_write (ofBytes msg) (msg.u32 0) _).congr fun i hi _ => ?_
        exact write_of_outside (.inr (by rw [length_le32]; omega))
    · rw [List.forall_mem_append]
      refine ⟨h.types, ?_⟩
      simp only [List.mem_singleton, forall_eq, Attribute.stored]
      omega

/-- A run of calls keeps the attributes there are and adds those of the calls that succeed. -/
theorem addAll {calls : List Attribute} (h : HasAttributes msg first attrs)
    (hdata : ∀ attr ∈ calls, attr.data.length < 2 ^ 31) :
    HasAttributes (addAll calls msg).1 first
      (attrs ++ (NetlinkMessage.addAll calls msg).2.map Attribute.stored) := by
  induction calls generalizing msg attrs with
  | nil => simpa [NetlinkMessage.addAll] using h
  | cons attr calls ih =>
    obtain ⟨hattr, hcalls⟩ := List.forall_mem_cons.mp hdata
    obtain ⟨hok, hrest⟩ | ⟨hsame, hrest⟩ := addAll_cons attr calls msg
    · have hnext := ih (h.addAttributes hattr hok) hcalls
      rw [hrest, List.map_cons]
      rwa [List.append_assoc, List.singleton_append] at hnext
    · rw [hrest]
      exact ih h hcalls

/-- A walk finds the attributes. -/
theorem walkAttributes (h : HasAttributes msg first attrs) {fuel : ℕ}
    (hfuel : kMaxNlPayloadSize ≤ fuel) : walkAttributes fuel first msg = .ok attrs := by
  have hmax : kMaxNlPayloadSize = 4096 := rfl
  have hfits := h.fits
  have hheader := h.header
  have hcount := Rtattr.length_le_length_encodeAll attrs
  rw [NetlinkMessage.walkAttributes, h.len, Nat.add_sub_cancel_left]
  exact h.stored.eval_walk (Rtattr.fits_of_length h.types (by omega)) (by omega) (by omega)

end HasAttributes

/-- In a message of any kind, `nlmsg_len` stays a multiple of 4 and at most 4096, a call that fails
changes nothing, and a walk from the first attribute yields the values of the calls that succeeded,
in order, with their types cut to 16 bits. -/
theorem attributes_represented :
    (∀ {msg first}, Begun msg first → Initialized msg first) ∧
    (∀ attr msg, (addAttributes attr msg).1 ≠ .SUCCESS → (addAttributes attr msg).2 = msg) ∧
    ∀ {msg first}, Initialized msg first → ∀ calls : List Attribute,
      (∀ attr ∈ calls, attr.data.length < 2 ^ 31) →
      4 ∣ (addAll calls msg).1.u32 0 ∧ (addAll calls msg).1.u32 0 ≤ 4096 ∧
      ∀ fuel, 4096 ≤ fuel →
        walkAttributes fuel first (addAll calls msg).1 =
          .ok ((addAll calls msg).2.map fun attr => ((attr.type % 2 ^ 16).toNat, attr.data)) := by
  refine ⟨Begun.initialized, addAttributes_of_fails, fun h calls hdata => ?_⟩
  have hrun := h.hasAttributes.addAll hdata
  refine ⟨hrun.dvd_len, hrun.len.trans_le hrun.fits, fun fuel hfuel => ?_⟩
  exact hrun.walkAttributes hfuel

/-- A message for a neighbor, with two attributes. -/
theorem neighbor_attributes :
    ∃ msg, Begun msg 28 ∧
      (addAll [⟨1, [10, 0, 0, 1]⟩, ⟨2, [2, 0, 0, 0, 0, 9]⟩] msg).1.u32 0 % 4 = 0 ∧
      walkAttributes 4096 28 (addAll [⟨1, [10, 0, 0, 1]⟩, ⟨2, [2, 0, 0, 0, 0, 9]⟩] msg).1 =
        .ok [(1, [10, 0, 0, 1]), (2, [2, 0, 0, 0, 0, 9])] := by
  have hbegun : Begun (NetlinkNeighborMessage.init [] RTM_NEWNEIGH 0) 28 :=
    .neighbor [] 0 (.inl rfl)
  obtain ⟨hinit, -, hall⟩ := attributes_represented
  obtain ⟨hdvd, -, hwalk⟩ := hall (hinit hbegun)
    [⟨1, [10, 0, 0, 1]⟩, ⟨2, [2, 0, 0, 0, 0, 9]⟩] (by simp)
  refine ⟨_, hbegun, Nat.mod_eq_zero_of_dvd hdvd, (hwalk 4096 le_rfl).trans ?_⟩
  decide +kernel

/-- The `int` 65537 is stored as the type 1. -/
theorem wide_type_truncated :
    ∃ msg, Begun msg 28 ∧
      (addAll [⟨65537, [7, 7, 7, 7]⟩] msg).2 = [⟨65537, [7, 7, 7, 7]⟩] ∧
      walkAttributes 4096 28 (addAll [⟨65537, [7, 7, 7, 7]⟩] msg).1 =
        .ok [(1, [7, 7, 7, 7])] := by
  have hbegun : Begun (NetlinkNeighborMessage.init [] RTM_NEWNEIGH 0) 28 :=
    .neighbor [] 0 (.inl rfl)
  have hcalls : (addAll [⟨65537, [7, 7, 7, 7]⟩]
      (NetlinkNeighborMessage.init [] RTM_NEWNEIGH 0)).2 = [⟨65537, [7, 7, 7, 7]⟩] := by
    decide +kernel
  have hdata : ∀ attr ∈ ([⟨65537, [7, 7, 7, 7]⟩] : List Attribute),
      attr.data.length < 2 ^ 31 := by
    simp
  have hrun := hbegun.initialized.hasAttributes.addAll hdata
  rw [hcalls] at hrun
  exact ⟨_, hbegun, hcalls, hrun.walkAttributes le_rfl⟩

end NetlinkMessage

end Fbmeshd
