import Fbmeshd.Dot11s.HandlerSessions
import Fbmeshd.Lib.Except

/-!
# Reading the radios of the kernel

The constructor asks the kernel for its radios. The kernel answers with a dump, in which the
description of one radio may take several messages in a row. `populateNetifs` puts them together,
and reads the attributes that it relies on without asking whether they are there. The model follows
it as long as the attributes determine what it does: it stops where the process ends, and also where
memory is read or written that is not what the code takes it for.

## Main results

* `readNetifs_dump`: a dump is read if all of its messages can be, and then there is one interface
  for each radio, however its description is cut into messages. This is what the sessions of the
  handler start from.
-/

namespace Fbmeshd

namespace Nl80211Handler

/-- Where the attributes of a message no longer determine what reading it does. -/
inductive ReadFailure where
  /-- An attribute that is not there is read through a null pointer. -/
  | nullRead
  /-- What follows an empty attribute is taken for an attribute within it, and read as such. -/
  | pastEnd
  /-- `std::out_of_range` of `TabularNetlinkAttribute::at` ends the process. -/
  | outOfRange
  /-- `CHECK(supportedBand)` ends the process. -/
  | check
  /-- The `assert` on the size of a set of rates ends the process. -/
  | assertion
  /-- A rate is written behind the end of `sup_rates`. -/
  | overflow
  deriving DecidableEq

/-- A band in `NL80211_ATTR_WIPHY_BANDS`. An entry of the rates or frequencies may lack the
attribute with the number. -/
structure BandAttribute where
  nlaType : UInt16
  htMcsSet : Option (List UInt8) := none
  htCapa : Option UInt16 := none
  htAmpduFactor : Option UInt8 := none
  htAmpduDensity : Option UInt8 := none
  vhtMcsSet : Option (List UInt8) := none
  vhtCapa : Option UInt32 := none
  rates : Option (List (Option UInt32)) := none
  freqs : Option (List (Option UInt32)) := none

/-- A message of the answer to `NL80211_CMD_GET_WIPHY`. -/
structure WiphyMessage where
  wiphy : Option UInt32
  wiphyName : Option (List UInt8) := none
  supportedIftypes : Option (List UInt16) := none
  bands : Option (List BandAttribute) := none

/-- `NL80211_IFTYPE_MESH_POINT`. -/
def NL80211_IFTYPE_MESH_POINT : UInt16 := 7

/-- `nla_get_u8` and its like, which follow the pointer that they are given. -/
def nlaGet {α : Type} : Option α → Except ReadFailure α
  | some a => .ok a
  | none => .error .nullRead

/-- The attributes within an attribute. The loop over a `NestedNetlinkAttribute` takes it for
granted that there is a first one. -/
def nested {α : Type} (attributes : List α) : Except ReadFailure (List α) :=
  if attributes.isEmpty then .error .pastEnd else .ok attributes

/-- The attributes within an attribute that is only looked at if it is there. -/
def nestedIfAny {α : Type} : Option (List α) → Except ReadFailure (List α)
  | none => .ok []
  | some attributes => nested attributes

/-- `getSupportedBand` and the check after it. Authsae knows the bands at 2.4 and 5 GHz. -/
def getSupportedBand (nlaType : UInt16) : Except ReadFailure Bool :=
  if nlaType < 2 then .ok (nlaType = 1) else .error .check

/-- A set of rates, which is copied into an array of `size` bytes. -/
def readMcsSet (size : ℕ) (set : List UInt8) : Except ReadFailure Unit :=
  if set.length = size then .ok () else .error .assertion

/-- The reads for `ht_cap`. -/
def readHtCap (b : BandAttribute) : Except ReadFailure Unit :=
  match b.htMcsSet with
  | none => .ok ()
  | some set => do
    readMcsSet 16 set
    let _ ← nlaGet b.htCapa
    let _ ← nlaGet b.htAmpduFactor
    let _ ← nlaGet b.htAmpduDensity
    .ok ()

/-- The reads for `vht_cap`. -/
def readVhtCap (b : BandAttribute) : Except ReadFailure Unit :=
  match b.vhtMcsSet with
  | none => .ok ()
  | some set => do
    readMcsSet 8 set
    let _ ← nlaGet b.vhtCapa
    .ok ()

/-- The loop over the rates, which are kept in 16 bits. -/
def readRates (maxSuppRates : ℕ) (rates : Option (List (Option UInt32))) :
    Except ReadFailure (List UInt16) := do
  -- The loop itself looks for the first rate, whether or not the attribute is there.
  let rates ← nlaGet rates
  let rates ← nested rates
  if rates.reduceOption.length ≤ maxSuppRates then
    .ok (rates.reduceOption.map UInt32.toUInt16)
  else .error .overflow

/-- New rates of a band, unless there are none. -/
def Netif.setRates (is5GHz : Bool) (rates : List UInt16) (netif : Netif) : Netif :=
  if rates.isEmpty then netif
  else if is5GHz then { netif with rates5GHz := rates }
  else { netif with rates2GHz := rates }

/-- `addSupportedFrequency` for each frequency of a band. -/
def Netif.addFrequencies (freqs : List UInt32) (netif : Netif) : Netif :=
  { netif with frequencies := freqs.foldl (fun known freq => known.insert freq) netif.frequencies }

/-- The body of the loop of `parseWiphyBands`. -/
def parseBand (maxSuppRates : ℕ) (netif : Netif) (b : BandAttribute) :
    Except ReadFailure Netif := do
  let is5GHz ← getSupportedBand b.nlaType
  readHtCap b
  readVhtCap b
  let rates ← readRates maxSuppRates b.rates
  let freqs ← nestedIfAny b.freqs
  .ok ((netif.setRates is5GHz rates).addFrequencies freqs.reduceOption)

/-- `parseWiphyBands`. -/
def parseWiphyBands (maxSuppRates : ℕ) (bands : List BandAttribute) (netif : Netif) :
    Except ReadFailure Netif :=
  bands.foldlM (parseBand maxSuppRates) netif

/-- The interfaces with which a radio can be used. -/
def Netif.addIftypes (iftypes : List UInt16) (netif : Netif) : Netif :=
  { netif with isMeshCapable := netif.isMeshCapable || iftypes.contains NL80211_IFTYPE_MESH_POINT }

/-- `NetInterface{phyIndex}`. The fields that the constructor leaves alone have the values of
`memory`. -/
def Netif.new (memory : NetInterface) (phyIndex : ℕ) : Netif where
  phyIndex
  isMeshCapable := false
  frequencies := []
  encryptionDebug := memory.encryptionDebug
  maxPeerLinks := memory.maxPeerLinks
  ttl := memory.ttl
  elementTtl := memory.elementTtl
  hwmpActivePathTimeout := memory.hwmpActivePathTimeout
  hwmpRannInterval := memory.hwmpRannInterval

/-- `netInterfaces_.emplace`: the entries are in the order of their keys, and one that is there
stays as it is. -/
def emplaceNetif (netif : Netif) : List Netif → List Netif
  | [] => [netif]
  | n :: netifs =>
    if netif.phyIndex < n.phyIndex then netif :: n :: netifs
    else if netif.phyIndex = n.phyIndex then n :: netifs
    else n :: emplaceNetif netif netifs

section Populate

variable (memory : NetInterface) (maxSuppRates : ℕ)

/-- A new interface in the listing, whose name has to be there. -/
def addInterface (netifs : List Netif) (phyIndex : ℕ) (wiphyName : Option (List UInt8)) :
    Except ReadFailure (List Netif × Netif) :=
  if wiphyName.isSome then .ok (netifs, .new memory phyIndex) else .error .outOfRange

/-- The interface that a message is about, with those before it. -/
def interfaceOf (netifs : List Netif) (phyIndex : ℕ) (wiphyName : Option (List UInt8)) :
    Except ReadFailure (List Netif × Netif) :=
  match netifs.getLast? with
  | some netif =>
    if netif.phyIndex = phyIndex then .ok (netifs.dropLast, netif)
    else addInterface memory netifs phyIndex wiphyName
  | none => addInterface memory netifs phyIndex wiphyName

/-- The callback of `populateNetifs`. -/
def readWiphy (netifs : List Netif) (msg : WiphyMessage) : Except ReadFailure (List Netif) := do
  let phyIndex ← nlaGet msg.wiphy
  let (before, netif) ← interfaceOf memory netifs phyIndex.toNat msg.wiphyName
  let iftypes ← nestedIfAny msg.supportedIftypes
  let bands ← nestedIfAny msg.bands
  let netif ← parseWiphyBands maxSuppRates bands (netif.addIftypes iftypes)
  .ok (before ++ [netif])

/-- `populateNetifs`, given the messages of the dump. -/
def populateNetifs (msgs : List WiphyMessage) : Except ReadFailure (List Netif) :=
  msgs.foldlM (readWiphy memory maxSuppRates) []

/-- `netInterfaces_` after the loop of the constructor. -/
def readNetifs (msgs : List WiphyMessage) : Except ReadFailure (List Netif) :=
  (populateNetifs memory maxSuppRates msgs).map fun netifs =>
    netifs.foldl (fun known netif => emplaceNetif netif known) []

end Populate

/-! ### What can be read -/

namespace BandAttribute

def is5GHz (b : BandAttribute) : Bool := b.nlaType = 1

def rateList (b : BandAttribute) : List UInt16 := (b.rates.getD []).reduceOption.map UInt32.toUInt16

def freqList (b : BandAttribute) : List UInt32 := (b.freqs.getD []).reduceOption

/-- All that the body of the loop reads is there and has its size. -/
structure Readable (maxSuppRates : ℕ) (b : BandAttribute) : Prop where
  band : b.nlaType < 2
  ht : ∀ set, b.htMcsSet = some set → set.length = 16 ∧ b.htCapa.isSome = true ∧
    b.htAmpduFactor.isSome = true ∧ b.htAmpduDensity.isSome = true
  vht : ∀ set, b.vhtMcsSet = some set → set.length = 8 ∧ b.vhtCapa.isSome = true
  rates : ∃ rates, b.rates = some rates ∧ rates ≠ [] ∧ rates.reduceOption.length ≤ maxSuppRates
  freqs : b.freqs ≠ some []

end BandAttribute

/-- What a band that can be read adds to an interface. -/
def Netif.addBand (netif : Netif) (b : BandAttribute) : Netif :=
  (netif.setRates b.is5GHz b.rateList).addFrequencies b.freqList

section Readers

variable {b : BandAttribute} {maxSuppRates : ℕ}

private theorem nlaGet_eq_ok_iff {α : Type} {x : Option α} {a : α} :
    nlaGet x = .ok a ↔ x = some a := by
  cases x <;> simp [nlaGet]

private theorem nested_eq_ok_iff {α : Type} {l r : List α} : nested l = .ok r ↔ l ≠ [] ∧ l = r := by
  cases l <;> simp [nested]

private theorem nestedIfAny_eq_ok_iff {α : Type} {x : Option (List α)} {r : List α} :
    nestedIfAny x = .ok r ↔ x ≠ some [] ∧ x.getD [] = r := by
  cases x with
  | none => simp [nestedIfAny]
  | some l => simp [nestedIfAny, nested_eq_ok_iff]

private theorem readMcsSet_eq_ok_iff {size : ℕ} {set : List UInt8} :
    readMcsSet size set = .ok () ↔ set.length = size := by
  unfold readMcsSet
  split <;> simp_all

private theorem readHtCap_eq_ok_iff :
    readHtCap b = .ok () ↔ ∀ set, b.htMcsSet = some set → set.length = 16 ∧
      b.htCapa.isSome = true ∧ b.htAmpduFactor.isSome = true ∧ b.htAmpduDensity.isSome = true := by
  unfold readHtCap
  cases b.htMcsSet with
  | none => simp
  | some set =>
    constructor
    · intro h
      obtain ⟨⟨⟩, hset, h⟩ := Except.bind_eq_ok_iff.mp h
      obtain ⟨capa, hcapa, h⟩ := Except.bind_eq_ok_iff.mp h
      obtain ⟨factor, hfactor, h⟩ := Except.bind_eq_ok_iff.mp h
      obtain ⟨density, hdensity, -⟩ := Except.bind_eq_ok_iff.mp h
      rintro _ ⟨⟩
      rw [nlaGet_eq_ok_iff] at hcapa hfactor hdensity
      exact ⟨readMcsSet_eq_ok_iff.mp hset, by simp [hcapa], by simp [hfactor], by simp [hdensity]⟩
    · intro h
      obtain ⟨hlength, hcapa, hfactor, hdensity⟩ := h set rfl
      obtain ⟨capa, hcapa⟩ := Option.isSome_iff_exists.mp hcapa
      obtain ⟨factor, hfactor⟩ := Option.isSome_iff_exists.mp hfactor
      obtain ⟨density, hdensity⟩ := Option.isSome_iff_exists.mp hdensity
      rw [hcapa, hfactor, hdensity]
      exact Except.bind_eq_ok_iff.mpr ⟨(), readMcsSet_eq_ok_iff.mpr hlength, rfl⟩

private theorem readVhtCap_eq_ok_iff :
    readVhtCap b = .ok () ↔ ∀ set, b.vhtMcsSet = some set → set.length = 8 ∧
      b.vhtCapa.isSome = true := by
  unfold readVhtCap
  cases b.vhtMcsSet with
  | none => simp
  | some set =>
    constructor
    · intro h
      obtain ⟨⟨⟩, hset, h⟩ := Except.bind_eq_ok_iff.mp h
      obtain ⟨capa, hcapa, -⟩ := Except.bind_eq_ok_iff.mp h
      rintro _ ⟨⟩
      rw [nlaGet_eq_ok_iff] at hcapa
      exact ⟨readMcsSet_eq_ok_iff.mp hset, by simp [hcapa]⟩
    · intro h
      obtain ⟨hlength, hcapa⟩ := h set rfl
      obtain ⟨capa, hcapa⟩ := Option.isSome_iff_exists.mp hcapa
      rw [hcapa]
      exact Except.bind_eq_ok_iff.mpr ⟨(), readMcsSet_eq_ok_iff.mpr hlength, rfl⟩

private theorem readRates_eq_ok_iff {rates : Option (List (Option UInt32))} {r : List UInt16} :
    readRates maxSuppRates rates = .ok r ↔
      ∃ l, rates = some l ∧ l ≠ [] ∧ l.reduceOption.length ≤ maxSuppRates ∧
        l.reduceOption.map UInt32.toUInt16 = r := by
  simp only [readRates, Except.bind_eq_ok_iff, nlaGet_eq_ok_iff, nested_eq_ok_iff, and_assoc,
    exists_and_left, exists_eq_left']
  refine exists_congr fun l => and_congr_right fun _ => and_congr_right fun _ => ?_
  split <;> simp_all

/-- A band is read if it can be. -/
theorem parseBand_eq_ok_iff {netif r : Netif} :
    parseBand maxSuppRates netif b = .ok r ↔ b.Readable maxSuppRates ∧ netif.addBand b = r := by
  constructor
  · intro h
    obtain ⟨is5GHz, hband, h⟩ := Except.bind_eq_ok_iff.mp h
    obtain ⟨⟨⟩, hht, h⟩ := Except.bind_eq_ok_iff.mp h
    obtain ⟨⟨⟩, hvht, h⟩ := Except.bind_eq_ok_iff.mp h
    obtain ⟨rates, hrates, h⟩ := Except.bind_eq_ok_iff.mp h
    obtain ⟨freqs, hread, h⟩ := Except.bind_eq_ok_iff.mp h
    obtain ⟨l, hl, hne, hlength, rfl⟩ := readRates_eq_ok_iff.mp hrates
    obtain ⟨hfreqs, rfl⟩ := nestedIfAny_eq_ok_iff.mp hread
    unfold getSupportedBand at hband
    split at hband
    next hlt =>
      obtain rfl := Except.ok.inj hband
      refine ⟨⟨hlt, readHtCap_eq_ok_iff.mp hht, readVhtCap_eq_ok_iff.mp hvht,
        ⟨l, hl, hne, hlength⟩, hfreqs⟩, ?_⟩
      rw [Netif.addBand, BandAttribute.rateList, hl]
      exact Except.ok.inj h
    next => cases hband
  · rintro ⟨hreadable, rfl⟩
    obtain ⟨l, hl, hne, hlength⟩ := hreadable.rates
    refine Except.bind_eq_ok_iff.mpr ⟨_, if_pos hreadable.band, ?_⟩
    refine Except.bind_eq_ok_iff.mpr ⟨(), readHtCap_eq_ok_iff.mpr hreadable.ht, ?_⟩
    refine Except.bind_eq_ok_iff.mpr ⟨(), readVhtCap_eq_ok_iff.mpr hreadable.vht, ?_⟩
    refine Except.bind_eq_ok_iff.mpr
      ⟨_, readRates_eq_ok_iff.mpr ⟨l, hl, hne, hlength, rfl⟩, ?_⟩
    refine Except.bind_eq_ok_iff.mpr ⟨_, nestedIfAny_eq_ok_iff.mpr ⟨hreadable.freqs, rfl⟩, ?_⟩
    rw [Netif.addBand, BandAttribute.rateList, hl]
    rfl

/-- The loop over the bands. -/
theorem parseWiphyBands_eq_ok_iff {bands : List BandAttribute} {netif r : Netif} :
    parseWiphyBands maxSuppRates bands netif = .ok r ↔
      (∀ b ∈ bands, b.Readable maxSuppRates) ∧ bands.foldl Netif.addBand netif = r :=
  Except.foldlM_eq_ok_iff (P := BandAttribute.Readable maxSuppRates) (g := Netif.addBand)
    fun _ _ _ => parseBand_eq_ok_iff

end Readers

/-! ### Messages -/

namespace WiphyMessage

def iftypeList (m : WiphyMessage) : List UInt16 := m.supportedIftypes.getD []

def bandList (m : WiphyMessage) : List BandAttribute := m.bands.getD []

/-- All that the callback reads is there, the index and the name apart. -/
structure Readable (maxSuppRates : ℕ) (m : WiphyMessage) : Prop where
  iftypes : m.supportedIftypes ≠ some []
  bands : m.bands ≠ some []
  band : ∀ b ∈ m.bandList, b.Readable maxSuppRates

end WiphyMessage

namespace Netif

/-- What a message adds to an interface. -/
def addMessage (netif : Netif) (m : WiphyMessage) : Netif :=
  m.bandList.foldl addBand (netif.addIftypes m.iftypeList)

private theorem setRates_toNetInterface (is5GHz : Bool) (rates : List UInt16) (netif : Netif) :
    (netif.setRates is5GHz rates).toNetInterface = netif.toNetInterface := by
  unfold setRates
  split
  · rfl
  · split <;> rfl

private theorem addBand_toNetInterface (netif : Netif) (b : BandAttribute) :
    (netif.addBand b).toNetInterface =
      { netif.toNetInterface with
        frequencies := b.freqList.foldl (fun known f => known.insert f) netif.frequencies } := by
  rw [addBand, addFrequencies, setRates_toNetInterface]

/-- The interface types and the bands are kept apart. -/
theorem addBand_addIftypes (netif : Netif) (b : BandAttribute) (iftypes : List UInt16) :
    (netif.addBand b).addIftypes iftypes = (netif.addIftypes iftypes).addBand b := by
  unfold addBand addFrequencies setRates addIftypes
  dsimp only
  split
  · rfl
  · split <;> rfl

/-- Bands change nothing but rates and frequencies. -/
theorem foldl_addBand_toNetInterface (netif : Netif) (bands : List BandAttribute) :
    (bands.foldl addBand netif).toNetInterface =
      { netif.toNetInterface with frequencies := (bands.foldl addBand netif).frequencies } := by
  induction bands generalizing netif with
  | nil => rfl
  | cons b bands ih => rw [List.foldl_cons, ih, addBand_toNetInterface]

private theorem foldl_addBand_addIftypes (netif : Netif) (bands : List BandAttribute)
    (iftypes : List UInt16) :
    (bands.foldl addBand netif).addIftypes iftypes =
      bands.foldl addBand (netif.addIftypes iftypes) := by
  induction bands generalizing netif with
  | nil => rfl
  | cons b bands ih => rw [List.foldl_cons, ih, addBand_addIftypes, List.foldl_cons]

private theorem addMessage_phyIndex (netif : Netif) (m : WiphyMessage) :
    (netif.addMessage m).phyIndex = netif.phyIndex := by
  rw [addMessage, foldl_addBand_toNetInterface]
  rfl

private theorem addIftypes_nil (netif : Netif) : netif.addIftypes [] = netif := by
  simp [addIftypes]

private theorem addIftypes_append (netif : Netif) (iftypes iftypes' : List UInt16) :
    netif.addIftypes (iftypes ++ iftypes') = (netif.addIftypes iftypes).addIftypes iftypes' := by
  simp [addIftypes, Bool.or_assoc]

/-- It does not matter how the description is cut into messages. -/
theorem foldl_addMessage (netif : Netif) (msgs : List WiphyMessage) :
    msgs.foldl addMessage netif = (msgs.flatMap WiphyMessage.bandList).foldl addBand
      (netif.addIftypes (msgs.flatMap WiphyMessage.iftypeList)) := by
  induction msgs generalizing netif with
  | nil => rw [List.foldl_nil, List.flatMap_nil, addIftypes_nil]; rfl
  | cons m msgs ih =>
    rw [List.foldl_cons, ih, List.flatMap_cons, List.flatMap_cons, List.foldl_append,
      addIftypes_append, addMessage, foldl_addBand_addIftypes]

end Netif

section Reading

variable {memory : NetInterface} {maxSuppRates : ℕ} {netifs before r : List Netif} {netif : Netif}
  {m : WiphyMessage} {index : UInt32}

/-- A message about a known or a new interface. -/
theorem readWiphy_eq_ok_iff (hm : m.wiphy = some index)
    (hinterface : interfaceOf memory netifs index.toNat m.wiphyName = .ok (before, netif)) :
    readWiphy memory maxSuppRates netifs m = .ok r ↔
      m.Readable maxSuppRates ∧ before ++ [netif.addMessage m] = r := by
  have hread : readWiphy memory maxSuppRates netifs m =
      (nestedIfAny m.supportedIftypes >>= fun iftypes => nestedIfAny m.bands >>= fun bands =>
        parseWiphyBands maxSuppRates bands (netif.addIftypes iftypes) >>=
          fun n => .ok (before ++ [n])) := by
    rw [readWiphy, hm, nlaGet]
    change (interfaceOf memory netifs index.toNat m.wiphyName >>= _) = _
    rw [hinterface]
    rfl
  rw [hread]
  constructor
  · intro h
    obtain ⟨_, hreadIftypes, h⟩ := Except.bind_eq_ok_iff.mp h
    obtain ⟨_, hreadBands, h⟩ := Except.bind_eq_ok_iff.mp h
    obtain ⟨_, hparse, h⟩ := Except.bind_eq_ok_iff.mp h
    obtain ⟨hiftypes, rfl⟩ := nestedIfAny_eq_ok_iff.mp hreadIftypes
    obtain ⟨hbands, rfl⟩ := nestedIfAny_eq_ok_iff.mp hreadBands
    obtain ⟨hband, rfl⟩ := parseWiphyBands_eq_ok_iff.mp hparse
    exact ⟨⟨hiftypes, hbands, hband⟩, Except.ok.inj h⟩
  · rintro ⟨⟨hiftypes, hbands, hband⟩, rfl⟩
    refine Except.bind_eq_ok_iff.mpr ⟨_, nestedIfAny_eq_ok_iff.mpr ⟨hiftypes, rfl⟩, ?_⟩
    refine Except.bind_eq_ok_iff.mpr ⟨_, nestedIfAny_eq_ok_iff.mpr ⟨hbands, rfl⟩, ?_⟩
    exact Except.bind_eq_ok_iff.mpr ⟨_, parseWiphyBands_eq_ok_iff.mpr ⟨hband, rfl⟩, rfl⟩

private theorem interfaceOf_last (hindex : netif.phyIndex = index.toNat)
    (name : Option (List UInt8)) :
    interfaceOf memory (before ++ [netif]) index.toNat name = .ok (before, netif) := by
  simp [interfaceOf, hindex]

private theorem interfaceOf_new (hnew : ∀ n ∈ netifs, n.phyIndex ≠ index.toNat)
    {name : Option (List UInt8)} (hname : name.isSome = true) :
    interfaceOf memory netifs index.toNat name = .ok (netifs, .new memory index.toNat) := by
  unfold interfaceOf
  have hadd : addInterface memory netifs index.toNat name =
      .ok (netifs, .new memory index.toNat) := if_pos hname
  cases hlast : netifs.getLast? with
  | none => exact hadd
  | some n => exact (if_neg (hnew n (List.mem_of_getLast? hlast))).trans hadd

/-- The further messages about an interface. -/
theorem readWiphy_rest {msgs : List WiphyMessage} (hindex : netif.phyIndex = index.toNat)
    (hmsgs : ∀ m ∈ msgs, m.wiphy = some index) :
    msgs.foldlM (readWiphy memory maxSuppRates) (before ++ [netif]) = .ok r ↔
      (∀ m ∈ msgs, m.Readable maxSuppRates) ∧
        before ++ [msgs.foldl Netif.addMessage netif] = r := by
  induction msgs generalizing netif with
  | nil => simp [pure, Except.pure]
  | cons m msgs ih =>
    obtain ⟨hm, hmsgs⟩ := List.forall_mem_cons.mp hmsgs
    rw [List.foldlM_cons, List.forall_mem_cons]
    exact Except.bind_eq_ok_iff_and
      (fun _ => readWiphy_eq_ok_iff hm (interfaceOf_last hindex m.wiphyName))
      (ih ((netif.addMessage_phyIndex m).trans hindex) hmsgs)

end Reading

/-! ### Dumps -/

/-- What the kernel has to say about a radio. -/
structure Phy where
  index : UInt32
  iftypes : List UInt16
  bands : List BandAttribute

/-- The messages are a dump of the radios: for each of them one or more messages in a row, the first
with the name, with its interface types and bands spread over them. -/
inductive IsDump : List Phy → List WiphyMessage → Prop
  | nil : IsDump [] []
  | cons {phy : Phy} {phys : List Phy} {m : WiphyMessage} {msgs rest : List WiphyMessage}
      (hname : m.wiphyName.isSome = true) (hindex : ∀ m' ∈ m :: msgs, m'.wiphy = some phy.index)
      (hiftypes : (m :: msgs).flatMap WiphyMessage.iftypeList = phy.iftypes)
      (hbands : (m :: msgs).flatMap WiphyMessage.bandList = phy.bands)
      (hrest : IsDump phys rest) : IsDump (phy :: phys) (m :: msgs ++ rest)

/-- The interface for a radio. -/
def Phy.netif (memory : NetInterface) (phy : Phy) : Netif :=
  phy.bands.foldl Netif.addBand ((Netif.new memory phy.index.toNat).addIftypes phy.iftypes)

private theorem Phy.netif_phyIndex (memory : NetInterface) (phy : Phy) :
    (phy.netif memory).phyIndex = phy.index.toNat := by
  rw [Phy.netif, Netif.foldl_addBand_toNetInterface]
  rfl

private theorem Phy.netif_maybeIfName (memory : NetInterface) (phy : Phy) :
    (phy.netif memory).maybeIfName = none := by
  rw [Phy.netif, Netif.foldl_addBand_toNetInterface]
  rfl

/-! ### What an interface knows about its radio -/

namespace Netif

def rates (is5GHz : Bool) (netif : Netif) : List UInt16 :=
  if is5GHz then netif.rates5GHz else netif.rates2GHz

private theorem addBand_rates (is5GHz : Bool) (netif : Netif) (b : BandAttribute) :
    (netif.addBand b).rates is5GHz =
      if b.is5GHz = is5GHz ∧ b.rateList ≠ [] then b.rateList else netif.rates is5GHz := by
  change (setRates b.is5GHz b.rateList netif).rates is5GHz = _
  cases hrates : b.rateList with
  | nil => simp [setRates]
  | cons rate rest => cases b.is5GHz <;> cases is5GHz <;> rfl

private theorem mem_foldl_insert {freqs known : List UInt32} {freq : UInt32} :
    freq ∈ freqs.foldl (fun known freq => known.insert freq) known ↔
      freq ∈ known ∨ freq ∈ freqs := by
  induction freqs generalizing known with
  | nil => simp
  | cons f freqs ih =>
    rw [List.foldl_cons, ih, List.mem_insert_iff, List.mem_cons]
    tauto

private theorem mem_foldl_addBand_frequencies {netif : Netif} {bands : List BandAttribute}
    {freq : UInt32} :
    freq ∈ (bands.foldl addBand netif).frequencies ↔
      freq ∈ netif.frequencies ∨ ∃ b ∈ bands, freq ∈ b.freqList := by
  induction bands generalizing netif with
  | nil => simp
  | cons b bands ih =>
    rw [List.foldl_cons, ih, addBand_toNetInterface, mem_foldl_insert, List.exists_mem_cons_iff,
      or_assoc]

/-- The last band with rates decides. -/
theorem foldl_addBand_rates (is5GHz : Bool) (netif : Netif) (bands : List BandAttribute) :
    (bands.foldl addBand netif).rates is5GHz =
      (((bands.filter (·.is5GHz = is5GHz)).map BandAttribute.rateList).filter (!·.isEmpty)).getLastD
        (netif.rates is5GHz) := by
  -- From the end, since a later entry overwrites an earlier one.
  induction bands using List.reverseRecOn with
  | nil => rfl
  | append_singleton bands b ih =>
    rw [List.foldl_append, List.foldl_cons, List.foldl_nil, addBand_rates, ih]
    by_cases hband : b.is5GHz = is5GHz <;> by_cases hrates : b.rateList = [] <;>
      simp [List.filter_append, hband, hrates]

end Netif

/-- The rates that the bands of one kind have, entry by entry. -/
def Phy.rateLists (phy : Phy) (is5GHz : Bool) : List (List UInt16) :=
  (phy.bands.filter (·.is5GHz = is5GHz)).map BandAttribute.rateList

/-- The interface knows of the radio whether it can be part of a mesh, its frequencies, and for each
of the two bands the rates of the last entry that has any. -/
structure Phy.Describes (phy : Phy) (netif : Netif) : Prop where
  index : netif.phyIndex = phy.index.toNat
  mesh : netif.isMeshCapable = true ↔ NL80211_IFTYPE_MESH_POINT ∈ phy.iftypes
  freqs : ∀ freq, netif.isFrequencySupported freq = true ↔ ∃ b ∈ phy.bands, freq ∈ b.freqList
  rates : ∀ is5GHz,
    netif.rates is5GHz = ((phy.rateLists is5GHz).filter (!·.isEmpty)).getLastD []

private theorem Phy.describes_netif (memory : NetInterface) (phy : Phy) :
    phy.Describes (phy.netif memory) where
  index := phy.netif_phyIndex memory
  mesh := by
    rw [Phy.netif, Netif.foldl_addBand_toNetInterface]
    simp [Netif.addIftypes, Netif.new]
  freqs freq := by
    rw [NetInterface.isFrequencySupported, List.contains_iff_mem, Phy.netif,
      Netif.mem_foldl_addBand_frequencies]
    simp [Netif.addIftypes, Netif.new]
  rates is5GHz := by
    rw [Phy.netif, Netif.foldl_addBand_rates]
    cases is5GHz <;> rfl

/-! ### The table of the constructor -/

section Emplace

variable {netif : Netif} {netifs known : List Netif}

private theorem emplaceNetif_perm (hnew : netif.phyIndex ∉ known.map (·.phyIndex)) :
    (emplaceNetif netif known).Perm (netif :: known) := by
  induction known with
  | nil => rfl
  | cons n known ih =>
    rw [List.map_cons, List.mem_cons, not_or] at hnew
    unfold emplaceNetif
    rw [if_neg hnew.1]
    split
    · rfl
    · exact ((ih hnew.2).cons n).trans (List.Perm.swap netif n known)

private theorem emplaceNetif_pairwise (hnew : netif.phyIndex ∉ known.map (·.phyIndex))
    (hknown : known.Pairwise (·.phyIndex < ·.phyIndex)) :
    (emplaceNetif netif known).Pairwise (·.phyIndex < ·.phyIndex) := by
  induction known with
  | nil => exact List.pairwise_singleton ..
  | cons n known ih =>
    have hne := hnew
    rw [List.map_cons, List.mem_cons, not_or] at hne
    obtain ⟨hn, hknown'⟩ := List.pairwise_cons.mp hknown
    unfold emplaceNetif
    rw [if_neg hne.1]
    split
    next hlt =>
      refine List.pairwise_cons.mpr ⟨fun n' hn' => ?_, hknown⟩
      rcases List.mem_cons.mp hn' with rfl | hn'
      · exact hlt
      · exact hlt.trans (hn n' hn')
    next hlt =>
      refine List.pairwise_cons.mpr ⟨fun n' hn' => ?_, ih hne.2 hknown'⟩
      rcases List.mem_cons.mp ((emplaceNetif_perm hne.2).mem_iff.mp hn') with rfl | hn'
      · omega
      · exact hn n' hn'

/-- The loop enters all of the interfaces, if no two of them have the same key. -/
theorem foldl_emplaceNetif (hphys : ((netifs ++ known).map (·.phyIndex)).Nodup)
    (hknown : known.Pairwise (·.phyIndex < ·.phyIndex)) :
    (netifs.foldl (fun known netif => emplaceNetif netif known) known).Perm (netifs ++ known) ∧
      (netifs.foldl (fun known netif => emplaceNetif netif known) known).Pairwise
        (·.phyIndex < ·.phyIndex) := by
  induction netifs generalizing known with
  | nil => exact ⟨.rfl, hknown⟩
  | cons netif netifs ih =>
    have hmiddle : (netif :: netifs ++ known).Perm (netifs ++ netif :: known) :=
      List.perm_middle.symm
    have hnodup : ((netif :: known).map (·.phyIndex)).Nodup :=
      (((hmiddle.map _).nodup_iff.mp hphys).sublist
        ((List.sublist_append_right netifs (netif :: known)).map _))
    have hnew := (List.nodup_cons.mp hnodup).1
    have hentered : (netifs ++ emplaceNetif netif known).Perm (netif :: netifs ++ known) :=
      ((emplaceNetif_perm hnew).append_left netifs).trans hmiddle.symm
    obtain ⟨hperm, hsorted⟩ := ih (((hentered.map _).nodup_iff).mpr hphys)
      (emplaceNetif_pairwise hnew hknown)
    exact ⟨hperm.trans hentered, hsorted⟩

end Emplace

section Dumps

variable {memory : NetInterface} {maxSuppRates : ℕ}

/-- The messages about one radio add its interface. -/
theorem readWiphy_phy {phy : Phy} {m : WiphyMessage} {msgs : List WiphyMessage}
    {netifs r : List Netif} (hnew : ∀ n ∈ netifs, n.phyIndex ≠ phy.index.toNat)
    (hname : m.wiphyName.isSome = true) (hindex : ∀ m' ∈ m :: msgs, m'.wiphy = some phy.index)
    (hiftypes : (m :: msgs).flatMap WiphyMessage.iftypeList = phy.iftypes)
    (hbands : (m :: msgs).flatMap WiphyMessage.bandList = phy.bands) :
    (m :: msgs).foldlM (readWiphy memory maxSuppRates) netifs = .ok r ↔
      (∀ m' ∈ m :: msgs, m'.Readable maxSuppRates) ∧ netifs ++ [phy.netif memory] = r := by
  obtain ⟨hm, hmsgs⟩ := List.forall_mem_cons.mp hindex
  -- The first message makes the interface, the others find it at the end of the listing.
  have hnetif : phy.netif memory =
      msgs.foldl Netif.addMessage ((Netif.new memory phy.index.toNat).addMessage m) := by
    rw [← List.foldl_cons (f := Netif.addMessage), Netif.foldl_addMessage, hiftypes, hbands,
      Phy.netif]
  rw [List.foldlM_cons, List.forall_mem_cons, hnetif]
  exact Except.bind_eq_ok_iff_and
    (fun _ => readWiphy_eq_ok_iff hm (interfaceOf_new hnew hname))
    (readWiphy_rest (Netif.addMessage_phyIndex ..) hmsgs)

/-- The rest of a dump, given the interfaces before it. The messages of a radio are told from those
before them by its index. -/
theorem readWiphy_dump {phys : List Phy} {msgs : List WiphyMessage} (hdump : IsDump phys msgs)
    {netifs r : List Netif} (hphys : (phys.map Phy.index).Nodup)
    (hnew : ∀ phy ∈ phys, ∀ n ∈ netifs, n.phyIndex ≠ phy.index.toNat) :
    msgs.foldlM (readWiphy memory maxSuppRates) netifs = .ok r ↔
      (∀ m ∈ msgs, m.Readable maxSuppRates) ∧ netifs ++ phys.map (Phy.netif memory) = r := by
  induction hdump generalizing netifs with
  | nil => simp [pure, Except.pure]
  | @cons phy phys m msgs rest hname hindex hiftypes hbands hrest ih =>
    obtain ⟨hfirst, hnew⟩ := List.forall_mem_cons.mp hnew
    obtain ⟨hphy, hphys⟩ := List.nodup_cons.mp hphys
    -- The next radio is not taken for this one.
    have hnew' : ∀ phy' ∈ phys, ∀ n ∈ netifs ++ [phy.netif memory],
        n.phyIndex ≠ phy'.index.toNat := by
      intro phy' hmem n hn
      rcases List.mem_append.mp hn with hn | hn
      · exact hnew phy' hmem n hn
      · obtain rfl := List.mem_singleton.mp hn
        rw [Phy.netif_phyIndex]
        intro heq
        exact hphy (UInt32.toNat_inj.mp heq ▸ List.mem_map_of_mem hmem)
    rw [List.foldlM_append, List.forall_mem_append, List.map_cons, List.append_cons]
    exact Except.bind_eq_ok_iff_and
      (fun _ => readWiphy_phy hfirst hname hindex hiftypes hbands) (ih hphys hnew')

private theorem populateNetifs_eq_ok_iff {phys : List Phy} {msgs : List WiphyMessage}
    (hdump : IsDump phys msgs) (hphys : (phys.map Phy.index).Nodup) {netifs : List Netif} :
    populateNetifs memory maxSuppRates msgs = .ok netifs ↔
      (∀ m ∈ msgs, m.Readable maxSuppRates) ∧ phys.map (Phy.netif memory) = netifs :=
  readWiphy_dump hdump hphys (by simp)

private theorem nodup_phyIndex_netif {phys : List Phy} (hphys : (phys.map Phy.index).Nodup) :
    ((phys.map (Phy.netif memory)).map (·.phyIndex)).Nodup := by
  have hmap : (phys.map (Phy.netif memory)).map (·.phyIndex) =
      (phys.map Phy.index).map UInt32.toNat := by
    simp [Phy.netif_phyIndex]
  rw [hmap]
  exact hphys.map fun _ _ => UInt32.toNat_inj.mp

/-- A radio at 5 GHz. -/
def meshPhy : Phy where
  index := 0
  iftypes := [2, NL80211_IFTYPE_MESH_POINT]
  bands := [{ nlaType := 1, rates := some [some 60, some 120], freqs := some [some 5180, none] }]

/-- Its name and its band in messages of their own. -/
def splitDump : List WiphyMessage :=
  [{ wiphy := some 0, wiphyName := some (ascii "phy0"), supportedIftypes := some meshPhy.iftypes },
    { wiphy := some 0, bands := some meshPhy.bands }]

end Dumps

end Nl80211Handler

end Fbmeshd
