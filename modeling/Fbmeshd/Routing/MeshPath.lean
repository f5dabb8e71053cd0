import Fbmeshd.Clock
import Fbmeshd.Lib.Table
import Mathlib.Data.List.Sort

/-!
# Mesh paths and PANN frames

The data of the routing protocol: station addresses, the entries of the mesh path table,
and the path announcement frame. Each test of a path against the clock is given the
reading it makes, so that nothing is assumed about readings that follow one another.
-/

namespace Fbmeshd

/-- A `folly::MacAddress`, in host byte order. -/
abbrev MacAddress := BitVec 48

/-- `MacAddress::BROADCAST`. -/
def MacAddress.BROADCAST : MacAddress := BitVec.allOnes 48

/-- `isBroadcast`. -/
def MacAddress.isBroadcast (a : MacAddress) : Bool := a = BROADCAST

/-- `isMulticast`: the lowest bit of the first octet. -/
def MacAddress.isMulticast (a : MacAddress) : Bool := a.getLsbD 40

/-- `isUnicast`. -/
def MacAddress.isUnicast (a : MacAddress) : Bool := !a.isMulticast

/-- The broadcast address is not unicast. -/
@[simp] theorem MacAddress.isUnicast_broadcast : MacAddress.BROADCAST.isUnicast = false := by
  decide

/-- The stations of a node with its metric for each, as `getLinkMetrics()` returns them. -/
abbrev LinkMetrics := MacAddress → Option UInt32

/-- `Routing::MeshPath`. -/
structure MeshPath where
  dst : MacAddress
  nextHop : MacAddress := 0
  sn : UInt64 := 0
  metric : UInt32 := 0
  nextHopMetric : UInt32 := 0
  hopCount : UInt8 := 0
  expTime : ℤ
  isRoot : Bool := false
  isGate : Bool := false
  deriving DecidableEq

/-- The constructor `MeshPath(dst)`, which reads the clock for `expTime`. -/
def MeshPath.create (dst : MacAddress) (now : ℤ) : MeshPath := { dst, expTime := now }

/-- `expired()`, given the reading it makes. -/
def MeshPath.expired (p : MeshPath) (now : ℤ) : Bool := p.expTime < now

/-- A path lasts until its expiry. -/
theorem MeshPath.expired_eq_false {p : MeshPath} {now : ℤ} :
    p.expired now = false ↔ now ≤ p.expTime := by
  simp [expired]

/-- After it the path is expired. -/
theorem MeshPath.expired_eq_true {p : MeshPath} {now : ℤ} :
    p.expired now = true ↔ p.expTime < now := by
  simp [expired]

/-- `thrift::MeshPathFramePANN`, with its addresses already converted from network order. -/
structure MeshPathFramePANN where
  origAddr : MacAddress
  origSn : UInt64
  hopCount : UInt8
  ttl : UInt8
  targetAddr : MacAddress
  metric : UInt32
  isGate : Bool
  replyRequested : Bool
  deriving DecidableEq

/-- The type of `meshPaths_`. -/
abbrev MeshPaths := AList fun _ : MacAddress => MeshPath

/-- `kMaxMetric`. -/
def kMaxMetric : UInt32 := 0xffffffff

/-- `kMeshPathExpire`. -/
def kMeshPathExpire : ℤ := seconds 60

/-- `kMeshHousekeepingInterval`. -/
def kMeshHousekeepingInterval : ℤ := seconds 60

/-- `kMinGatewayRedundancy`. -/
def kMinGatewayRedundancy : ℕ := 2

/-- The metric of a path through a station: the sum of the advertised metric and the
link's, replaced by `kMaxMetric` when the 32-bit addition wrapped. -/
def newMetric (origMetric lastHopMetric : UInt32) : UInt32 :=
  let sum := origMetric + lastHopMetric
  if sum < origMetric then kMaxMetric else sum

/-- The wrap test makes the sum saturate. -/
theorem newMetric_toNat (origMetric lastHopMetric : UInt32) :
    (newMetric origMetric lastHopMetric).toNat =
      min (2 ^ 32 - 1) (origMetric.toNat + lastHopMetric.toNat) := by
  have horig := origMetric.toNat_lt
  have hlast := lastHopMetric.toNat_lt
  unfold newMetric
  simp only [UInt32.lt_iff_toNat_lt, UInt32.toNat_add]
  split
  · have hmax : kMaxMetric.toNat = 2 ^ 32 - 1 := rfl
    omega
  · rw [UInt32.toNat_add]
    omega

namespace MeshPaths

variable (paths : MeshPaths)

/-- The entry for an address. -/
def find (addr : MacAddress) : Option MeshPath := AList.lookup addr paths

/-- Store an entry, in place of the one the address had. -/
def assign (addr : MacAddress) (p : MeshPath) : MeshPaths := AList.insert addr p paths

/-- Keep the entries that pass a test. -/
def keep (test : MacAddress → MeshPath → Bool) : MeshPaths := paths.filterEntries test

/-- `meshPathExpire`, given the reading made at each entry. -/
def meshPathExpire (now : MacAddress → ℤ) : MeshPaths :=
  paths.keep fun addr p => !decide (p.expTime + kMeshPathExpire < now addr)

/-- The entry `getMeshPath` returns: the stored one, or a new one created at `now`. -/
def pathOrNew (addr : MacAddress) (now : ℤ) : MeshPath :=
  (paths.find addr).getD (MeshPath.create addr now)

/-- The table after `getMeshPath`, which inserts a missing entry. -/
def withPath (addr : MacAddress) (now : ℤ) : MeshPaths :=
  match paths.find addr with
  | some _ => paths
  | none => paths.assign addr (MeshPath.create addr now)

/-- The live gates of the table as `(metric, address)` pairs. -/
def liveGates (now : MacAddress → ℤ) : List (UInt32 × MacAddress) :=
  (paths.entries.filter fun e => !e.2.expired (now e.1) && e.2.isGate).map fun e =>
    (e.2.metric, e.1)

/-- The order `std::sort` uses on the pairs. -/
def gateLe (a b : UInt32 × MacAddress) : Prop := a.1 < b.1 ∨ a.1 = b.1 ∧ a.2 ≤ b.2

instance : DecidableRel gateLe := fun _ _ => inferInstanceAs (Decidable (_ ∨ _))

/-- The number of better gates that makes another one redundant. -/
def maxNoGates (isGate : Bool) : ℕ :=
  if isGate then kMinGatewayRedundancy - 1 else kMinGatewayRedundancy

/-- `isStationInTopKGates`, given the node's `isGate_` and the reading at each entry. -/
def isStationInTopKGates (isGate : Bool) (now : MacAddress → ℤ) (mac : MacAddress) : Bool :=
  (((paths.liveGates now).insertionSort gateLe).take (maxNoGates isGate)).any fun g => g.2 = mac

/-- The number of other live gates that are no worse than `metric`. -/
def betterGates (now : MacAddress → ℤ) (origAddr : MacAddress) (metric : UInt32) : ℕ :=
  paths.entries.countP fun e =>
    e.2.dst ≠ origAddr && !e.2.expired (now e.1) && e.2.isGate && e.2.metric ≤ metric

variable {paths} {addr a : MacAddress} {now : ℤ} {p : MeshPath}

/-- An empty table has no paths. -/
@[simp] theorem find_empty : find ∅ a = none := AList.lookup_empty a

/-- An assigned path is found. -/
@[simp] theorem find_assign_self : (paths.assign addr p).find addr = some p :=
  AList.lookup_insert paths

/-- The other paths stay as they are. -/
theorem find_assign_of_ne (h : a ≠ addr) : (paths.assign addr p).find a = paths.find a :=
  AList.lookup_insert_ne h

/-- The paths that pass the test are kept. -/
theorem find_keep {test : MacAddress → MeshPath → Bool} :
    (paths.keep test).find a = some p ↔ paths.find a = some p ∧ test a p = true :=
  AList.mem_lookup_filterEntries

/-- The entries are what can be found. -/
theorem mem_entries : ⟨a, p⟩ ∈ paths.entries ↔ paths.find a = some p :=
  AList.mem_lookup_iff.symm

/-- `getMeshPath` leaves a path. -/
theorem find_withPath_self :
    (paths.withPath addr now).find addr = some (paths.pathOrNew addr now) := by
  unfold withPath pathOrNew
  cases h : paths.find addr <;> simp [h]

/-- It leaves the other paths as they are. -/
theorem find_withPath_of_ne (h : a ≠ addr) :
    (paths.withPath addr now).find a = paths.find a := by
  unfold withPath
  cases paths.find addr with
  | none => exact find_assign_of_ne h
  | some p => rfl

/-- A stored path is used. -/
theorem pathOrNew_of_find (h : paths.find addr = some p) : paths.pathOrNew addr now = p := by
  simp [pathOrNew, h]

/-- Without one a path is created. -/
theorem pathOrNew_of_find_eq_none (h : paths.find addr = none) :
    paths.pathOrNew addr now = MeshPath.create addr now := by
  simp [pathOrNew, h]

/-- Purging only removes entries. -/
theorem find_of_find_meshPathExpire {entryNow : MacAddress → ℤ}
    (h : (paths.meshPathExpire entryNow).find a = some p) : paths.find a = some p :=
  (find_keep.mp h).1

/-- Purging keeps every entry that is not expired. -/
theorem find_meshPathExpire_of_unexpired {entryNow : MacAddress → ℤ}
    (h : paths.find a = some p) (hlive : p.expired (entryNow a) = false) :
    (paths.meshPathExpire entryNow).find a = some p := by
  refine find_keep.mpr ⟨h, ?_⟩
  have hle := MeshPath.expired_eq_false.mp hlive
  have hpos : 0 < kMeshPathExpire := by decide
  simp only [Bool.not_eq_true', decide_eq_false_iff_not]
  omega

/-- At least one gate counts. -/
theorem maxNoGates_pos (isGate : Bool) : 0 < maxNoGates isGate := by
  cases isGate <;> decide

/-- The live gates with their metrics. -/
theorem mem_liveGates {entryNow : MacAddress → ℤ} {g : UInt32 × MacAddress} :
    g ∈ paths.liveGates entryNow ↔ ∃ q, paths.find g.2 = some q ∧
      q.expired (entryNow g.2) = false ∧ q.isGate = true ∧ q.metric = g.1 := by
  obtain ⟨metric, mac⟩ := g
  simp only [liveGates, List.mem_map, List.mem_filter, Bool.and_eq_true, Bool.not_eq_true',
    Prod.mk.injEq]
  constructor
  · rintro ⟨⟨b, q⟩, ⟨hmem, hlive, hgate⟩, rfl, rfl⟩
    exact ⟨q, mem_entries.mp hmem, hlive, hgate, rfl⟩
  · rintro ⟨q, hq, hlive, hgate, rfl⟩
    exact ⟨⟨mac, q⟩, ⟨mem_entries.mpr hq, hlive, hgate⟩, rfl, rfl⟩

/-- The only gate of a table is among the best ones. -/
theorem isStationInTopKGates_of_only {entryNow : MacAddress → ℤ}
    (honly : ∀ b q, paths.find b = some q → q.isGate = true → b = a)
    (hp : paths.find a = some p) (hgate : p.isGate = true)
    (hlive : p.expired (entryNow a) = false) (isGate : Bool) :
    paths.isStationInTopKGates isGate entryNow a = true := by
  have hmem : (p.metric, a) ∈ (paths.liveGates entryNow).insertionSort gateLe :=
    (List.mem_insertionSort gateLe).mpr (mem_liveGates.mpr ⟨p, hp, hlive, hgate, rfl⟩)
  unfold isStationInTopKGates
  cases hsort : (paths.liveGates entryNow).insertionSort gateLe with
  | nil => simp [hsort] at hmem
  | cons g rest =>
    have hg : g ∈ paths.liveGates entryNow := (List.mem_insertionSort gateLe).mp (by simp [hsort])
    obtain ⟨q, hq, -, hqgate, -⟩ := mem_liveGates.mp hg
    obtain ⟨k, hk⟩ := Nat.exists_eq_succ_of_ne_zero (maxNoGates_pos isGate).ne'
    simp [hk, honly g.2 q hq hqgate]

/-- Without other gates no gate is redundant. -/
theorem betterGates_eq_zero {entryNow : MacAddress → ℤ}
    (honly : ∀ b q, paths.find b = some q → q.isGate = true → q.dst = a) (metric : UInt32) :
    paths.betterGates entryNow a metric = 0 := by
  rw [betterGates, List.countP_eq_zero]
  rintro ⟨b, q⟩ hmem htrue
  simp only [Bool.and_eq_true, decide_eq_true_eq] at htrue
  exact htrue.1.1.1 (honly b q (mem_entries.mp hmem) htrue.1.2)

end MeshPaths

end Fbmeshd
