import Fbmeshd.Lib.HexText
import Fbmeshd.Routing.NodeRuns

/-!
# Exported paths

`dumpMpath` copies the mesh path table into thrift records. The lifetime of a path is exported as
an unsigned number of milliseconds, and the table holds paths whose lifetime is over.
-/

namespace Fbmeshd

/-- `u64NBO`: in memory the six octets follow two zero bytes, and a little-endian host reads
them as one integer. -/
def MacAddress.u64NBO (a : MacAddress) : UInt64 :=
  UInt64.ofNat ((List.range 6).foldl (fun n i => n * 256 + HexText.octet a.toNat i) 0 * 65536)

/-- `thrift::MpathEntry`. -/
structure MpathEntry where
  dest : UInt64
  nextHop : UInt64
  sn : UInt64
  metric : UInt32
  expTime : UInt64
  nextHopMetric : UInt32
  hopCount : UInt8
  isRoot : Bool
  isGate : Bool
  deriving DecidableEq

/-- The count of `duration_cast<milliseconds>`, which truncates toward zero. -/
def millisecondsCount (duration : ℤ) : ℤ := duration.tdiv 1000000

/-- The exported lifetime. The count becomes unsigned before it is compared with zero. -/
def exportedExpTime (expTime now : ℤ) : UInt64 :=
  let count := UInt64.ofInt (millisecondsCount (expTime - now))
  if 0 < count then count else 0

/-- The record of one entry of the table, given the clock reading made for it. -/
def MeshPath.toMpathEntry (addr : MacAddress) (mpath : MeshPath) (now : ℤ) : MpathEntry where
  dest := addr.u64NBO
  nextHop := mpath.nextHop.u64NBO
  sn := mpath.sn
  metric := mpath.metric
  expTime := exportedExpTime mpath.expTime now
  nextHopMetric := mpath.nextHopMetric
  hopCount := mpath.hopCount
  isRoot := mpath.isRoot
  isGate := mpath.isGate

/-- `MeshServiceHandler::dumpMpath`, given the reading made at each entry. Without a routing
component nothing is exported. -/
def dumpMpath (routing : Option Routing) (now : MacAddress → ℤ) : List MpathEntry :=
  match routing with
  | none => []
  | some r => r.meshPaths.entries.map fun e => e.2.toMpathEntry e.1 (now e.1)

/-- Every entry of the table is exported. -/
theorem mem_dumpMpath {r : Routing} {a : MacAddress} {p : MeshPath}
    (hp : r.meshPaths.find a = some p) (now : MacAddress → ℤ) :
    p.toMpathEntry a (now a) ∈ dumpMpath (some r) now :=
  List.mem_map.mpr ⟨⟨a, p⟩, AList.mem_lookup_iff.mp hp, rfl⟩

/-- The whole milliseconds a path still has to live. -/
def MeshPath.remaining (p : MeshPath) (now : ℤ) : ℕ := ((p.expTime - now) / 1000000).toNat

private theorem MeshPath.remaining_of_expired {p : MeshPath} {now : ℤ} (h : p.expired now = true) :
    p.remaining now = 0 := by
  rw [MeshPath.expired_eq_true] at h
  unfold MeshPath.remaining
  omega

/-- The difference of two time points fits the 64 bits of a `steady_clock::duration`. -/
def IsDuration (d : ℤ) : Prop := -2 ^ 63 ≤ d ∧ d < 2 ^ 63

section Lifetime

variable {expTime now : ℤ}

/-- The comparison with zero changes nothing. -/
theorem exportedExpTime_toNat (expTime now : ℤ) :
    (exportedExpTime expTime now).toNat =
      (millisecondsCount (expTime - now) % 2 ^ 64).toNat := by
  have hcount (x : ℤ) : (UInt64.ofInt x).toNat = (x % 2 ^ 64).toNat := by
    rw [UInt64.ofInt, UInt64.toNat_ofNat']
    omega
  unfold exportedExpTime
  dsimp only
  split
  · exact hcount _
  · next hzero =>
    rw [UInt64.lt_iff_toNat_lt, hcount] at hzero
    simp only [UInt64.toNat_zero] at hzero ⊢
    omega

/-- Less than a millisecond after its expiry, a path is still exported with the truth. -/
theorem exportedExpTime_of_lt (hdur : IsDuration (expTime - now))
    (h : now - expTime < 1000000) :
    (exportedExpTime expTime now).toNat = ((expTime - now) / 1000000).toNat := by
  obtain ⟨-, hmax⟩ := hdur
  rw [exportedExpTime_toNat, millisecondsCount]
  by_cases hlive : now ≤ expTime
  · rw [Int.tdiv_eq_ediv_of_nonneg (by omega)]
    omega
  · have hzero : (expTime - now).tdiv 1000000 = 0 := by
      rw [← Int.neg_neg (expTime - now), Int.neg_tdiv, Int.tdiv_eq_ediv_of_nonneg (by omega)]
      omega
    rw [hzero]
    omega

/-- From then on the negative count wraps around. -/
theorem exportedExpTime_of_le (hdur : IsDuration (expTime - now))
    (h : 1000000 ≤ now - expTime) :
    (exportedExpTime expTime now).toNat = 2 ^ 64 - ((now - expTime) / 1000000).toNat := by
  obtain ⟨hmin, -⟩ := hdur
  rw [exportedExpTime_toNat, millisecondsCount, ← Int.neg_neg (expTime - now), Int.neg_tdiv,
    Int.neg_sub, Int.tdiv_eq_ediv_of_nonneg (by omega)]
  omega

end Lifetime

namespace TracedNode

/-- No entry lives longer than `activePathTimeout_` from now on. -/
def LifetimeBounded (s : TracedNode) : Prop :=
  ∀ a p, s.node.meshPaths.find a = some p →
    p.expTime ≤ s.clock + milliseconds s.node.activePathTimeout

namespace LifetimeBounded

variable {s : TracedNode} {finish : ℤ}

/-- The entry a frame is tested against is a stored one or has just been created. -/
theorem testedPath_le (h : LifetimeBounded s) {clk : PannClock} {pann : MeshPathFramePANN}
    (hstart : s.clock ≤ finish) (hcreate : clk.create ≤ finish) :
    (s.node.testedPath clk pann).expTime ≤
      finish + milliseconds s.node.activePathTimeout := by
  unfold Routing.testedPath
  cases hold : s.node.meshPaths.find pann.origAddr with
  | none =>
    rw [MeshPaths.pathOrNew_of_find_eq_none hold]
    dsimp only [MeshPath.create, milliseconds]
    omega
  | some p =>
    rw [MeshPaths.pathOrNew_of_find hold]
    exact (h _ p hold).trans (by omega)

/-- A frame sets the expiry of its originator's entry only, from readings of its own. -/
theorem receive (h : LifetimeBounded s) {stas : LinkMetrics} {clk : PannClock} {sa : MacAddress}
    {pann : MeshPathFramePANN} (hclk : clk.Nondecreasing s.clock finish)
    (accepted : MacAddress → Option Acceptance) :
    LifetimeBounded ⟨finish, (s.node.hwmpPannFrameProcess stas clk sa pann).1, accepted⟩ := by
  have htimeout : (s.node.hwmpPannFrameProcess stas clk sa pann).1.activePathTimeout =
      s.node.activePathTimeout := by
    rw [Routing.process_fields]
  have hupdate : clk.update ≤ finish :=
    (hclk.update_le_topKGatesNew 0).trans (hclk.topKGatesNew_le_finish 0)
  have hcreate : clk.create ≤ finish :=
    calc clk.create ≤ clk.test := hclk.create_le_test
      _ ≤ clk.gateCount 0 :=
        (hclk.test_le_topKGatesOld 0).trans (hclk.topKGatesOld_le_gateCount 0 0)
      _ ≤ finish := (hclk.gateCount_le_update 0).trans hupdate
  have hstart : s.clock ≤ finish :=
    hclk.start_le_target.trans (hclk.target_le_create.trans hcreate)
  intro a p hp
  dsimp only at hp ⊢
  rw [htimeout]
  by_cases ha : a = pann.origAddr
  · subst ha
    obtain ⟨-, hsame⟩ | ⟨l, da, hc, ⟨hd, -⟩ | ⟨hd, -⟩⟩ :=
      Routing.process_cases stas clk sa pann s.node
    · rw [hsame] at hp
      exact (h _ p hp).trans (by omega)
    · obtain rfl := Option.some.inj ((Routing.process_find_of_discards hc hd).symm.trans hp)
      exact h.testedPath_le hstart hcreate
    · obtain rfl := Option.some.inj ((Routing.process_find_of_accepts hc hd).symm.trans hp)
      exact Int.add_le_add_right hupdate _
  · rw [Routing.process_find_of_ne stas clk sa s.node ha] at hp
    exact (h a p hp).trans (by omega)

private theorem internal (h : LifetimeBounded s) {e : InternalEvent}
    (htimed : e.Timed s.clock finish) (accepted : MacAddress → Option Acceptance) :
    LifetimeBounded ⟨finish, (e.apply s.node).1, accepted⟩ := by
  intro a p hp
  have htimeout := (e.apply_fields s.node).2.2
  have hle := htimed.le
  dsimp only at hp ⊢
  rw [e.apply_meshPaths] at hp
  have hold := h a p (InternalEvent.find_of_find_purge hp)
  rw [htimeout]
  omega

/-- The bound holds in every run. -/
theorem of_reachable (hreach : Reachable s) : LifetimeBounded s := by
  induction hreach with
  | init start r hempty =>
    intro a p hp
    simp [hempty] at hp
  | @step s e finish _ htimed ih =>
    cases e with
    | receive stas clk sa pann => exact ih.receive htimed _
    | internal e => exact ih.internal htimed _

end LifetimeBounded

variable {s : TracedNode}

/-- What a path has left to live at a later reading. -/
theorem remaining_le (hreach : Reachable s) {a : MacAddress} {p : MeshPath}
    (hp : s.node.meshPaths.find a = some p) {now : ℤ} (hnow : s.clock ≤ now) :
    p.remaining now ≤ s.node.activePathTimeout := by
  have hbound := LifetimeBounded.of_reachable hreach a p hp
  unfold milliseconds at hbound
  unfold MeshPath.remaining
  omega

/-- An entry of the table is exported with the whole milliseconds it still has to live, at most
`activePathTimeout_` and 0 when it has expired, exactly until a millisecond after its expiry. -/
theorem exported_lifetime_iff (hreach : Reachable s) {a : MacAddress} {p : MeshPath}
    (hp : s.node.meshPaths.find a = some p) (now : MacAddress → ℤ) (hnow : s.clock ≤ now a)
    (hdur : IsDuration (p.expTime - now a)) :
    p.toMpathEntry a (now a) ∈ dumpMpath (some s.node) now ∧
      ((p.toMpathEntry a (now a)).expTime.toNat = p.remaining (now a) ∧
        (p.expired (now a) = true → (p.toMpathEntry a (now a)).expTime = 0) ∧
        (p.toMpathEntry a (now a)).expTime.toNat ≤ s.node.activePathTimeout ↔
      now a - p.expTime < milliseconds 1) := by
  have hremaining : p.remaining (now a) = ((p.expTime - now a) / 1000000).toNat := rfl
  have hms : milliseconds 1 = 1000000 := rfl
  refine ⟨mem_dumpMpath hp now, ?_⟩
  dsimp only [MeshPath.toMpathEntry]
  rw [hms]
  constructor
  · rintro ⟨heq, -, -⟩
    by_contra hlate
    push Not at hlate
    rw [exportedExpTime_of_le hdur hlate] at heq
    obtain ⟨hmin, -⟩ := hdur
    omega
  · intro hlt
    have heq : (exportedExpTime p.expTime (now a)).toNat = p.remaining (now a) :=
      exportedExpTime_of_lt hdur hlt
    refine ⟨heq, ?_, heq.trans_le (remaining_le hreach hp hnow)⟩
    intro hexpired
    rw [MeshPath.remaining_of_expired hexpired] at heq
    exact UInt64.toNat_inj.mp heq

/-- A node that has accepted one frame five nanoseconds after it started, with a timeout of
thirty seconds. -/
theorem exists_accepted_path :
    ∃ s : TracedNode, Reachable s ∧ s.clock = 5 ∧ s.node.activePathTimeout = 30000 ∧
      ∃ p, s.node.meshPaths.find 2 = some p ∧ p.expTime = 30000000005 := by
  let r : Routing :=
    { nodeAddr := 1, elementTtl := 32, activePathTimeout := 30000, rootPannInterval := 5000 }
  let stas : LinkMetrics := fun a => if a = 3 then some 10 else none
  let pann : MeshPathFramePANN := ⟨2, 1, 1, 31, .BROADCAST, 20, false, false⟩
  let clk := Routing.clockAt 4 5
  have hclk : clk.Nondecreasing 0 5 := Routing.clockAt_nondecreasing (by decide) (by decide)
  have hreach := Reachable.step (e := .receive stas clk 3 pann) (.init 0 r rfl) hclk
  have htimeout : (r.hwmpPannFrameProcess stas clk 3 pann).1.activePathTimeout = 30000 := by
    rw [Routing.process_fields]
  have hp : (r.hwmpPannFrameProcess stas clk 3 pann).1.meshPaths.find 2 =
      some (Routing.updatePath (.create 2 4) 5 30000 3 pann 10) := by decide
  exact ⟨_, hreach, rfl, htimeout, _, hp, rfl⟩

/-- One second after the frame, twenty-nine seconds are exported. -/
theorem exported_lifetime_live :
    ∃ s : TracedNode, Reachable s ∧ ∃ p, s.node.meshPaths.find 2 = some p ∧
      (p.toMpathEntry 2 1000000005).expTime.toNat = 29000 := by
  obtain ⟨s, hreach, hclock, -, p, hp, hexp⟩ := exists_accepted_path
  have hnow : s.clock ≤ 1000000005 := by omega
  have hdur : IsDuration (p.expTime - 1000000005) := by
    rw [hexp]
    exact ⟨by decide, by decide⟩
  have hlt : 1000000005 - p.expTime < milliseconds 1 := by
    rw [hexp]
    decide
  have h := (exported_lifetime_iff hreach hp (fun _ => 1000000005) hnow hdur).2.mpr hlt
  refine ⟨s, hreach, p, hp, h.1.trans ?_⟩
  rw [MeshPath.remaining, hexp]
  decide

/-- One second after its expiry, when no housekeeping removes it yet, a path is exported with
a lifetime of half a billion years. -/
theorem expired_path_exported :
    ∃ s : TracedNode, Reachable s ∧ s.clock ≤ 31000000005 ∧ s.node.activePathTimeout = 30000 ∧
      ∃ p, s.node.meshPaths.find 2 = some p ∧ p.expired 31000000005 = true ∧
        p.toMpathEntry 2 31000000005 ∈ dumpMpath (some s.node) (fun _ => 31000000005) ∧
        (p.toMpathEntry 2 31000000005).expTime = 18446744073709550616 := by
  obtain ⟨s, hreach, hclock, htimeout, p, hp, hexp⟩ := exists_accepted_path
  refine ⟨s, hreach, by omega, htimeout, p, hp, ?_, mem_dumpMpath hp _, ?_⟩
  · rw [MeshPath.expired_eq_true]
    omega
  · dsimp only [MeshPath.toMpathEntry]
    rw [hexp]
    decide

end TracedNode

end Fbmeshd
