import Fbmeshd.Linkstatsd.Collector
import Mathlib.Algebra.Order.Field.Rat

/-!
# Rates of the next hop

Under the label `nexthop` the collector keeps one sample of a counter, whichever station it came
from. We follow which two samples the exported rate was computed from, and compare them with the
last two samples of the station that is the next hop. A history has the newest dump first.
-/

namespace Fbmeshd

/-- A dump during which the clock stands still. -/
structure StampedDump (M L K : Type*) extends StationDump M L K where
  stamp : K
  clock_eq : ∀ m l, clock m l = stamp

/-- A sample of a counter: of which station, in which dump, when, and the number. -/
structure Sample (L K : Type*) where
  link : L
  dump : ℕ
  time : K
  value : K
  deriving DecidableEq

variable {M L K : Type*} [DecidableEq M] [DecidableEq L]

namespace StampedDump

/-- The sample of a station, if the dump has one. -/
def sample (d : StampedDump M L K) (m : M) (number : ℕ) (mac : L) : Option (Sample L K) :=
  (d.value m mac).map fun value => ⟨mac, number, d.stamp, value⟩

/-- The sample of the next hop. -/
def nexthopSample (d : StampedDump M L K) (m : M) (number : ℕ) : Option (Sample L K) :=
  d.nexthop.bind (d.sample m number)

/-- The last sample of a station. -/
def lastSample (m : M) (mac : L) : List (StampedDump M L K) → Option (Sample L K)
  | [] => none
  | d :: before => (d.sample m before.length mac).orElse fun _ => lastSample m mac before

/-- The last sample of a next hop. -/
def lastNexthop (m : M) : List (StampedDump M L K) → Option (Sample L K)
  | [] => none
  | d :: before => (d.nexthopSample m before.length).orElse fun _ => lastNexthop m before

end StampedDump

open StampedDump

namespace Sample

variable [LinearOrder K]

/-- The counter has not been reset, and time has passed. -/
def Follows (cur prev : Sample L K) : Prop := prev.time < cur.time ∧ prev.value ≤ cur.value

instance (cur prev : Sample L K) : Decidable (cur.Follows prev) :=
  inferInstanceAs (Decidable (_ ∧ _))

/-- The samples that a rate is computed from. -/
def pair (cur prev : Sample L K) : Option (Sample L K × Sample L K) :=
  if cur.Follows prev then some (prev, cur) else none

/-- The rate between two samples. -/
def rate [Field K] (p : Sample L K × Sample L K) : K :=
  (p.2.value - p.1.value) / (p.2.time - p.1.time)

omit [DecidableEq L] in
private theorem rateSince_eq [Field K] (prev cur : Sample L K) :
    Collector.rateSince (prev.time, prev.value) cur.value cur.time =
      (cur.pair prev).map rate := by
  by_cases h : cur.Follows prev
  · rw [pair, if_pos h]
    exact if_pos h
  · rw [pair, if_neg h]
    exact if_neg h

omit [DecidableEq L] in
private theorem bind_pair_eq_some_iff {cur : Sample L K} {o : Option (Sample L K)}
    {p : Sample L K × Sample L K} :
    o.bind cur.pair = some p ↔ ∃ prev, o = some prev ∧ cur.Follows prev ∧ (prev, cur) = p := by
  simp only [Option.bind_eq_some_iff, pair, Option.ite_none_right_eq_some, Option.some.injEq]

omit [DecidableEq L] in
private theorem bind_pair_eq_none_iff {cur : Sample L K} {o : Option (Sample L K)} :
    o.bind cur.pair = none ↔ ∀ prev, o = some prev → ¬cur.Follows prev := by
  simp [Option.bind_eq_none_iff, pair]

omit [DecidableEq L] in
/-- When a rate since one sample, or else an older rate, is the rate since another sample. -/
theorem orElse_pair_eq_iff {cur : Sample L K} {kept own : Option (Sample L K)}
    {old : Option (Sample L K × Sample L K)} (hold : ∀ p, old = some p → p.2 ≠ cur) :
    (kept.bind cur.pair).orElse (fun _ => old) = own.bind cur.pair ↔
      (∀ prev, kept = some prev → cur.Follows prev → own = some prev) ∧
        ((∀ prev, kept = some prev → ¬cur.Follows prev) →
          old = none ∧ ∀ prev, own = some prev → ¬cur.Follows prev) := by
  by_cases hkept : ∀ prev, kept = some prev → ¬cur.Follows prev
  · rw [bind_pair_eq_none_iff.mpr hkept]
    constructor
    · intro h
      refine ⟨fun prev hprev hf => absurd hf (hkept prev hprev), fun _ => ?_⟩
      have hnone : old = none := by
        cases hp : old with
        | none => rfl
        | some p =>
          obtain ⟨prev, -, -, hpair⟩ := bind_pair_eq_some_iff.mp (h.symm.trans hp)
          exact absurd (congrArg Prod.snd hpair.symm) (hold p hp)
      exact ⟨hnone, bind_pair_eq_none_iff.mp (h.symm.trans hnone)⟩
    · rintro ⟨-, h⟩
      obtain ⟨hnone, hown⟩ := h hkept
      rw [bind_pair_eq_none_iff.mpr hown]
      exact hnone
  · push Not at hkept
    obtain ⟨prev, hprev, hf⟩ := hkept
    have hpair : kept.bind cur.pair = some (prev, cur) :=
      bind_pair_eq_some_iff.mpr ⟨prev, hprev, hf, rfl⟩
    rw [hpair]
    constructor
    · intro h
      obtain ⟨prev', hown, -, heq⟩ := bind_pair_eq_some_iff.mp h.symm
      refine ⟨fun prev'' h' _ => ?_, fun h' => absurd hf (h' prev hprev)⟩
      rw [hown, (Prod.mk.inj heq).1, ← hprev, h']
    · rintro ⟨h, -⟩
      exact (bind_pair_eq_some_iff.mpr ⟨prev, h prev hprev hf, hf, rfl⟩).symm

end Sample

namespace Collector

section Histories

variable [LinearOrder K]

/-- The samples that the rate exported for the next hop was computed from. Without a rate, the one
exported before stays, as it does after a dump without the metric. -/
def exportedFrom (m : M) : List (StampedDump M L K) → Option (Sample L K × Sample L K)
  | [] => none
  | d :: before =>
    if m ∈ d.stats then
      (d.nexthopSample m before.length).bind fun cur =>
        ((lastNexthop m before).bind cur.pair).orElse fun _ => exportedFrom m before
    else exportedFrom m before

/-- The sample of the next hop and the sample before of the same station. -/
def ownSamples (m : M) (d : StampedDump M L K) (before : List (StampedDump M L K)) :
    Option (Sample L K × Sample L K) :=
  (d.nexthopSample m before.length).bind fun cur => (lastSample m cur.link before).bind cur.pair

/-- The last sample of a next hop is the last one of this next hop, unless it gives no rate. Then
its own gives none either, and none is left from before, which a dump without the metric would
leave too. -/
def FollowsNexthop (m : M) (d : StampedDump M L K) (before : List (StampedDump M L K)) : Prop :=
  (m ∉ d.stats → exportedFrom m before = none) ∧
    ∀ cur, d.nexthopSample m before.length = some cur →
      (∀ prev, lastNexthop m before = some prev → cur.Follows prev →
        lastSample m cur.link before = some prev) ∧
      ((∀ prev, lastNexthop m before = some prev → ¬cur.Follows prev) →
        exportedFrom m before = none ∧
          ∀ prev, lastSample m cur.link before = some prev → ¬cur.Follows prev)

variable {m : M} {d : StampedDump M L K} {before : List (StampedDump M L K)}

omit [LinearOrder K] in
private theorem link_lastSample {mac : L} {s : Sample L K} (h : lastSample m mac before = some s) :
    s.link = mac := by
  induction before with
  | nil => simp [lastSample] at h
  | cons d before ih =>
    rw [lastSample] at h
    cases hs : d.sample m before.length mac with
    | none =>
      rw [hs] at h
      exact ih h
    | some s' =>
      rw [hs] at h
      obtain ⟨v, -, hv⟩ := Option.map_eq_some_iff.mp hs
      rw [← Option.some.inj h, ← hv]

/-- The rate of the next hop is between samples of one station. -/
theorem link_ownSamples {p : Sample L K × Sample L K} (h : ownSamples m d before = some p) :
    p.1.link = p.2.link := by
  obtain ⟨cur, -, h⟩ := Option.bind_eq_some_iff.mp h
  obtain ⟨prev, hprev, -, rfl⟩ := Sample.bind_pair_eq_some_iff.mp h
  exact link_lastSample hprev

omit [LinearOrder K] in
private theorem nexthopSample_of_notMem (hm : m ∉ d.stats) (number : ℕ) :
    d.nexthopSample m number = none := by
  have hlookup : d.stats.lookup m = none := AList.lookup_eq_none.mpr hm
  cases hn : d.nexthop <;> simp [nexthopSample, sample, StationDump.value, hn, hlookup]

omit [LinearOrder K] in
private theorem nexthopSample_spec {number : ℕ} {cur : Sample L K}
    (h : d.nexthopSample m number = some cur) : cur.dump = number ∧ cur.time = d.stamp := by
  obtain ⟨mac, -, hmac⟩ := Option.bind_eq_some_iff.mp h
  obtain ⟨v, -, rfl⟩ := Option.map_eq_some_iff.mp hmac
  exact ⟨rfl, rfl⟩

/-- What was exported comes from a dump of the history. -/
theorem dump_exportedFrom_lt {p : Sample L K × Sample L K} (h : exportedFrom m before = some p) :
    p.2.dump < before.length := by
  induction before with
  | nil => simp [exportedFrom] at h
  | cons d before ih =>
    rw [exportedFrom] at h
    split at h
    · obtain ⟨cur, hcur, h⟩ := Option.bind_eq_some_iff.mp h
      cases hpair : (lastNexthop m before).bind cur.pair with
      | none =>
        rw [hpair] at h
        exact (ih h).trans (by simp)
      | some q =>
        rw [hpair] at h
        obtain ⟨prev, -, -, rfl⟩ := Sample.bind_pair_eq_some_iff.mp hpair
        obtain rfl : (prev, cur) = p := Option.some.inj h
        simp [(nexthopSample_spec hcur).1]
    · exact (ih h).trans (by simp)

private theorem exportedFrom_eq_ownSamples_iff :
    exportedFrom m (d :: before) = ownSamples m d before ↔ FollowsNexthop m d before := by
  unfold FollowsNexthop
  unfold ownSamples
  rw [exportedFrom]
  by_cases hm : m ∈ d.stats
  · rw [if_pos hm]
    cases hcur : d.nexthopSample m before.length with
    | none => simp [hm]
    | some cur =>
      have hold (p : Sample L K × Sample L K) (hp : exportedFrom m before = some p) :
          p.2 ≠ cur := by
        intro h
        have hlt := dump_exportedFrom_lt hp
        rw [h, (nexthopSample_spec hcur).1] at hlt
        omega
      simp only [Option.bind_some, hm, not_true_eq_false, false_implies, true_and,
        Option.some.injEq, forall_eq']
      exact Sample.orElse_pair_eq_iff hold
  · have hnone := nexthopSample_of_notMem hm before.length
    simp [hm, hnone]

end Histories

section Runs

variable [Field K] [LinearOrder K] {T : MetricTables M} {m : M}

/-- The collector after a history. -/
def history (T : MetricTables M) (ds : List (StampedDump M L K)) : Collector M L K :=
  run T (ds.reverse.map StampedDump.toStationDump)

private theorem history_cons (d : StampedDump M L K) (before : List (StampedDump M L K)) :
    history T (d :: before) = (history T before).parseMesh0StationDump T d.toStationDump := by
  rw [history, List.reverse_cons, List.map_append]
  exact run_append T _ _

omit [Field K] [LinearOrder K] in
private theorem sampled_nexthop {d : StampedDump M L K} {ls : AList fun _ : L => K}
    (hls : d.stats.lookup m = some ls) (number : ℕ) :
    sampled d.toStationDump ls .nexthop = (d.nexthopSample m number).map Sample.value := by
  unfold sampled nexthopSample
  cases d.nexthop with
  | none => rfl
  | some mac =>
    simp only [Option.bind_some, sample, StationDump.value, hls, Option.map_map]
    exact (Option.map_id' ..).symm

/-- The sample kept under the label is the last one of a next hop. -/
theorem samples_history_nexthop (hm : T.kind m = some .delta) (ds : List (StampedDump M L K)) :
    (history T ds).samples m .nexthop =
      (lastNexthop m ds).map fun s => (s.time, s.value) := by
  induction ds with
  | nil => rfl
  | cons d before ih =>
    rw [history_cons, samples_parseMesh0StationDump, lastNexthop]
    cases hls : d.stats.lookup m with
    | none =>
      rw [nexthopSample_of_notMem (AList.lookup_eq_none.mp hls)]
      exact ih
    | some ls =>
      simp only [Option.elim, nextSamples, hm, if_true, sampled_nexthop hls before.length, ih]
      cases hcur : d.nexthopSample m before.length with
      | none => rfl
      | some cur =>
        simp [d.clock_eq, (nexthopSample_spec hcur).2]

variable [IsStrictOrderedRing K]

private theorem gauges_history_nexthop (hm : T.kind m = some .delta)
    (ds : List (StampedDump M L K)) :
    (history T ds).gauges m .nexthop = (exportedFrom m ds).map Sample.rate := by
  have hpct : m ≠ T.rxDropMiscPct := by
    rintro rfl
    simp [T.pct_abs] at hm
  induction ds with
  | nil => rfl
  | cons d before ih =>
    rw [history_cons, gauges_parseMesh0StationDump_nexthop hpct, exportedFrom]
    cases hls : d.stats.lookup m with
    | none =>
      rw [if_neg (AList.lookup_eq_none.mp hls)]
      exact ih
    | some ls =>
      have hmem : m ∈ d.stats := AList.lookup_isSome.mp (by simp [hls])
      simp only [Option.elim, nextGauges, if_true, sampled_nexthop hls before.length, hm, ih,
        if_pos hmem, samples_history_nexthop hm]
      cases hcur : d.nexthopSample m before.length with
      | none => rfl
      | some cur =>
        have hrate : availableValue (some .delta)
            ((lastNexthop m before).map fun s => (s.time, s.value)) cur.value
            (d.clock m .nexthop) = ((lastNexthop m before).bind cur.pair).map Sample.rate := by
          rw [d.clock_eq, ← (nexthopSample_spec hcur).2]
          cases lastNexthop m before with
          | none => rfl
          | some prev => exact Sample.rateSince_eq prev cur
        simp only [Option.map_some, Option.bind_some, hrate]
        cases (lastNexthop m before).bind cur.pair <;> rfl

/-- The value exported for the next hop is a rate between two samples. They are the last two of the
station that is the next hop only if the samples before follow it. -/
theorem nexthop_rate_iff (hm : T.kind m = some .delta) (d : StampedDump M L K)
    (before : List (StampedDump M L K)) :
    (history T (d :: before)).gauges m .nexthop =
        (exportedFrom m (d :: before)).map Sample.rate ∧
      (∀ p, ownSamples m d before = some p → p.1.link = p.2.link) ∧
      (exportedFrom m (d :: before) = ownSamples m d before ↔ FollowsNexthop m d before) :=
  ⟨gauges_history_nexthop hm _, fun _ => link_ownSamples, exportedFrom_eq_ownSamples_iff⟩

end Runs

/-- A dump of the bytes received from two stations, with the next hop. -/
def bytesDump (time first second : ℚ) (nexthop : String) : StampedDump String String ℚ where
  stats := (∅ : AList _).insert "rx bytes"
    (((∅ : AList _).insert "420000000200" second).insert "420000000100" first)
  stationCount := 2
  estabCount := 2
  nexthopMacSources := [nexthop]
  clock _ _ := time
  stamp := time
  clock_eq _ _ := rfl

/-- A rate of the next hop between two dumps. -/
theorem steady_nexthop_rate :
    let before := bytesDump 0 500 0 "420000000100"
    let now := bytesDump 2 900 0 "420000000100"
    (history metricTables [now, before]).gauges "rx bytes" .nexthop = some 200 ∧
      exportedFrom "rx bytes" [now, before] = ownSamples "rx bytes" now [before] := by
  intro before now
  obtain ⟨hgauge, -, hown⟩ := nexthop_rate_iff (T := metricTables) (m := "rx bytes") (by decide)
    now [before]
  have hlast : lastNexthop "rx bytes" [before] = some ⟨"420000000100", 0, 0, 500⟩ := by
    decide +kernel
  have hcur : now.nexthopSample "rx bytes" 1 = some ⟨"420000000100", 1, 2, 900⟩ := by
    decide +kernel
  refine ⟨hgauge.trans (by decide +kernel), hown.mpr ⟨fun h => absurd (by decide) h, ?_⟩⟩
  intro cur h
  obtain rfl := Option.some.inj (hcur.symm.trans h)
  refine ⟨fun prev hprev _ => ?_, fun h => absurd (by decide +kernel) (h _ hlast)⟩
  obtain rfl := Option.some.inj (hlast.symm.trans hprev)
  decide +kernel

/-- When the next hop changes, the rate is the difference of the counters of two stations. -/
theorem changed_nexthop_rate :
    let before := bytesDump 0 500 0 "420000000100"
    let now := bytesDump 2 500 900 "420000000200"
    exportedFrom "rx bytes" [now, before] =
        some (⟨"420000000100", 0, 0, 500⟩, ⟨"420000000200", 1, 2, 900⟩) ∧
      (history metricTables [now, before]).gauges "rx bytes" .nexthop = some 200 ∧
      (ownSamples "rx bytes" now [before]).map Sample.rate = some 450 := by
  decide +kernel

end Collector

end Fbmeshd
