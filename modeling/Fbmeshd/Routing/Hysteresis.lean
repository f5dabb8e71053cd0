import Fbmeshd.Routing.MetricRuns

/-!
# Hysteresis of the reported metric

`getLinkMetric` reports an old average as long as the current one stays in a band around it. For
the factors and samples in use the band is computed without wrapping, so between two queries of
a station the reply changes only if the average left the band of the first.
-/

namespace Fbmeshd

namespace Metric

variable {f h n : UInt32} {m : Metric}

/-! ## The band around the reported metric -/

/-- The average differs from the reported metric by at most the hysteresis. -/
def InBand (h reported average : UInt32) : Prop :=
  average.toNat ≤ reported.toNat + (reported >>> h).toNat ∧
    reported.toNat ≤ average.toNat + (reported >>> h).toNat

instance (h reported average : UInt32) : Decidable (InBand h reported average) :=
  inferInstanceAs (Decidable (_ ∧ _))

private theorem inBand_self (a : UInt32) :
    InBand h a a := ⟨Nat.le_add_right _ _, Nat.le_add_right _ _⟩

private theorem inBand_zero {a : UInt32} : InBand h 0 a ↔ a = 0 := by
  unfold InBand
  rw [UInt32.zero_shiftRight, UInt32.toNat_zero, ← UInt32.toNat_inj, UInt32.toNat_zero]
  omega

private theorem toNat_shiftRight_le (a : UInt32) : (a >>> h).toNat ≤ a.toNat := by
  rw [UInt32.toNat_shiftRight, Nat.shiftRight_eq_div_pow]
  exact Nat.div_le_self _ _

/-- The test of `getLinkMetric`, as long as its sum does not wrap. -/
theorem outside_iff {r a : UInt32} (hfit : r.toNat + (r >>> h).toNat < 2 ^ 32) :
    (a > r + r >>> h ∨ a < r - r >>> h) ↔ ¬ InBand h r a := by
  have hle := toNat_shiftRight_le (h := h) r
  have hsub : (r - r >>> h).toNat = r.toNat - (r >>> h).toNat := UInt32.toNat_sub_of_le _ _ hle
  unfold InBand
  rw [gt_iff_lt, UInt32.lt_iff_toNat_lt, UInt32.lt_iff_toNat_lt, hsub, UInt32.toNat_add,
    Nat.mod_eq_of_lt hfit]
  omega

/-- `getLinkMetric` keeps the reported metric while the average is in its band. The value zero,
which stands for a metric that was never reported, needs no case of its own. -/
theorem report_eq
    (hfit : m.adopt.reportedMetric.toNat + (m.adopt.reportedMetric >>> h).toNat < 2 ^ 32) :
    m.report h =
      if InBand h m.reportedMetric m.ewmaMetric then m
      else { m with reportedMetric := m.ewmaMetric } := by
  simp only [report, outside_iff hfit]
  unfold adopt
  by_cases hzero : m.reportedMetric = 0
  · rw [if_pos hzero, if_neg (not_not.mpr (inBand_self _)), hzero]
    split
    · have hsame : m.ewmaMetric = m.reportedMetric := (inBand_zero.mp ‹_›).trans hzero.symm
      exact congrArg (fun r => ({ m with reportedMetric := r } : Metric)) hsame
    · rfl
  · rw [if_neg hzero, ite_not]

/-! ## Bounds that keep the test from wrapping -/

/-- Factors for which the test does not wrap. -/
structure Factors (f h : UInt32) : Prop where
  ewma_le : f.toNat ≤ 16
  one_le : 1 ≤ h.toNat
  hysteresis_le : h.toNat ≤ 31

/-- Both metrics are at most the scaled airtime of the slowest link. -/
def Bounded (f : UInt32) (m : Metric) : Prop :=
  m.ewmaMetric.toNat ≤ 40961 * 2 ^ f.toNat ∧ m.reportedMetric.toNat ≤ 40961 * 2 ^ f.toNat

private theorem Factors.band_lt {r : UInt32} (hfac : Factors f h)
    (hr : r.toNat ≤ 40961 * 2 ^ f.toNat) : r.toNat + (r >>> h).toNat < 2 ^ 32 := by
  obtain ⟨hf, hone, hle⟩ := hfac
  have hscale : 2 ^ f.toNat ≤ 2 ^ 16 := Nat.pow_le_pow_right (by decide) hf
  have hhalf : (r >>> h).toNat ≤ r.toNat / 2 := by
    rw [toNat_shiftRight (by omega)]
    exact Nat.div_le_div_left (Nat.le_self_pow (by omega) 2) (by decide)
  omega

private theorem Bounded.adopt (hm : m.Bounded f) :
    m.adopt.reportedMetric.toNat ≤ 40961 * 2 ^ f.toNat := by
  unfold Metric.adopt
  split
  · exact hm.1
  · exact hm.2

private theorem Bounded.report_eq (hm : m.Bounded f) (hfac : Factors f h) :
    m.report h =
      if InBand h m.reportedMetric m.ewmaMetric then m
      else { m with reportedMetric := m.ewmaMetric } :=
  Metric.report_eq (hfac.band_lt hm.adopt)

private theorem Bounded.report (hm : m.Bounded f) (hfac : Factors f h) :
    (m.report h).Bounded f := by
  rw [hm.report_eq hfac]
  split
  · exact hm
  · exact ⟨hm.1, hm.1⟩

private theorem Bounded.inBand_report (hm : m.Bounded f) (hfac : Factors f h) :
    InBand h (m.report h).reportedMetric (m.report h).ewmaMetric := by
  rw [hm.report_eq hfac]
  split
  · assumption
  · exact inBand_self _

private theorem sample_fits (hf : f.toNat ≤ 16) (hn : n.toNat ≤ 40961) :
    n.toNat < 2 ^ (32 - f.toNat) := by
  have hscale : 2 ^ 16 ≤ 2 ^ (32 - f.toNat) := Nat.pow_le_pow_right (by decide) (by omega)
  omega

private theorem Bounded.addSample (hm : m.Bounded f) (hf : f.toNat ≤ 16) (hn : n.toNat ≤ 40961) :
    (m.addSample f n).Bounded f := by
  constructor
  · rw [toNat_addSample (by omega) (sample_fits hf hn)]
    exact Ewma.iterate_step_le_mul (Nat.two_pow_pos _) hn hm.1 _
  · rw [addSample_reportedMetric]
    exact hm.2

private theorem bounded_first (hf : f.toNat ≤ 16) (hn : n.toNat ≤ 40961) :
    (first f n).Bounded f := by
  constructor
  · rw [toNat_first (by omega) (sample_fits hf hn)]
    exact Nat.mul_le_mul_right _ hn
  · exact Nat.zero_le _

end Metric

namespace MetricManager80211s

variable {cfg : MetricManager80211s}

private theorem bounded_stationStep (hfac : Metric.Factors cfg.ewmaFactor cfg.hysteresisFactor)
    {entry : Option Metric} {e : StationEvent}
    (hentry : ∀ m ∈ entry, m.Bounded cfg.ewmaFactor)
    (he : ∀ n ∈ e.newMetric, n.toNat ≤ 40961) :
    ∀ m ∈ cfg.stationStep entry e, m.Bounded cfg.ewmaFactor := by
  intro m hm
  cases e with
  | sample n =>
    obtain rfl := Option.some.inj hm
    have hn := he n rfl
    refine Metric.Bounded.addSample ?_ hfac.ewma_le hn
    cases entry with
    | none => exact Metric.bounded_first hfac.ewma_le hn
    | some m => exact hentry m rfl
  | query =>
    obtain ⟨m₀, hm₀, rfl⟩ := Option.map_eq_some_iff.mp hm
    exact (hentry m₀ hm₀).report hfac

private theorem bounded_foldl (hfac : Metric.Factors cfg.ewmaFactor cfg.hysteresisFactor)
    {entry : Option Metric} {es : List StationEvent}
    (hentry : ∀ m ∈ entry, m.Bounded cfg.ewmaFactor)
    (hes : ∀ n ∈ es.filterMap StationEvent.newMetric, n.toNat ≤ 40961) :
    ∀ m ∈ es.foldl cfg.stationStep entry, m.Bounded cfg.ewmaFactor := by
  induction es generalizing entry with
  | nil => exact hentry
  | cons e es ih =>
    have hhead : ∀ n ∈ e.newMetric, n.toNat ≤ 40961 := fun n hn =>
      hes n (List.mem_filterMap.mpr ⟨e, List.mem_cons_self, hn⟩)
    refine ih (bounded_stationStep hfac hentry hhead) fun n hn => ?_
    obtain ⟨e', he', hn'⟩ := List.mem_filterMap.mp hn
    exact hes n (List.mem_filterMap.mpr ⟨e', List.mem_cons_of_mem e he', hn'⟩)

/-- After its first sample a station has an entry with bounded metrics. -/
theorem exists_bounded_entry (hfac : Metric.Factors cfg.ewmaFactor cfg.hysteresisFactor)
    {mac : MacAddress} {es : List MetricEvent} (hes : ∀ n ∈ samplesOf mac es, n.toNat ≤ 40961)
    (hne : samplesOf mac es ≠ []) :
    ∃ m, (cfg.run es ∅).lookup mac = some m ∧ m.Bounded cfg.ewmaFactor := by
  have hf : cfg.ewmaFactor.toNat < 32 := Nat.lt_of_le_of_lt hfac.ewma_le (by decide)
  obtain ⟨m, hm, -⟩ := exists_tracked hf
    (fun n hn => Metric.sample_fits hfac.ewma_le (hes n hn)) hne
  have hbounded : ∀ m ∈ (stationEvents mac es).foldl cfg.stationStep none,
      m.Bounded cfg.ewmaFactor := bounded_foldl hfac (by simp) hes
  refine ⟨m, hm, hbounded m ?_⟩
  rwa [lookup_run, AList.lookup_empty] at hm

/-! ## Queries -/

private theorem getLinkMetric_of_lookup {sta : StationInfo} {metrics : Metrics} {m : Metric}
    (hm : metrics.lookup sta.macAddress = some m) :
    cfg.getLinkMetric sta metrics =
      ((m.report cfg.hysteresisFactor).reportedMetric >>> cfg.ewmaFactor,
        metrics.insert sta.macAddress (m.report cfg.hysteresisFactor)) := by
  simp only [getLinkMetric, hm]

/-- Samples leave the reported metric alone. -/
theorem foldl_stationStep_samples {es : List StationEvent} (hes : .query ∉ es) (m : Metric) :
    ∃ m', es.foldl cfg.stationStep (some m) = some m' ∧ m'.reportedMetric = m.reportedMetric := by
  induction es generalizing m with
  | nil => exact ⟨m, rfl, rfl⟩
  | cons e es ih =>
    cases e with
    | sample n =>
      obtain ⟨m', hrun, hreported⟩ :=
        ih (fun h => hes (List.mem_cons_of_mem _ h)) (m.addSample cfg.ewmaFactor n)
      exact ⟨m', hrun, hreported.trans Metric.addSample_reportedMetric⟩
    | query => exact absurd List.mem_cons_self hes

/-- Queries leave an entry alone whose average is in its band. -/
theorem foldl_stationStep_queries {m : Metric}
    (hreport : m.report cfg.hysteresisFactor = m) {es : List StationEvent}
    (hes : es.filterMap StationEvent.newMetric = []) :
    es.foldl cfg.stationStep (some m) = some m := by
  induction es with
  | nil => rfl
  | cons e es ih =>
    cases e with
    | sample n => simp [StationEvent.newMetric] at hes
    | query =>
      rw [List.foldl_cons, show cfg.stationStep (some m) .query = some m from congrArg some hreport]
      exact ih hes

/-- Between two queries of a station the reported metric is the one the first left. -/
theorem reportedMetric_since_query {sta : StationInfo} {mac : MacAddress} {m₁ m : Metric}
    {before since : List MetricEvent} (hsta : sta.macAddress = mac)
    (hm₁ : (cfg.run before ∅).lookup mac = some m₁) (hsince : .query ∉ stationEvents mac since)
    (hm : (cfg.run (before ++ .query sta :: since) ∅).lookup mac = some m) :
    m.reportedMetric = (m₁.report cfg.hysteresisFactor).reportedMetric := by
  obtain ⟨m', hrun, hreported⟩ :=
    foldl_stationStep_samples hsince (m₁.report cfg.hysteresisFactor)
  rw [run_append, lookup_run, hm₁, stationEvents, List.filterMap_cons,
    show MetricEvent.forStation mac (.query sta) = some .query from if_pos hsta,
    List.foldl_cons] at hm
  obtain rfl : m' = m := Option.some.inj (hrun.symm.trans hm)
  exact hreported

/-- A query with no sample since the last one finds the entry that it would leave. -/
theorem getLinkMetric_again {m : Metric} (hagain : m.report cfg.hysteresisFactor = m)
    {metrics : Metrics} {mac : MacAddress} (hm : metrics.lookup mac = some m)
    {between : List MetricEvent} (hbetween : samplesOf mac between = []) {next : StationInfo}
    (hnext : next.macAddress = mac) :
    (cfg.getLinkMetric next (cfg.run between metrics)).1 = m.reportedMetric >>> cfg.ewmaFactor ∧
      ∀ mac', (cfg.getLinkMetric next (cfg.run between metrics)).2.lookup mac' =
        (cfg.run between metrics).lookup mac' := by
  have hkept : (cfg.run between metrics).lookup next.macAddress = some m := by
    rw [hnext, lookup_run, hm]
    exact foldl_stationStep_queries hagain hbetween
  rw [getLinkMetric_of_lookup hkept, hagain]
  refine ⟨rfl, fun mac' => ?_⟩
  by_cases hmac : mac' = next.macAddress
  · rw [hmac, AList.lookup_insert, hkept]
  · exact AList.lookup_insert_ne hmac

/-- The hysteresis of `getLinkMetric` over all runs of samples and queries. -/
theorem getLinkMetric_hysteresis (cfg : MetricManager80211s) (sta : StationInfo)
    (es : List MetricEvent) (hf : cfg.ewmaFactor.toNat ≤ 16)
    (hone : 1 ≤ cfg.hysteresisFactor.toNat) (hle : cfg.hysteresisFactor.toNat ≤ 31)
    (hes : ∀ n ∈ samplesOf sta.macAddress es, n.toNat ≤ 40961)
    (hne : samplesOf sta.macAddress es ≠ []) :
    let reply := cfg.getLinkMetric sta (cfg.run es ∅)
    ∃ m m', (cfg.run es ∅).lookup sta.macAddress = some m ∧
      reply.2.lookup sta.macAddress = some m' ∧ m'.ewmaMetric = m.ewmaMetric ∧
      -- the average is in the band afterwards
      Metric.InBand cfg.hysteresisFactor m'.reportedMetric m'.ewmaMetric ∧
      -- the sum of the test is exact
      m.adopt.reportedMetric.toNat + (m.adopt.reportedMetric >>> cfg.hysteresisFactor).toNat <
        2 ^ 32 ∧
      -- a reply other than the previous one means that the average left the previous band
      (∀ before previous since, es = before ++ .query previous :: since →
        previous.macAddress = sta.macAddress → samplesOf sta.macAddress before ≠ [] →
        .query ∉ stationEvents sta.macAddress since →
        let old := cfg.getLinkMetric previous (cfg.run before ∅)
        ∃ m₀, old.2.lookup sta.macAddress = some m₀ ∧
          (reply.1 ≠ old.1 → ¬ Metric.InBand cfg.hysteresisFactor m₀.reportedMetric m.ewmaMetric)) ∧
      -- a query with no sample since has the same reply and changes no entry
      ∀ between next, samplesOf sta.macAddress between = [] → next.macAddress = sta.macAddress →
        (cfg.getLinkMetric next (cfg.run between reply.2)).1 = reply.1 ∧
        ∀ mac, (cfg.getLinkMetric next (cfg.run between reply.2)).2.lookup mac =
          (cfg.run between reply.2).lookup mac := by
  have hfac : Metric.Factors cfg.ewmaFactor cfg.hysteresisFactor := ⟨hf, hone, hle⟩
  obtain ⟨m, hm, hbounded⟩ := exists_bounded_entry hfac hes hne
  intro reply
  have hreply : reply = _ := getLinkMetric_of_lookup hm
  have hstored : reply.2.lookup sta.macAddress = some (m.report cfg.hysteresisFactor) := by
    rw [hreply]
    exact AList.lookup_insert _
  have hband := hbounded.inBand_report hfac
  refine ⟨m, _, hm, hstored, Metric.report_ewmaMetric, hband, hfac.band_lt hbounded.adopt, ?_, ?_⟩
  · intro before previous since hsplit hprevious hbefore hsince old
    have hsamples : ∀ n ∈ samplesOf sta.macAddress before, n.toNat ≤ 40961 := fun n hn => by
      rw [hsplit, samplesOf_append] at hes
      exact hes n (List.mem_append_left _ hn)
    obtain ⟨m₁, hm₁, hbounded₁⟩ := exists_bounded_entry hfac hsamples hbefore
    have hold : old = _ := getLinkMetric_of_lookup (hprevious ▸ hm₁)
    refine ⟨m₁.report cfg.hysteresisFactor, ?_, ?_⟩
    · rw [hold, ← hprevious]
      exact AList.lookup_insert _
    · intro hchanged hin
      have hreported := reportedMetric_since_query hprevious hm₁ hsince (hsplit ▸ hm)
      rw [← hreported] at hin
      apply hchanged
      rw [hreply, hold, hbounded.report_eq hfac, if_pos hin, hreported]
  · intro between next hbetween hnext
    have hagain : (m.report cfg.hysteresisFactor).report cfg.hysteresisFactor =
        m.report cfg.hysteresisFactor := by
      rw [(hbounded.report hfac).report_eq hfac, if_pos hband]
    obtain ⟨hsame, hentries⟩ := getLinkMetric_again hagain hstored hbetween hnext
    exact ⟨hsame.trans (by rw [hreply]), hentries⟩

/-- A sample that takes the average out of the band is reported by the next query. -/
theorem jump_is_reported :
    let cfg : MetricManager80211s := ⟨3, 2, 60, fun bitrate _ => bitrate⟩
    let reply := cfg.getLinkMetric ⟨5, -60, 300⟩
      (cfg.run [.sample 5 20, .query ⟨5, -60, 300⟩, .sample 5 900] ∅)
    reply.1 ≠ 20 ∧ ∃ m, reply.2.lookup 5 = some m ∧
      Metric.InBand 2 m.reportedMetric m.ewmaMetric := by
  obtain ⟨m, m', -, hm', -, hband, -⟩ := getLinkMetric_hysteresis
    ⟨3, 2, 60, fun bitrate _ => bitrate⟩ ⟨5, -60, 300⟩
    [.sample 5 20, .query ⟨5, -60, 300⟩, .sample 5 900]
    (by decide) (by decide) (by decide)
    (List.forall_mem_cons.mpr ⟨by decide, List.forall_mem_singleton.mpr (by decide)⟩)
    (List.cons_ne_nil _ _)
  exact ⟨by decide, m', hm', hband⟩

end MetricManager80211s

end Fbmeshd
