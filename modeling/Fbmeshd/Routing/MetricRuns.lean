import Fbmeshd.Routing.MetricManager
import Mathlib.Data.List.Induction

/-!
# Averages and reports over a run

A run of the metric manager is a list of samples and queries for any stations. Looked at for one
station it is the list of its own samples and queries, and the average of the station is the
fixed-point average of its samples.
-/

namespace Fbmeshd

namespace Metric

variable {f h n : UInt32} {m : Metric}

/-! ## The average as a natural number -/

/-- A shift is a division. -/
theorem toNat_shiftRight {a : UInt32} (hf : f.toNat < 32) :
    (a >>> f).toNat = a.toNat / 2 ^ f.toNat := by
  rw [UInt32.toNat_shiftRight, Nat.mod_eq_of_lt hf, Nat.shiftRight_eq_div_pow]

private theorem two_pow_sub_mul_two_pow (hf : f.toNat < 32) :
    2 ^ (32 - f.toNat) * 2 ^ f.toNat = 2 ^ 32 := by
  rw [← Nat.pow_add, Nat.sub_add_cancel hf.le]

/-- The difference `newMetric - oldMetric` may wrap; the sum then wraps back. -/
theorem toNat_average (hf : f.toNat < 32) (hn : n.toNat < 2 ^ (32 - f.toNat)) :
    (m.average f n).ewmaMetric.toNat = Ewma.step (2 ^ f.toNat) n.toNat m.ewmaMetric.toNat := by
  have hlt := m.ewmaMetric.toNat_lt
  have hfit : Ewma.step (2 ^ f.toNat) n.toNat m.ewmaMetric.toNat < 2 ^ 32 := by
    rw [← two_pow_sub_mul_two_pow hf] at hlt ⊢
    exact Ewma.step_lt_mul (Nat.two_pow_pos _) hn hlt
  have hold : m.ewmaMetric.toNat / 2 ^ f.toNat ≤ m.ewmaMetric.toNat := Nat.div_le_self _ _
  simp only [average, UInt32.toNat_add, UInt32.toNat_sub, toNat_shiftRight hf]
  unfold Ewma.step at hfit ⊢
  generalize m.ewmaMetric.toNat / 2 ^ f.toNat = q at *
  omega

/-- What a sample does to the other fields does not depend on how often it is repeated. -/
theorem iterate_average (j : ℕ) :
    (average f n)^[j] m = { m with ewmaMetric := ((average f n)^[j] m).ewmaMetric } := by
  induction j with
  | zero => rfl
  | succ j ih =>
    rw [Function.iterate_succ_apply', ih]
    rfl

private theorem toNat_iterate_average (hf : f.toNat < 32) (hn : n.toNat < 2 ^ (32 - f.toNat))
    (j : ℕ) :
    ((average f n)^[j] m).ewmaMetric.toNat =
      (Ewma.step (2 ^ f.toNat) n.toNat)^[j] m.ewmaMetric.toNat := by
  induction j with
  | zero => rfl
  | succ j ih =>
    rw [Function.iterate_succ_apply', Function.iterate_succ_apply', toNat_average hf hn, ih]

/-- How often a sample is taken, given the number of samples before it. -/
def repetitions (count : ℕ) : ℕ := 10 - count + 1

/-- `count` after one more sample. -/
def nextCount (count : ℕ) : ℕ := if count < 10 then count + 1 else count

private theorem addSample_eq : m.addSample f n =
    { m with
      ewmaMetric := ((average f n)^[repetitions m.count.toNat] m).ewmaMetric
      count := UInt32.ofNat (nextCount m.count.toNat) } := by
  unfold addSample warmUp repetitions nextCount
  rw [Function.iterate_succ_apply]
  have hcount : (m.average f n).count < 10 ↔ m.count.toNat < 10 := Iff.rfl
  by_cases h : m.count.toNat < 10
  · rw [if_pos (hcount.mpr h), if_pos h, iterate_average, UInt32.ofNat_add, UInt32.ofNat_toNat]
    rfl
  · rw [if_neg (mt hcount.mp h), if_neg h, Nat.sub_eq_zero_of_le (Nat.le_of_not_lt h),
      UInt32.ofNat_toNat]
    rfl

/-- A sample reports nothing. -/
@[simp] theorem addSample_reportedMetric :
    (m.addSample f n).reportedMetric = m.reportedMetric := by
  rw [addSample_eq]

private theorem toNat_count_addSample :
    (m.addSample f n).count.toNat = nextCount m.count.toNat := by
  have hlt := m.count.toNat_lt
  rw [addSample_eq]
  refine UInt32.toNat_ofNat_of_lt' ?_
  unfold nextCount UInt32.size
  split <;> omega

/-- A sample is averaged in, several times at first. -/
theorem toNat_addSample (hf : f.toNat < 32) (hn : n.toNat < 2 ^ (32 - f.toNat)) :
    (m.addSample f n).ewmaMetric.toNat =
      (Ewma.step (2 ^ f.toNat) n.toNat)^[repetitions m.count.toNat] m.ewmaMetric.toNat := by
  rw [addSample_eq]
  exact toNat_iterate_average hf hn _

/-- The first sample is the average. -/
theorem toNat_first (hf : f.toNat < 32) (hn : n.toNat < 2 ^ (32 - f.toNat)) :
    (first f n).ewmaMetric.toNat = n.toNat * 2 ^ f.toNat := by
  have hfit : n.toNat * 2 ^ f.toNat < 2 ^ 32 := by
    rw [← two_pow_sub_mul_two_pow hf]
    exact Nat.mul_lt_mul_of_pos_right hn (Nat.two_pow_pos _)
  rw [first, UInt32.toNat_shiftLeft, Nat.mod_eq_of_lt hf, Nat.shiftLeft_eq]
  exact Nat.mod_eq_of_lt hfit

/-- A query changes nothing but the reported metric. -/
theorem report_fields : m.report h = { m with reportedMetric := (m.report h).reportedMetric } := by
  simp only [report, adopt]
  split <;> split <;> rfl

/-- A report does not change the average. -/
@[simp] theorem report_ewmaMetric : (m.report h).ewmaMetric = m.ewmaMetric := by
  rw [report_fields]

@[simp] private theorem report_count : (m.report h).count = m.count := by
  rw [report_fields]

end Metric

/-! ## Runs -/

/-- A sample or a query, for any station. -/
inductive MetricEvent where
  | sample (mac : MacAddress) (newMetric : UInt32)
  | query (sta : StationInfo)

/-- A sample or a query of one station. -/
inductive StationEvent where
  | sample (newMetric : UInt32)
  | query
  deriving DecidableEq

/-- The event as the station `mac` sees it. -/
def MetricEvent.forStation (mac : MacAddress) : MetricEvent → Option StationEvent
  | sample a n => if a = mac then some (.sample n) else none
  | query sta => if sta.macAddress = mac then some .query else none

def stationEvents (mac : MacAddress) (es : List MetricEvent) : List StationEvent :=
  es.filterMap (MetricEvent.forStation mac)

def StationEvent.newMetric : StationEvent → Option UInt32
  | sample n => some n
  | query => none

/-- The samples of a station, in their order. -/
def samplesOf (mac : MacAddress) (es : List MetricEvent) : List UInt32 :=
  (stationEvents mac es).filterMap StationEvent.newMetric

namespace MetricManager80211s

variable (cfg : MetricManager80211s)

def applyEvent (metrics : Metrics) : MetricEvent → Metrics
  | .sample mac n => cfg.addSample mac n metrics
  | .query sta => (cfg.getLinkMetric sta metrics).2

/-- The table after a list of samples and queries. -/
def run (es : List MetricEvent) (metrics : Metrics) : Metrics := es.foldl cfg.applyEvent metrics

/-- `updateMetrics` is the run of the samples it takes. -/
theorem updateMetrics_eq_run (stas : List StationInfo) (metrics : Metrics) :
    cfg.updateMetrics stas metrics =
      cfg.run (stas.filterMap fun sta => (cfg.newMetric sta).map (.sample sta.macAddress))
        metrics := by
  induction stas generalizing metrics with
  | nil => rfl
  | cons sta stas ih =>
    unfold updateMetrics at ih ⊢
    rw [List.foldl_cons, ih, List.filterMap_cons]
    cases cfg.newMetric sta with
    | none => rfl
    | some n => rfl

/-- `getLinkMetrics` is the run of its queries. -/
theorem getLinkMetrics_eq_run (stas : List StationInfo) (metrics : Metrics) :
    (cfg.getLinkMetrics stas metrics).2 =
      cfg.run ((stas.filter fun sta => sta.expectedThroughput ≠ 0).map .query) metrics := by
  unfold getLinkMetrics
  generalize (∅ : AList fun _ : MacAddress => UInt32) = result
  induction stas generalizing result metrics with
  | nil => rfl
  | cons sta stas ih =>
    by_cases h : sta.expectedThroughput = 0
    · rw [List.foldl_cons, if_pos h, ih, List.filter_cons_of_neg (by simpa using h)]
    · rw [List.foldl_cons, if_neg h, ih, List.filter_cons_of_pos (by simpa using h)]
      rfl

/-- What an event does to the entry of its station. -/
def stationStep (entry : Option Metric) : StationEvent → Option Metric
  | .sample n => some ((entry.getD (.first cfg.ewmaFactor n)).addSample cfg.ewmaFactor n)
  | .query => entry.map (Metric.report cfg.hysteresisFactor)

private theorem lookup_applyEvent (mac : MacAddress) (metrics : Metrics) (e : MetricEvent) :
    (cfg.applyEvent metrics e).lookup mac =
      ((e.forStation mac).elim (metrics.lookup mac) (cfg.stationStep (metrics.lookup mac))) := by
  cases e with
  | sample a n =>
    by_cases h : a = mac
    · subst h
      simp [applyEvent, addSample, MetricEvent.forStation, stationStep]
    · simp [applyEvent, addSample, MetricEvent.forStation, h, Ne.symm h]
  | query sta =>
    simp only [applyEvent, getLinkMetric, MetricEvent.forStation]
    by_cases h : sta.macAddress = mac
    · subst h
      cases hm : metrics.lookup sta.macAddress with
      | none => simp [stationStep, hm]
      | some m => simp [stationStep]
    · cases hm : metrics.lookup sta.macAddress with
      | none => simp [h]
      | some m => simp [h, Ne.symm h]

/-- The entry of a station depends on its own samples and queries only. -/
theorem lookup_run (mac : MacAddress) (es : List MetricEvent) (metrics : Metrics) :
    (cfg.run es metrics).lookup mac =
      (stationEvents mac es).foldl cfg.stationStep (metrics.lookup mac) := by
  induction es generalizing metrics with
  | nil => rfl
  | cons e es ih =>
    unfold run stationEvents at ih ⊢
    rw [List.foldl_cons, ih, lookup_applyEvent, List.filterMap_cons]
    cases e.forStation mac with
    | none => rfl
    | some e => rfl

/-! ## The average stays within the samples -/

variable {cfg}

/-- The average and the count after one more sample, over the integers. -/
def integerStep (f : ℕ) (acc : ℕ × ℕ) (n : ℕ) : ℕ × ℕ :=
  ((Ewma.step (2 ^ f) n)^[Metric.repetitions acc.2] acc.1, Metric.nextCount acc.2)

/-- The average and the count after the samples, over the integers. -/
def integerAverage (f : ℕ) (samples : List ℕ) : ℕ × ℕ :=
  samples.foldl (integerStep f) (samples.headD 0 * 2 ^ f, 0)

private theorem integerAverage_concat {f : ℕ} {samples : List ℕ} (h : samples ≠ []) (n : ℕ) :
    integerAverage f (samples ++ [n]) = integerStep f (integerAverage f samples) n := by
  obtain ⟨x, xs, rfl⟩ := List.exists_cons_of_ne_nil h
  unfold integerAverage
  rw [List.foldl_concat]
  rfl

private theorem integerAverage_bounds {f lo hi : ℕ} {samples : List ℕ} (hne : samples ≠ [])
    (h : ∀ n ∈ samples, lo ≤ n ∧ n ≤ hi) :
    lo * 2 ^ f ≤ (integerAverage f samples).1 ∧ (integerAverage f samples).1 ≤ hi * 2 ^ f := by
  have hscale : 0 < 2 ^ f := Nat.two_pow_pos f
  have hrun : ∀ (xs : List ℕ) (acc : ℕ × ℕ), (∀ n ∈ xs, lo ≤ n ∧ n ≤ hi) →
      lo * 2 ^ f ≤ acc.1 ∧ acc.1 ≤ hi * 2 ^ f →
      lo * 2 ^ f ≤ (xs.foldl (integerStep f) acc).1 ∧
        (xs.foldl (integerStep f) acc).1 ≤ hi * 2 ^ f := by
    intro xs
    induction xs with
    | nil => exact fun _ _ hacc => hacc
    | cons n xs ih =>
      intro acc hxs hacc
      have hn := hxs n List.mem_cons_self
      exact ih _ (fun x hx => hxs x (List.mem_cons_of_mem n hx))
        ⟨Ewma.mul_le_iterate_step hscale hn.1 hacc.1 _,
          Ewma.iterate_step_le_mul hscale hn.2 hacc.2 _⟩
  obtain ⟨x, xs, rfl⟩ := List.exists_cons_of_ne_nil hne
  have hx := h x List.mem_cons_self
  exact hrun _ _ h ⟨Nat.mul_le_mul_right _ hx.1, Nat.mul_le_mul_right _ hx.2⟩

/-- The entry of a station holds the average of its samples over the integers. -/
def Tracks (f : ℕ) (samples : List ℕ) : Option Metric → Prop
  | none => samples = []
  | some m => samples ≠ [] ∧ integerAverage f samples = (m.ewmaMetric.toNat, m.count.toNat)

def toNatSamples (es : List StationEvent) : List ℕ :=
  (es.filterMap StationEvent.newMetric).map UInt32.toNat

private theorem tracks_foldl (hf : cfg.ewmaFactor.toNat < 32) (es : List StationEvent)
    (hfit : ∀ n ∈ toNatSamples es, n < 2 ^ (32 - cfg.ewmaFactor.toNat)) :
    Tracks cfg.ewmaFactor.toNat (toNatSamples es) (es.foldl cfg.stationStep none) := by
  induction es using List.reverseRecOn with
  | nil => rfl
  | append_singleton es e ih =>
    rw [List.foldl_concat]
    cases e with
    | sample n =>
      have hsplit : toNatSamples (es ++ [.sample n]) = toNatSamples es ++ [n.toNat] := by
        simp [toNatSamples, StationEvent.newMetric]
      rw [hsplit] at hfit ⊢
      have hn := hfit n.toNat (List.mem_append_right _ List.mem_cons_self)
      specialize ih fun x hx => hfit x (List.mem_append_left _ hx)
      refine ⟨List.append_ne_nil_of_right_ne_nil _ (List.cons_ne_nil _ _), ?_⟩
      rw [Metric.toNat_addSample hf hn, Metric.toNat_count_addSample]
      cases hentry : es.foldl cfg.stationStep none with
      | none =>
        -- The first sample fills the average before it is added to it.
        rw [hentry] at ih
        rw [show toNatSamples es = [] from ih, Option.getD_none, Metric.toNat_first hf hn]
        rfl
      | some m =>
        rw [hentry] at ih
        rw [integerAverage_concat ih.1, ih.2]
        rfl
    | query =>
      have hsame : toNatSamples (es ++ [.query]) = toNatSamples es := by
        simp [toNatSamples, StationEvent.newMetric]
      rw [hsame] at hfit ⊢
      specialize ih hfit
      cases hentry : es.foldl cfg.stationStep none with
      | none =>
        rw [hentry] at ih
        exact ih
      | some m =>
        rw [hentry] at ih
        refine ⟨ih.1, ?_⟩
        rw [Metric.report_ewmaMetric, Metric.report_count]
        exact ih.2

/-- A station that has a sample has an entry, which holds the average over the integers. -/
theorem exists_tracked {cfg : MetricManager80211s} {mac : MacAddress} {es : List MetricEvent}
    (hf : cfg.ewmaFactor.toNat < 32)
    (hfit : ∀ n ∈ samplesOf mac es, n.toNat < 2 ^ (32 - cfg.ewmaFactor.toNat))
    (hne : samplesOf mac es ≠ []) :
    ∃ m, (cfg.run es ∅).lookup mac = some m ∧
      Tracks cfg.ewmaFactor.toNat ((samplesOf mac es).map UInt32.toNat) (some m) := by
  have htracks := tracks_foldl hf (stationEvents mac es) fun x hx => by
    obtain ⟨n, hn, rfl⟩ := List.mem_map.mp hx
    exact hfit n hn
  rw [lookup_run, AList.lookup_empty]
  cases hentry : (stationEvents mac es).foldl cfg.stationStep none with
  | none =>
    rw [hentry] at htracks
    exact absurd (List.map_eq_nil_iff.mp htracks) hne
  | some m =>
    rw [hentry] at htracks
    exact ⟨m, rfl, htracks⟩

/-- The stored average is the one over the integers, and it lies between the scaled bounds of
the samples. -/
theorem ewmaMetric_within_samples (cfg : MetricManager80211s) (mac : MacAddress)
    (es : List MetricEvent) (hf : cfg.ewmaFactor.toNat < 32)
    (hfit : ∀ n ∈ samplesOf mac es, n.toNat < 2 ^ (32 - cfg.ewmaFactor.toNat))
    (hne : samplesOf mac es ≠ []) :
    ∃ m, (cfg.run es ∅).lookup mac = some m ∧
      m.ewmaMetric.toNat =
        (integerAverage cfg.ewmaFactor.toNat ((samplesOf mac es).map UInt32.toNat)).1 ∧
      ∀ lo hi : UInt32, (∀ n ∈ samplesOf mac es, lo ≤ n ∧ n ≤ hi) →
        lo.toNat * 2 ^ cfg.ewmaFactor.toNat ≤ m.ewmaMetric.toNat ∧
        m.ewmaMetric.toNat ≤ hi.toNat * 2 ^ cfg.ewmaFactor.toNat ∧
        lo ≤ m.ewmaMetric >>> cfg.ewmaFactor ∧ m.ewmaMetric >>> cfg.ewmaFactor ≤ hi := by
  obtain ⟨m, hm, htracks⟩ := exists_tracked hf hfit hne
  have haverage : (integerAverage cfg.ewmaFactor.toNat
      ((samplesOf mac es).map UInt32.toNat)).1 = m.ewmaMetric.toNat := congrArg Prod.fst htracks.2
  refine ⟨m, hm, haverage.symm, fun lo hi hbounds => ?_⟩
  have hscaled := integerAverage_bounds (f := cfg.ewmaFactor.toNat) htracks.1 fun x hx => by
    obtain ⟨n, hn, rfl⟩ := List.mem_map.mp hx
    exact hbounds n hn
  rw [haverage] at hscaled
  have hscale : 0 < 2 ^ cfg.ewmaFactor.toNat := Nat.two_pow_pos _
  refine ⟨hscaled.1, hscaled.2, ?_, ?_⟩
  · rw [UInt32.le_iff_toNat_le, Metric.toNat_shiftRight hf]
    exact (Nat.le_div_iff_mul_le hscale).mpr hscaled.1
  · rw [UInt32.le_iff_toNat_le, Metric.toNat_shiftRight hf]
    exact Nat.div_le_of_le_mul (Nat.mul_comm _ _ ▸ hscaled.2)

/-- Two samples of one station, with a query and another station between them. -/
theorem average_of_two_samples :
    let cfg : MetricManager80211s := ⟨3, 2, 60, fun bitrate _ => bitrate⟩
    ∃ m, (cfg.run [.sample 1 20, .query ⟨1, -50, 300⟩, .sample 2 7, .sample 1 50] ∅).lookup 1 =
        some m ∧ m.ewmaMetric.toNat = (integerAverage 3 [20, 50]).1 ∧
      20 * 2 ^ 3 ≤ m.ewmaMetric.toNat ∧ m.ewmaMetric.toNat ≤ 50 * 2 ^ 3 := by
  have htwo {P : UInt32 → Prop} (h₁ : P 20) (h₂ : P 50) : ∀ n ∈ [20, 50], P n :=
    List.forall_mem_cons.mpr ⟨h₁, List.forall_mem_singleton.mpr h₂⟩
  obtain ⟨m, hm, haverage, hbounds⟩ := ewmaMetric_within_samples
    ⟨3, 2, 60, fun bitrate _ => bitrate⟩ 1
    [.sample 1 20, .query ⟨1, -50, 300⟩, .sample 2 7, .sample 1 50]
    (by decide) (htwo (by decide) (by decide)) (List.cons_ne_nil _ _)
  have h := hbounds 20 50 (htwo (by decide) (by decide))
  exact ⟨m, hm, haverage, h.1, h.2.1⟩

/-! ## A constant sample -/

private theorem stationEvents_append (mac : MacAddress) (es es' : List MetricEvent) :
    stationEvents mac (es ++ es') = stationEvents mac es ++ stationEvents mac es' :=
  List.filterMap_append

/-- The samples of a run are those of its parts. -/
theorem samplesOf_append (mac : MacAddress) (es es' : List MetricEvent) :
    samplesOf mac (es ++ es') = samplesOf mac es ++ samplesOf mac es' := by
  unfold samplesOf
  rw [stationEvents_append, List.filterMap_append]

/-- A run can be cut in two. -/
theorem run_append (es es' : List MetricEvent) (metrics : Metrics) :
    cfg.run (es ++ es') metrics = cfg.run es' (cfg.run es metrics) :=
  List.foldl_append

/-- Samples that are all equal take the average through as many steps as there are samples, or
more during the warm-up. -/
theorem foldl_stationStep_constant (hf : cfg.ewmaFactor.toNat < 32) {n : UInt32}
    (hn : n.toNat < 2 ^ (32 - cfg.ewmaFactor.toNat)) (m : Metric) (es : List StationEvent)
    (hconst : ∀ x ∈ es.filterMap StationEvent.newMetric, x = n) :
    ∃ m' j, es.foldl cfg.stationStep (some m) = some m' ∧
      (es.filterMap StationEvent.newMetric).length ≤ j ∧
      m'.ewmaMetric.toNat =
        (Ewma.step (2 ^ cfg.ewmaFactor.toNat) n.toNat)^[j] m.ewmaMetric.toNat := by
  induction es generalizing m with
  | nil => exact ⟨m, 0, rfl, Nat.le_refl 0, rfl⟩
  | cons e es ih =>
    cases e with
    | sample x =>
      simp only [List.filterMap_cons, StationEvent.newMetric, List.forall_mem_cons] at hconst
      obtain ⟨rfl, hconst⟩ := hconst
      obtain ⟨m', j, hrun, hj, havg⟩ := ih (m.addSample cfg.ewmaFactor x) hconst
      refine ⟨m', j + Metric.repetitions m.count.toNat, hrun, ?_, ?_⟩
      · simp only [List.filterMap_cons, StationEvent.newMetric, List.length_cons,
          Metric.repetitions]
        omega
      · rw [Function.iterate_add_apply, ← Metric.toNat_addSample hf hn]
        exact havg
    | query =>
      obtain ⟨m', j, hrun, hj, havg⟩ := ih (m.report cfg.hysteresisFactor) hconst
      rw [Metric.report_ewmaMetric] at havg
      exact ⟨m', j, hrun, hj, havg⟩

/-- With a constant sample the descaled average moves towards it, never passes it, and is equal to
it after finitely many samples. -/
theorem ewmaMetric_converges (cfg : MetricManager80211s) (mac : MacAddress) (n : UInt32)
    (metrics : Metrics) (m : Metric) (hf : cfg.ewmaFactor.toNat < 32)
    (hn : n.toNat < 2 ^ (32 - cfg.ewmaFactor.toNat)) (hm : metrics.lookup mac = some m) :
    (∀ es es', (∀ x ∈ samplesOf mac (es ++ es'), x = n) →
      ∃ m₁ m₂, (cfg.run es metrics).lookup mac = some m₁ ∧
        (cfg.run (es ++ es') metrics).lookup mac = some m₂ ∧
        (m₂.ewmaMetric >>> cfg.ewmaFactor).toNat ∈
          Set.uIcc (m₁.ewmaMetric >>> cfg.ewmaFactor).toNat n.toNat) ∧
    ∃ N, ∀ es, (∀ x ∈ samplesOf mac es, x = n) → N ≤ (samplesOf mac es).length →
      ∃ m', (cfg.run es metrics).lookup mac = some m' ∧
        m'.ewmaMetric >>> cfg.ewmaFactor = n := by
  have hscale : 0 < 2 ^ cfg.ewmaFactor.toNat := Nat.two_pow_pos _
  constructor
  · intro es es' hconst
    simp only [samplesOf_append, List.forall_mem_append] at hconst
    obtain ⟨m₁, j, hrun₁, -, -⟩ :=
      foldl_stationStep_constant hf hn m (stationEvents mac es) hconst.1
    obtain ⟨m₂, j', hrun₂, -, havg⟩ :=
      foldl_stationStep_constant hf hn m₁ (stationEvents mac es') hconst.2
    refine ⟨m₁, m₂, ?_, ?_, ?_⟩
    · rw [lookup_run, hm, hrun₁]
    · rw [lookup_run, hm, stationEvents_append, List.foldl_append, hrun₁, hrun₂]
    · rw [Metric.toNat_shiftRight hf, Metric.toNat_shiftRight hf, havg]
      exact Ewma.div_iterate_step_mem_uIcc hscale j'
  · refine ⟨m.ewmaMetric.toNat - n.toNat * 2 ^ cfg.ewmaFactor.toNat +
      (n.toNat * 2 ^ cfg.ewmaFactor.toNat - m.ewmaMetric.toNat), fun es hconst hlen => ?_⟩
    obtain ⟨m', j, hrun, hj, havg⟩ :=
      foldl_stationStep_constant hf hn m (stationEvents mac es) hconst
    refine ⟨m', by rw [lookup_run, hm, hrun], ?_⟩
    rw [← UInt32.toNat_inj, Metric.toNat_shiftRight hf, havg]
    exact Ewma.div_iterate_step hscale (Nat.le_trans hlen hj)

/-- An entry far above its constant sample comes down to it. -/
theorem average_settles_on_nine :
    let cfg : MetricManager80211s := ⟨3, 2, 60, fun bitrate _ => bitrate⟩
    let metrics : Metrics := AList.singleton 1 { ewmaMetric := 4000000000, count := 10 }
    ∃ N, ∀ es, (∀ x ∈ samplesOf 1 es, x = 9) → N ≤ (samplesOf 1 es).length →
      ∃ m, (cfg.run es metrics).lookup 1 = some m ∧ m.ewmaMetric >>> 3 = 9 :=
  (ewmaMetric_converges ⟨3, 2, 60, fun bitrate _ => bitrate⟩ 1 9
    (AList.singleton 1 { ewmaMetric := 4000000000, count := 10 })
    { ewmaMetric := 4000000000, count := 10 } (by decide) (by decide) rfl).2

end MetricManager80211s

end Fbmeshd
