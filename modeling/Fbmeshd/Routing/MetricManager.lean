import Fbmeshd.Lib.Ewma
import Fbmeshd.Routing.MeshPath

/-!
# Link metrics

`MetricManager80211s` turns the bitrate and signal strength of each station into an airtime,
averages the airtimes over the updates, and reports an average with hysteresis. All of it is
unsigned 32-bit arithmetic.
-/

namespace Fbmeshd

/-- The fields of `StationInfo` that the metric manager reads. -/
structure StationInfo where
  macAddress : MacAddress
  signalAvgDbm : ℤ
  expectedThroughput : UInt32

/-- `MetricManager80211s::Metric`. -/
structure Metric where
  ewmaMetric : UInt32 := 0
  reportedMetric : UInt32 := 0
  count : UInt32 := 0
  deriving DecidableEq

/-- The type of `metrics_`. -/
abbrev Metrics := AList fun _ : MacAddress => Metric

/-- The constant members of `MetricManager80211s`. `weigh bitrate rssi` is
`round((1.0 - rssiWeight_) * bitrate + rssiWeight_ * rssi)`; the source computes it in doubles,
and nothing below depends on how it is rounded. -/
structure MetricManager80211s where
  ewmaFactor : UInt32
  hysteresisFactor : UInt32
  baseBitrate : UInt32
  weigh : UInt32 → UInt32 → UInt32

/-! ## Airtimes -/

/-- `bitrateToAirtime`. The product is taken in 32 bits; only its shifted value is stored in
a 64-bit variable. -/
def bitrateToAirtime (rate : UInt32) : UInt32 :=
  if rate = 0 then 0x7fffffff
  else
    let rate : UInt32 := 1 + (rate - 1) / 100
    let txTime : UInt32 := ((1 : UInt32) <<< 8) + (10 : UInt32) * ((8192 : UInt32) <<< 8) / rate
    let estimatedRetx : UInt32 := ((1 : UInt32) <<< (2 * 8)) / ((1 : UInt32) <<< 8)
    let result : UInt64 := ((txTime * estimatedRetx) >>> (2 * 8)).toUInt64
    result.toUInt32

/-- `rssiToAirtime`. -/
def rssiToAirtime (rssi : ℤ) : UInt32 :=
  if rssi = 0 then 0x7fffffff
  else
    let rate : UInt32 :=
      if rssi ≥ -51 then 867
      else if rssi ≥ -53 then 780
      else if rssi ≥ -58 then 650
      else if rssi ≥ -59 then 585
      else if rssi ≥ -60 then 520
      else if rssi ≥ -64 then 390
      else if rssi ≥ -68 then 260
      else if rssi ≥ -71 then 195
      else if rssi ≥ -73 then 130
      else 65
    8192 / rate

/-! ## The average of one station -/

namespace Metric

/-- `ewmaMetric += newMetric - oldMetric` with `oldMetric` read first. -/
def average (ewmaFactor newMetric : UInt32) (m : Metric) : Metric :=
  { m with ewmaMetric := m.ewmaMetric + (newMetric - m.ewmaMetric >>> ewmaFactor) }

/-- The repetitions for the first ten samples. The loop runs from `i = 10` down to `count`. -/
def warmUp (ewmaFactor newMetric : UInt32) (m : Metric) : Metric :=
  if m.count < 10 then
    { (average ewmaFactor newMetric)^[10 - m.count.toNat] m with count := m.count + 1 }
  else m

/-- A sample for a station that has an entry. -/
def addSample (ewmaFactor newMetric : UInt32) (m : Metric) : Metric :=
  (m.average ewmaFactor newMetric).warmUp ewmaFactor newMetric

/-- The entry of a station that has none yet. -/
def first (ewmaFactor newMetric : UInt32) : Metric := { ewmaMetric := newMetric <<< ewmaFactor }

/-- A reported metric of zero stands for a metric that was not reported yet. -/
def adopt (m : Metric) : Metric :=
  if m.reportedMetric = 0 then { m with reportedMetric := m.ewmaMetric } else m

/-- The update of `reportedMetric` in `getLinkMetric`. -/
def report (hysteresisFactor : UInt32) (m : Metric) : Metric :=
  let m := m.adopt
  let hysteresis := m.reportedMetric >>> hysteresisFactor
  if m.ewmaMetric > m.reportedMetric + hysteresis ∨ m.ewmaMetric < m.reportedMetric - hysteresis
  then { m with reportedMetric := m.ewmaMetric }
  else m

end Metric

namespace MetricManager80211s

variable (cfg : MetricManager80211s)

/-! ## The members -/

/-- The sample `updateMetrics` takes from a station, unless it filters the station out. -/
def newMetric (sta : StationInfo) : Option UInt32 :=
  let newMetricBitrate := bitrateToAirtime sta.expectedThroughput
  let newMetricRssi := rssiToAirtime sta.signalAvgDbm
  if sta.expectedThroughput = 0 then none
  else if sta.expectedThroughput = cfg.baseBitrate then none
  else
    let newMetricRssi :=
      if newMetricRssi = 0 ∨ newMetricRssi > 1000 then newMetricBitrate else newMetricRssi
    some (cfg.weigh newMetricBitrate newMetricRssi)

/-- What `updateMetrics` does with a sample. -/
def addSample (mac : MacAddress) (newMetric : UInt32) (metrics : Metrics) : Metrics :=
  let m := (metrics.lookup mac).getD (.first cfg.ewmaFactor newMetric)
  metrics.insert mac (m.addSample cfg.ewmaFactor newMetric)

/-- `updateMetrics`, given what `getStationsInfo` returns. -/
def updateMetrics (stas : List StationInfo) (metrics : Metrics) : Metrics :=
  stas.foldl (fun metrics sta =>
    match cfg.newMetric sta with
    | none => metrics
    | some n => cfg.addSample sta.macAddress n metrics) metrics

/-- `getLinkMetric`: its value and the table it leaves. -/
def getLinkMetric (sta : StationInfo) (metrics : Metrics) : UInt32 × Metrics :=
  match metrics.lookup sta.macAddress with
  | none => (bitrateToAirtime sta.expectedThroughput, metrics)
  | some m =>
    let m := m.report cfg.hysteresisFactor
    (m.reportedMetric >>> cfg.ewmaFactor, metrics.insert sta.macAddress m)

/-- `getLinkMetrics`, given what `getStationsInfo` returns. -/
def getLinkMetrics (stas : List StationInfo) (metrics : Metrics) :
    (AList fun _ : MacAddress => UInt32) × Metrics :=
  stas.foldl (fun acc sta =>
    if sta.expectedThroughput = 0 then acc
    else
      let reply := cfg.getLinkMetric sta acc.2
      (acc.1.emplace sta.macAddress reply.1, reply.2)) (∅, metrics)

end MetricManager80211s

/-! ## The airtime of a bitrate -/

private theorem toNat_one_add_sub_one_div {rate : UInt32} (h : 1 ≤ rate) :
    (1 + (rate - 1) / 100 : UInt32).toNat = 1 + (rate.toNat - 1) / 100 := by
  have hlt := rate.toNat_lt
  rw [UInt32.toNat_add, UInt32.toNat_div, UInt32.toNat_sub_of_le _ _ h, UInt32.toNat_one]
  exact Nat.mod_eq_of_lt (by simp; omega)

/-- The airtime in terms of the rounded-up rate. Rates up to 100 are the only ones whose product
does not fit 32 bits: they get 16385 instead of 81921. -/
theorem toNat_bitrateToAirtime {rate : UInt32} (h : 1 ≤ rate) :
    (bitrateToAirtime rate).toNat =
      if rate.toNat ≤ 100 then 16385 else 1 + 81920 / (1 + (rate.toNat - 1) / 100) := by
  have hne : rate ≠ 0 := by
    rintro rfl
    exact absurd h (by decide)
  have hpos : 1 ≤ rate.toNat := h
  have hvalue : (bitrateToAirtime rate).toNat =
      (256 + 20971520 / (1 + (rate.toNat - 1) / 100)) % 2 ^ 32 * 256 % 2 ^ 32 / 2 ^ 16 := by
    simp only [bitrateToAirtime, if_neg hne, UInt32.toUInt32_toUInt64, UInt32.toNat_shiftRight,
      UInt32.toNat_mul, UInt32.toNat_add, UInt32.toNat_div, toNat_one_add_sub_one_div h,
      Nat.shiftRight_eq_div_pow]
    rfl
  rw [hvalue]
  split
  · have hrate : 1 + (rate.toNat - 1) / 100 = 1 := by omega
    rw [hrate]
    rfl
  · generalize hrate : 1 + (rate.toNat - 1) / 100 = r
    have hquot : 20971520 / r ≤ 20971520 / 2 := Nat.div_le_div_left (by omega) (by decide)
    have hscale : 20971520 / r / 256 = 81920 / r := by
      rw [Nat.div_div_eq_div_mul, Nat.mul_comm, ← Nat.div_div_eq_div_mul]
    rw [← hscale, Nat.mod_eq_of_lt (by omega : 256 + 20971520 / r < 2 ^ 32),
      Nat.mod_eq_of_lt (by omega)]
    omega

/-- A positive rate never has airtime zero. -/
theorem one_le_bitrateToAirtime {rate : UInt32} (h : 1 ≤ rate) : 1 ≤ bitrateToAirtime rate := by
  rw [UInt32.le_iff_toNat_le, toNat_bitrateToAirtime h]
  split
  · decide
  · exact Nat.le_add_right 1 _

/-- A faster link never costs more, except that the wrapped airtime of the rates up to 100 is
below that of the rates from 101 to 400. -/
theorem bitrateToAirtime_le_iff (r₁ r₂ : UInt32) (h : 1 ≤ r₁) (hle : r₁ ≤ r₂) :
    (bitrateToAirtime r₂ ≤ bitrateToAirtime r₁ ↔ ¬ (r₁ ≤ 100 ∧ 100 < r₂ ∧ r₂ ≤ 400)) ∧
      1 ≤ bitrateToAirtime r₂ := by
  have h₂ : 1 ≤ r₂ := UInt32.le_trans h hle
  refine ⟨?_, one_le_bitrateToAirtime h₂⟩
  simp only [UInt32.le_iff_toNat_le, UInt32.lt_iff_toNat_lt, toNat_bitrateToAirtime h,
    toNat_bitrateToAirtime h₂, UInt32.reduceToNat] at hle ⊢
  by_cases hslow₂ : r₂.toNat ≤ 100
  · rw [if_pos hslow₂, if_pos (by omega)]
    omega
  rw [if_neg hslow₂]
  by_cases hslow₁ : r₁.toNat ≤ 100
  · -- The slower rate has the wrapped airtime 16385, which is that of a rate of 5.
    have hfive : 81920 / (1 + (r₂.toNat - 1) / 100) < 16385 ↔ 4 < 1 + (r₂.toNat - 1) / 100 := by
      rw [Nat.div_lt_iff_lt_mul (by omega)]
      omega
    rw [if_pos hslow₁]
    omega
  · rw [if_neg hslow₁]
    have hrate : 1 + (r₁.toNat - 1) / 100 ≤ 1 + (r₂.toNat - 1) / 100 := by omega
    have hquot := Nat.div_le_div_left (a := 81920) hrate (by omega)
    omega

/-- A fast link takes less time than a slow one. -/
theorem bitrateToAirtime_le_fast :
    bitrateToAirtime 8670 ≤ bitrateToAirtime 60 ∧ 1 ≤ bitrateToAirtime 8670 :=
  have h := bitrateToAirtime_le_iff 60 8670 (by decide) (by decide)
  ⟨h.1.mpr (by decide), h.2⟩

/-- Raising the throughput from 100 to 101 raises the airtime. -/
theorem bitrateToAirtime_lt_faster : bitrateToAirtime 100 < bitrateToAirtime 101 := by
  decide

end Fbmeshd
