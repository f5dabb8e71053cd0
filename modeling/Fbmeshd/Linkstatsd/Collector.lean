import Fbmeshd.Lib.Aggregate
import Fbmeshd.Lib.Table
import Mathlib.Data.List.Dedup
import Mathlib.Logic.Function.Basic

/-!
# Link statistics

The collector reads the counters of all stations from time to time and exports them as gauges with
labels: a counter becomes its rate since the sample before. Under the label `nexthop` it exports the
numbers of the station that is the next hop, and under four other labels aggregates over all
stations. Gauges and samples are kept from one dump to the next. Numbers are those of an ordered
field.
-/

namespace Fbmeshd

/-- Whether a metric is exported as it is or as a rate. -/
inductive MetricKind where
  | abs
  | delta
  deriving DecidableEq

/-- The keys of `_abs_metrics` and `_delta_metrics`, and the metrics that are known by name. -/
structure MetricTables (M : Type*) where
  kind : M → Option MetricKind
  rxPackets : M
  rxDropMisc : M
  rxDropMiscPct : M
  drop_ne_packets : rxDropMisc ≠ rxPackets
  pct_abs : kind rxDropMiscPct = some .abs

/-- The keys of `_abs_metrics`. -/
def absMetrics : List String :=
  ["tx bitrate", "rx bitrate", "expected throughput", "fail_avg", "inactive time", "signal",
    "wlan clients", "wlan dhcp leases", "frequency", "channel active time", "channel busy time",
    "channel receive time", "channel transmit time", "noise", "tx queue size", "rssi_threshold",
    "is_system_degraded", "VmRSS", "process_uptime", "gate_ping_avg", "gate_ping_p50",
    "gate_ping_p90", "gate_ping_p99", "gate_ping_loss", "avg_tx_bitrate", "avg_signal",
    "rx drop misc pct", "tmpfs_kbs"] ++
  ["route_dampener_default_route_dampened_avg", "route_dampener_default_route_history_avg",
    "probe_wan_connectivity_success_sum", "probe_wan_connectivity_failed_in_use_sum",
    "probe_wan_connectivity_failed_socket_sum",
    "probe_wan_connectivity_failed_setsockopt_reuseaddr_sum",
    "probe_wan_connectivity_failed_fcntl_getfl_sum",
    "probe_wan_connectivity_failed_fcntl_setfl_sum",
    "probe_wan_connectivity_failed_setsockopt_bindtodevice_sum",
    "probe_wan_connectivity_failed_not_einprogress_sum",
    "probe_wan_connectivity_failed_timeout_sum",
    "probe_wan_connectivity_failed_getsockopt_error_sum",
    "probe_wan_connectivity_failed_err_non_zero_sum"].map
      ("fbmeshd_gateway_connectivity_monitor_" ++ ·)

/-- The keys of `_delta_metrics`. -/
def deltaMetrics : List String :=
  ["rx bytes", "tx bytes", "tx retries", "tx failed", "rx packets", "rx drop misc",
    "eth0 tx bytes", "eth0 rx bytes", "wlan_soma tx bytes", "wlan_soma rx bytes", "txq_busy_rate",
    "MPDUs delivered to HTT", "MPDU errors (FCS, MIC, ENC)", "service_counters", "dns_requests",
    "dropped_frames_congestion", "dropped_frames_no_route", "dropped_frames_ttl", "fwded_unicast",
    "fwded_mcast", "overhead_packets", "overhead_bytes", "ttl_exceeded", "mesh_packets",
    "mesh_bytes", "mesh_qos_packets", "mesh_qos_bytes", "mesh_protocol_packets",
    "mesh_protocol_bytes", "mesh_stability", "coredumps", "drop_monitor_action",
    "drop_monitor_ping_fail", "drop_monitor_no_peer"]

/-- The metrics of the collector. -/
def metricTables : MetricTables String where
  kind key :=
    if key ∈ absMetrics then some .abs else if key ∈ deltaMetrics then some .delta else none
  rxPackets := "rx packets"
  rxDropMisc := "rx drop misc"
  rxDropMiscPct := "rx drop misc pct"
  drop_ne_packets := by decide
  pct_abs := by decide

/-- The labels of a gauge. Nothing is exported under those of the stations. -/
inductive Label (L : Type*) where
  | link (mac : L)
  | nexthop
  | aggregate (a : Aggregate)
  deriving DecidableEq

/-- A dump of the stations, with the next hops that the collector knows from different sources and
the clock reading made for each update. -/
structure StationDump (M L K : Type*) where
  stats : AList fun _ : M => AList fun _ : L => K
  stationCount : ℕ
  estabCount : ℕ
  nexthopMacSources : List L
  clock : M → Label L → K

/-- The gauges and, of each counter, the time and value of the sample before. -/
structure Collector (M L K : Type*) where
  gauges : M → Label L → Option K := fun _ _ => none
  samples : M → Label L → Option (K × K) := fun _ _ => none
  peerCount : ℕ := 0
  peerEstabCount : ℕ := 0

variable {M L K : Type*} [DecidableEq M] [DecidableEq L]

/-- `_get_nexthop_mac`, `none` for the empty text. -/
def getNexthopMac (nexthopMacSources : List L) : Option L :=
  match nexthopMacSources.dedup with
  | [mac] => some mac
  | _ => none

namespace StationDump

/-- The next hop at the time of the dump. -/
def nexthop (d : StationDump M L K) : Option L := getNexthopMac d.nexthopMacSources

/-- The number that the dump has for a metric of a station. -/
def value (d : StationDump M L K) (key : M) (mac : L) : Option K :=
  (d.stats.lookup key).bind (AList.lookup mac)

end StationDump

namespace Collector

/-- Set or remove a gauge. -/
def setGauge (key : M) (label : Label L) (value : Option K) (c : Collector M L K) :
    Collector M L K :=
  { c with gauges := Function.update c.gauges key (Function.update (c.gauges key) label value) }

/-- Remember a sample. -/
def setSample (key : M) (label : Label L) (sample : K × K) (c : Collector M L K) :
    Collector M L K :=
  { c with
    samples := Function.update c.samples key (Function.update (c.samples key) label sample) }

section Entries

variable {c : Collector M L K} {key m : M} {label l : Label L}

private theorem gauges_setGauge {v : Option K} :
    (c.setGauge key label v).gauges m l = if m = key ∧ l = label then v else c.gauges m l := by
  unfold setGauge
  by_cases hm : m = key
  · subst hm
    by_cases hl : l = label <;> simp [hl]
  · simp [hm]

private theorem samples_setSample {v : K × K} :
    (c.setSample key label v).samples m l =
      if m = key ∧ l = label then some v else c.samples m l := by
  unfold setSample
  by_cases hm : m = key
  · subst hm
    by_cases hl : l = label <;> simp [hl]
  · simp [hm]

@[simp] private theorem samples_setGauge {v : Option K} :
    (c.setGauge key label v).samples = c.samples := rfl

@[simp] private theorem gauges_setSample {v : K × K} :
    (c.setSample key label v).gauges = c.gauges := rfl

end Entries

variable [Field K] [LinearOrder K] (T : MetricTables M)

/-- `_update_metrics`, with the value it returns. -/
def updateMetrics (key : M) (value : K) (label : Label L) (hidden : Bool) (now : K)
    (c : Collector M L K) : Option K × Collector M L K :=
  match T.kind key with
  | some .abs => (some value, if hidden then c else c.setGauge key label value)
  | some .delta =>
    let prev := (c.samples key label).getD (now, value)
    let c := c.setSample key label (now, value)
    let valueDiff := value - prev.2
    let timeDiff := now - prev.1
    if timeDiff ≤ 0 ∨ valueDiff < 0 then (none, c)
    else
      let rate := valueDiff / timeDiff
      (some rate, if hidden then c else c.setGauge key label rate)
  | none => (none, c)

/-- `_delete_metrics`. -/
def deleteMetrics (key : M) (label : Label L) (c : Collector M L K) : Collector M L K :=
  if (T.kind key).isSome then c.setGauge key label none else c

/-- `_update_nexthop_metric`. -/
def updateNexthopMetric (nexthopMac : Option L) (key : M) (linkStats : L → Option K) (now : K)
    (c : Collector M L K) : Collector M L K :=
  match nexthopMac.bind linkStats with
  | some value => (c.updateMetrics T key value .nexthop false now).2
  | none => c.deleteMetrics T key .nexthop

/-- `_update_aggregate_metrics`. -/
def updateAggregateMetrics (key : M) (value : K) (agg : Label L) (c : Collector M L K) :
    Collector M L K :=
  if (T.kind key).isSome then c.setGauge key agg value else c

/-- The local variables of `_parse_mesh0_station_dump`. -/
structure Recorded (M L K : Type*) where
  aggStats : AList fun _ : M => List K := ∅
  rxPktRate : List (L × K) := []
  rxDropRate : List (L × K) := []

/-- `agg_stats[metric_name].append(res)`. -/
def Recorded.append (key : M) (res : K) (r : Recorded M L K) : Recorded M L K :=
  { r with aggStats := r.aggStats.insert key ((r.aggStats.lookup key).getD [] ++ [res]) }

/-- What is done with the value of a link, if it is not zero. -/
def Recorded.record (key : M) (mac : L) (res : K) (r : Recorded M L K) : Recorded M L K :=
  if res = 0 then r
  else
    let r := r.append key res
    if key = T.rxPackets then { r with rxPktRate := r.rxPktRate ++ [(mac, res)] }
    else if key = T.rxDropMisc then { r with rxDropRate := r.rxDropRate ++ [(mac, res)] }
    else r

/-- The loop body for a link of a metric. -/
def visitLink (d : StationDump M L K) (key : M) (s : Collector M L K × Recorded M L K)
    (e : Σ _ : L, K) : Collector M L K × Recorded M L K :=
  let u := s.1.updateMetrics T key e.2 (.link e.1) true (d.clock key (.link e.1))
  (u.2, u.1.elim s.2 fun res => s.2.record T key e.1 res)

/-- The loop body for a metric. -/
def visitMetric (d : StationDump M L K) (s : Collector M L K × Recorded M L K)
    (e : Σ _ : M, AList fun _ : L => K) : Collector M L K × Recorded M L K :=
  let s := e.2.entries.foldl (visitLink T d e.1) s
  (s.1.updateNexthopMetric T d.nexthop e.1 (AList.lookup · e.2) (d.clock e.1 .nexthop), s.2)

/-- The share of dropped packets of a link, zero where there are few packets. -/
def dropShare (rxDropRate : List (L × K)) (e : L × K) : K :=
  if 10 < e.2 then (rxDropRate.lookup e.1).elim 0 (· / e.2) else 0

/-- The loop body for the share of dropped packets. It also collects the shares that are not
zero. -/
def visitShare (d : StationDump M L K)
    (s : Collector M L K × Recorded M L K × List (L × K)) (e : L × K) :
    Collector M L K × Recorded M L K × List (L × K) :=
  let u := s.1.updateMetrics T T.rxDropMiscPct (dropShare s.2.1.rxDropRate e) (.link e.1) true
    (d.clock T.rxDropMiscPct (.link e.1))
  match u.1 with
  | some res =>
    if res = 0 then (u.2, s.2)
    else (u.2, s.2.1.append T.rxDropMiscPct res, s.2.2 ++ [(e.1, res)])
  | none => (u.2, s.2)

/-- The aggregates of a metric. The list is never empty. -/
def exportAggregates (c : Collector M L K) (e : Σ _ : M, List K) : Collector M L K :=
  let c := c.updateAggregateMetrics T e.1 e.2.sum (.aggregate .sum)
  let c := c.updateAggregateMetrics T e.1 (e.2.sum / e.2.length) (.aggregate .avg)
  let c := e.2.max?.elim c fun value => c.updateAggregateMetrics T e.1 value (.aggregate .max)
  e.2.min?.elim c fun value => c.updateAggregateMetrics T e.1 value (.aggregate .min)

/-- `_parse_mesh0_station_dump`, of the statistics that are read from the text. -/
def parseMesh0StationDump (d : StationDump M L K) (c : Collector M L K) : Collector M L K :=
  let s := d.stats.entries.foldl (visitMetric T d) (c, {})
  let p := s.2.rxPktRate.foldl (visitShare T d) (s.1, s.2, [])
  let c := p.1.updateNexthopMetric T d.nexthop T.rxDropMiscPct (p.2.2.lookup ·)
    (d.clock T.rxDropMiscPct .nexthop)
  let c := { c with peerCount := d.stationCount, peerEstabCount := d.estabCount }
  p.2.1.aggStats.entries.foldl (exportAggregates T) c

/-- The collector after some dumps. -/
def run (ds : List (StationDump M L K)) : Collector M L K :=
  ds.foldl (fun c d => c.parseMesh0StationDump T d) {}

/-- One more dump. -/
theorem run_append (ds : List (StationDump M L K)) (d : StationDump M L K) :
    run T (ds ++ [d]) = (run T ds).parseMesh0StationDump T d := by
  rw [run, List.foldl_append]
  rfl

/-! ### What an update does -/

/-- The rate since a sample, where time has passed and the counter has not been reset. -/
def rateSince (prev : K × K) (value now : K) : Option K :=
  if prev.1 < now ∧ prev.2 ≤ value then some ((value - prev.2) / (now - prev.1)) else none

/-- The value of a metric, given the sample before. -/
def availableValue (kind : Option MetricKind) (prev : Option (K × K)) (value now : K) : Option K :=
  match kind with
  | some .abs => some value
  | some .delta => prev.bind fun prev => rateSince prev value now
  | none => none

section Update

variable {T} {c : Collector M L K} {key m : M} {label l : Label L} {value now : K} {hidden : Bool}

/-- Samples are kept of the metrics whose differences are exported. -/
theorem updateMetrics_samples :
    (c.updateMetrics T key value label hidden now).2.samples m l =
      if T.kind key = some .delta ∧ m = key ∧ l = label then some (now, value)
      else c.samples m l := by
  unfold updateMetrics
  cases hkind : T.kind key with
  | none => simp
  | some kind =>
    cases kind with
    | abs => cases hidden <;> simp
    | delta =>
      dsimp only
      split
      · simp [samples_setSample]
      · cases hidden <;> simp [samples_setSample]

variable [IsStrictOrderedRing K]

/-- Without a sample before, the defaults make the interval empty. -/
theorem updateMetrics_fst (c : Collector M L K) (key : M) (value : K) (label : Label L)
    (hidden : Bool) (now : K) :
    (c.updateMetrics T key value label hidden now).1 =
      availableValue (T.kind key) (c.samples key label) value now := by
  unfold updateMetrics availableValue
  cases T.kind key with
  | none => rfl
  | some kind =>
    cases kind with
    | abs => rfl
    | delta =>
      cases hprev : c.samples key label with
      | none => simp
      | some prev =>
        simp only [Option.getD_some, Option.bind_some, rateSince, sub_nonpos, sub_neg]
        split
        next h => rw [if_neg (by rw [not_and_or, not_lt, not_le]; exact h)]
        next h =>
          rw [not_or, not_le, not_lt] at h
          rw [if_pos h]

private theorem updateMetrics_gauges :
    (c.updateMetrics T key value label hidden now).2.gauges m l =
      if hidden = false ∧ m = key ∧ l = label then
        (availableValue (T.kind key) (c.samples key label) value now).orElse fun _ => c.gauges m l
      else c.gauges m l := by
  rw [← updateMetrics_fst c key value label hidden now]
  unfold updateMetrics
  cases T.kind key with
  | none => simp
  | some kind =>
    cases kind with
    | abs => cases hidden <;> simp [gauges_setGauge]
    | delta =>
      dsimp only
      split
      · simp
      · cases hidden <;> simp [gauges_setGauge]

private theorem gauges_updateMetrics_hidden :
    (c.updateMetrics T key value label true now).2.gauges = c.gauges := by
  funext m l
  rw [updateMetrics_gauges, if_neg (by simp)]

end Update

/-! ### What a dump does to one metric -/

section Rows

variable {T} {d : StationDump M L K} {key m : M} {ls : AList fun _ : L => K}
  {s : Collector M L K × Recorded M L K} {l : Label L}

/-- The number that a dump has under a label. -/
def sampled (d : StationDump M L K) (ls : AList fun _ : L => K) : Label L → Option K
  | .link mac => ls.lookup mac
  | .nexthop => d.nexthop.bind (AList.lookup · ls)
  | _ => none

/-- The samples of a metric after a dump. -/
def nextSamples (T : MetricTables M) (d : StationDump M L K) (m : M) (ls : AList fun _ : L => K)
    (old : Label L → Option (K × K)) (l : Label L) : Option (K × K) :=
  if T.kind m = some .delta then
    ((sampled d ls l).map fun v => (d.clock m l, v)).orElse fun _ => old l
  else old l

private theorem samples_visitLinks_of_ne (h : m ≠ key ∨ ∀ mac, l ≠ .link mac) :
    (ls.entries.foldl (visitLink T d key) s).1.samples m l = s.1.samples m l := by
  refine List.foldlRecOn (motive := fun t : Collector M L K × Recorded M L K =>
    t.1.samples m l = s.1.samples m l) _ _ rfl fun t ht e _ => ?_
  rw [← ht]
  refine updateMetrics_samples.trans (if_neg ?_)
  rintro ⟨-, rfl, rfl⟩
  exact h.elim (fun hm => hm rfl) fun hl => hl e.1 rfl

/-- Each link is visited once. -/
theorem samples_visitLinks_link (mac : L) :
    (ls.entries.foldl (visitLink T d key) s).1.samples key (.link mac) =
      nextSamples T d key ls (s.1.samples key) (.link mac) := by
  have hstep (t : Collector M L K × Recorded M L K) (e : Σ _ : L, K) :
      (visitLink T d key t e).1.samples key (.link mac) =
        if T.kind key = some .delta ∧ mac = e.1 then some (d.clock key (.link e.1), e.2)
        else t.1.samples key (.link mac) := by
    refine updateMetrics_samples.trans ?_
    simp
  rw [AList.view_foldl_entries (visitLink T d key)
    (fun t : Collector M L K × Recorded M L K => t.1.samples key (.link mac)) mac
    (fun t e he => ?_) (fun t t' v ht => ?_)]
  · rw [nextSamples, sampled]
    cases hv : ls.lookup mac with
    | none => simp
    | some v => simp [hstep]
  · rw [hstep, if_neg fun h => he h.2.symm]
  · rw [hstep, hstep, ht]

private theorem updateNexthopMetric_samples {c : Collector M L K} {nexthopMac : Option L}
    {linkStats : L → Option K} {now : K} :
    (c.updateNexthopMetric T nexthopMac key linkStats now).samples m l =
      if T.kind key = some .delta ∧ m = key ∧ l = .nexthop then
        ((nexthopMac.bind linkStats).map fun v => (now, v)).orElse fun _ => c.samples m l
      else c.samples m l := by
  unfold updateNexthopMetric
  cases nexthopMac.bind linkStats with
  | none =>
    dsimp only [deleteMetrics]
    split <;> simp
  | some v => exact updateMetrics_samples.trans (by simp)

/-- The samples of a metric after its round. -/
theorem samples_visitMetric :
    (visitMetric T d s ⟨m, ls⟩).1.samples m l = nextSamples T d m ls (s.1.samples m) l := by
  refine updateNexthopMetric_samples.trans ?_
  dsimp only
  cases l with
  | link mac => rw [if_neg (by simp), samples_visitLinks_link]
  | nexthop =>
    rw [samples_visitLinks_of_ne (.inr (by simp))]
    simp [nextSamples, sampled]
  | aggregate a =>
    rw [if_neg (by simp), samples_visitLinks_of_ne (.inr (by simp))]
    simp [nextSamples, sampled]

/-- The round of another metric leaves them. -/
theorem samples_visitMetric_of_ne (h : m ≠ key) :
    (visitMetric T d s ⟨key, ls⟩).1.samples m l = s.1.samples m l := by
  refine updateNexthopMetric_samples.trans ?_
  rw [if_neg (by simp [h])]
  exact samples_visitLinks_of_ne (.inl h)

/-- The loop over the metrics changes the samples of a metric by its own entry. -/
theorem samples_visitMetrics (m : M) :
    (d.stats.entries.foldl (visitMetric T d) s).1.samples m =
      (d.stats.lookup m).elim (s.1.samples m) fun ls =>
        nextSamples T d m ls (s.1.samples m) := by
  rw [AList.view_foldl_entries (visitMetric T d)
    (fun t : Collector M L K × Recorded M L K => t.1.samples m) m
    (fun t e he => funext fun l => samples_visitMetric_of_ne (Ne.symm he)) (fun t t' ls ht => ?_)]
  · cases d.stats.lookup m with
    | none => rfl
    | some ls => exact funext fun l => samples_visitMetric
  · funext l
    rw [samples_visitMetric, samples_visitMetric, ht]

variable [IsStrictOrderedRing K]

private theorem gauges_visitLinks :
    (ls.entries.foldl (visitLink T d key) s).1.gauges = s.1.gauges :=
  List.foldlRecOn (motive := fun t : Collector M L K × Recorded M L K => t.1.gauges = s.1.gauges)
    _ _ rfl fun _ ht _ _ => gauges_updateMetrics_hidden.trans ht

/-- The gauges of a metric after a dump, but for the aggregates. -/
def nextGauges (T : MetricTables M) (d : StationDump M L K) (m : M) (ls : AList fun _ : L => K)
    (oldSamples : Label L → Option (K × K)) (old : Label L → Option K) (l : Label L) : Option K :=
  if l = .nexthop then
    match sampled d ls .nexthop with
    | some v =>
      (availableValue (T.kind m) (oldSamples .nexthop) v (d.clock m .nexthop)).orElse fun _ =>
        old .nexthop
    | none => if (T.kind m).isSome then none else old .nexthop
  else old l

/-- The gauge of the next hop is set, and no other one. -/
theorem updateNexthopMetric_gauges {c : Collector M L K} {nexthopMac : Option L}
    {linkStats : L → Option K} {now : K} :
    (c.updateNexthopMetric T nexthopMac key linkStats now).gauges m l =
      if m = key ∧ l = .nexthop then
        match nexthopMac.bind linkStats with
        | some v =>
          (availableValue (T.kind key) (c.samples key .nexthop) v now).orElse fun _ => c.gauges m l
        | none => if (T.kind key).isSome then none else c.gauges m l
      else c.gauges m l := by
  unfold updateNexthopMetric
  cases nexthopMac.bind linkStats with
  | none =>
    dsimp only [deleteMetrics]
    split <;> simp [gauges_setGauge]
  | some v => exact updateMetrics_gauges.trans (by simp)

private theorem gauges_visitMetric :
    (visitMetric T d s ⟨m, ls⟩).1.gauges m l =
      nextGauges T d m ls (s.1.samples m) (s.1.gauges m) l := by
  refine updateNexthopMetric_gauges.trans ?_
  dsimp only
  rw [gauges_visitLinks, samples_visitLinks_of_ne (.inr (by simp)), nextGauges, sampled]
  by_cases hl : l = .nexthop
  · subst hl
    simp
  · simp [hl]

private theorem gauges_visitMetric_of_ne (h : m ≠ key) :
    (visitMetric T d s ⟨key, ls⟩).1.gauges m l = s.1.gauges m l := by
  refine updateNexthopMetric_gauges.trans ?_
  rw [if_neg (by simp [h]), gauges_visitLinks]

/-- The gauges after all metrics of a dump. -/
theorem gauges_visitMetrics (m : M) :
    (d.stats.entries.foldl (visitMetric T d) s).1.gauges m =
      (d.stats.lookup m).elim (s.1.gauges m) fun ls =>
        nextGauges T d m ls (s.1.samples m) (s.1.gauges m) := by
  have hview := AList.view_foldl_entries (visitMetric T d)
    (fun t : Collector M L K × Recorded M L K => (t.1.gauges m, t.1.samples m)) m
    (fun t e he => Prod.ext (funext fun l => gauges_visitMetric_of_ne (Ne.symm he))
      (funext fun l => samples_visitMetric_of_ne (Ne.symm he)))
    (fun t t' ls ht => ?_) d.stats s
  · refine (congrArg Prod.fst hview).trans ?_
    cases d.stats.lookup m with
    | none => rfl
    | some ls => exact funext fun l => gauges_visitMetric
  · obtain ⟨hg, hs⟩ := Prod.mk.inj ht
    refine Prod.ext (funext fun l => ?_) (funext fun l => ?_)
    · dsimp only
      rw [gauges_visitMetric, gauges_visitMetric, hg, hs]
    · dsimp only
      rw [samples_visitMetric, samples_visitMetric, hs]

end Rows

/-! ### What the end of a dump does -/

section Rest

variable {T} {d : StationDump M L K} {c : Collector M L K} {m key : M} {l : Label L}

/-- The share of dropped packets is not exported for a link. -/
theorem visitShare_eq (s : Collector M L K × Recorded M L K × List (L × K)) (e : L × K) :
    visitShare T d s e =
      if dropShare s.2.1.rxDropRate e = 0 then s
      else (s.1, s.2.1.append T.rxDropMiscPct (dropShare s.2.1.rxDropRate e),
        s.2.2 ++ [(e.1, dropShare s.2.1.rxDropRate e)]) := by
  unfold visitShare updateMetrics
  rw [T.pct_abs]
  rfl

/-- The shares change nothing in the collector. -/
theorem visitShares_fst {es : List (L × K)} {s : Collector M L K × Recorded M L K × List (L × K)} :
    (es.foldl (visitShare T d) s).1 = s.1 := by
  refine List.foldlRecOn (motive := fun t : Collector M L K × Recorded M L K × List (L × K) =>
    t.1 = s.1) _ _ rfl fun t ht e _ => ?_
  rw [visitShare_eq]
  split
  · exact ht
  · exact ht

omit [Field K] [LinearOrder K] in
private theorem gauges_updateAggregateMetrics {value : K} {a : Aggregate} :
    (c.updateAggregateMetrics T key value (.aggregate a)).gauges m l =
      if (m = key ∧ l = .aggregate a) ∧ (T.kind key).isSome then some value
      else c.gauges m l := by
  unfold updateAggregateMetrics
  split
  next h => simp [gauges_setGauge, h]
  next h => simp [h]

omit [Field K] [LinearOrder K] in
@[simp] private theorem samples_updateAggregateMetrics {value : K} {a : Label L} :
    (c.updateAggregateMetrics T key value a).samples = c.samples := by
  unfold updateAggregateMetrics
  split <;> rfl

private theorem samples_exportAggregates {es : List (Σ _ : M, List K)} :
    (es.foldl (exportAggregates T) c).samples = c.samples := by
  refine List.foldlRecOn (motive := fun t : Collector M L K => t.samples = c.samples) _ _ rfl
    fun t ht e _ => ?_
  rw [← ht]
  unfold exportAggregates
  cases e.2.max? <;> cases e.2.min? <;> simp

/-- The aggregates of the list are exported, as far as it has them. -/
theorem gauges_exportAggregates {vals : List K} {a : Aggregate} :
    (exportAggregates T c ⟨m, vals⟩).gauges m (.aggregate a) =
      if (T.kind m).isSome then (a.eval vals).orElse fun _ => c.gauges m (.aggregate a)
      else c.gauges m (.aggregate a) := by
  unfold exportAggregates
  cases a <;> cases hmax : vals.max? <;> cases hmin : vals.min? <;>
    simp [gauges_updateAggregateMetrics, Aggregate.eval, hmax, hmin]

/-- The aggregates of a metric leave the other ones and the next hop. -/
theorem gauges_exportAggregates_of_ne {e : Σ _ : M, List K} (h : m ≠ e.1 ∨ l = .nexthop) :
    (exportAggregates T c e).gauges m l = c.gauges m l := by
  have hne (a : Aggregate) : ¬((m = e.1 ∧ l = .aggregate a) ∧ (T.kind e.1).isSome) := by
    rintro ⟨⟨hm, rfl⟩, -⟩
    exact h.elim (· hm) (by simp)
  unfold exportAggregates
  cases e.2.max? <;> cases e.2.min? <;> simp [gauges_updateAggregateMetrics, hne]

private theorem gauges_exportAggregates_nexthop {es : List (Σ _ : M, List K)} :
    (es.foldl (exportAggregates T) c).gauges m .nexthop = c.gauges m .nexthop :=
  List.foldlRecOn
    (motive := fun t : Collector M L K => t.gauges m .nexthop = c.gauges m .nexthop) _ _ rfl
    fun _ ht _ _ => (gauges_exportAggregates_of_ne (.inr rfl)).trans ht

/-- The samples after a dump. -/
theorem samples_parseMesh0StationDump (m : M) :
    (c.parseMesh0StationDump T d).samples m =
      (d.stats.lookup m).elim (c.samples m) fun ls => nextSamples T d m ls (c.samples m) := by
  refine (congrFun samples_exportAggregates m).trans ?_
  rw [← samples_visitMetrics (s := (c, {}))]
  funext l
  refine updateNexthopMetric_samples.trans ?_
  rw [if_neg (by simp [T.pct_abs]), visitShares_fst]

variable [IsStrictOrderedRing K]

/-- What is exported for the next hop is what the loop over the metrics exports. -/
theorem gauges_parseMesh0StationDump_nexthop (hm : m ≠ T.rxDropMiscPct) :
    (c.parseMesh0StationDump T d).gauges m .nexthop =
      (d.stats.lookup m).elim (c.gauges m .nexthop) fun ls =>
        nextGauges T d m ls (c.samples m) (c.gauges m) .nexthop := by
  refine gauges_exportAggregates_nexthop.trans (updateNexthopMetric_gauges.trans ?_)
  rw [if_neg fun h => hm h.1, visitShares_fst, gauges_visitMetrics]
  cases d.stats.lookup m <;> rfl

end Rest

end Collector

end Fbmeshd
