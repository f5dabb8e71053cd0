import Fbmeshd.Linkstatsd.Collector
import Mathlib.Algebra.Order.Field.Rat

/-!
# Aggregates over the stations

A value that is zero is not appended to the list of its metric, and a metric without a list is not
exported. Its aggregates are then those of an earlier dump.
-/

namespace Fbmeshd.Collector

variable {M L K : Type*} [DecidableEq M] [Field K] [LinearOrder K]
  {T : MetricTables M} {c : Collector M L K} {d : StationDump M L K} {m key : M}

/-! ### The available values -/

/-- The available values of a metric, zero included, given the samples before. -/
def linkValues (T : MetricTables M) (d : StationDump M L K) (m : M)
    (samples : Label L → Option (K × K)) (es : List (Σ _ : L, K)) : List (L × K) :=
  es.filterMap fun e =>
    (availableValue (T.kind m) (samples (.link e.1)) e.2 (d.clock m (.link e.1))).map (Prod.mk e.1)

/-- The available values of a metric in a dump. -/
def dumpValues (T : MetricTables M) (c : Collector M L K) (d : StationDump M L K) (m : M) :
    List (L × K) :=
  (d.stats.lookup m).elim [] fun ls => linkValues T d m (c.samples m) ls.entries

/-- The values that are not zero. -/
def nonzero (ps : List (L × K)) : List (L × K) := ps.filter (·.2 != 0)

/-- The shares of dropped packets, of the links that receive packets. -/
def shares [DecidableEq L] (T : MetricTables M) (c : Collector M L K) (d : StationDump M L K) :
    List K :=
  (nonzero (dumpValues T c d T.rxPackets)).map
    (dropShare (nonzero (dumpValues T c d T.rxDropMisc)))

/-- All available values of a metric, those that the dump has no number for included. -/
def available [DecidableEq L] (T : MetricTables M) (c : Collector M L K) (d : StationDump M L K)
    (m : M) : List K :=
  (dumpValues T c d m).map Prod.snd ++ if m = T.rxDropMiscPct then shares T c d else []

/-! ### What is appended -/

section Append

variable {r : Recorded M L K} {mac : L} {v : K}

omit [Field K] [LinearOrder K] in
private theorem lookup_append :
    (r.append key v).aggStats.lookup m =
      if m = key then some ((r.aggStats.lookup m).getD [] ++ [v]) else r.aggStats.lookup m := by
  unfold Recorded.append
  by_cases hm : m = key
  · subst hm
    rw [AList.lookup_insert, if_pos rfl]
  · rw [AList.lookup_insert_ne hm, if_neg hm]

private theorem lookup_record :
    (r.record T key mac v).aggStats.lookup m =
      if m = key ∧ v ≠ 0 then some ((r.aggStats.lookup m).getD [] ++ [v])
      else r.aggStats.lookup m := by
  unfold Recorded.record
  by_cases hv : v = 0
  · simp [hv]
  · simp only [hv, if_false, not_false_eq_true, and_true, ne_eq, ← lookup_append]
    split
    · rfl
    · split <;> rfl

private theorem rxPktRate_record :
    (r.record T key mac v).rxPktRate =
      r.rxPktRate ++ if key = T.rxPackets then nonzero [(mac, v)] else [] := by
  unfold Recorded.record
  by_cases hv : v = 0
  · simp [hv, nonzero]
  · by_cases hp : key = T.rxPackets
    · simp [hv, hp, nonzero, Recorded.append]
    · rw [if_neg hv, if_neg hp]
      split <;> simp [Recorded.append]

private theorem rxDropRate_record :
    (r.record T key mac v).rxDropRate =
      r.rxDropRate ++ if key = T.rxDropMisc then nonzero [(mac, v)] else [] := by
  unfold Recorded.record
  by_cases hv : v = 0
  · simp [hv, nonzero]
  · by_cases hd : key = T.rxDropMisc
    · simp [hv, hd, T.drop_ne_packets, nonzero, Recorded.append]
    · rw [if_neg hv]
      simp only [hd, if_false, List.append_nil]
      split <;> rfl

end Append

/-- The loop over the links of a metric. -/
def recordAll (T : MetricTables M) (m : M) (ps : List (L × K)) (r : Recorded M L K) :
    Recorded M L K :=
  ps.foldl (fun r p => r.record T m p.1 p.2) r

section Loops

variable {r : Recorded M L K}

/-- The entry of `agg_stats` with these values. There is none before the first. -/
def aggEntry (vals : List K) : Option (List K) := if vals = [] then none else some vals

omit [Field K] [LinearOrder K] in
private theorem aggEntry_append (vals : List K) (v : K) :
    aggEntry (vals ++ [v]) = some ((aggEntry vals).getD [] ++ [v]) := by
  cases vals <;> simp [aggEntry]

private theorem lookup_recordAll (vals : List K) (h : r.aggStats.lookup m = aggEntry vals)
    (ps : List (L × K)) :
    (recordAll T m ps r).aggStats.lookup m =
      aggEntry (vals ++ (ps.map Prod.snd).filter (· != 0)) := by
  induction ps generalizing r vals with
  | nil => simpa [recordAll] using h
  | cons p ps ih =>
    by_cases hv : p.2 = 0
    · refine (ih vals (lookup_record.trans ?_)).trans ?_
      · simp [hv, h]
      · simp [hv]
    · refine (ih (vals ++ [p.2]) (lookup_record.trans ?_)).trans ?_
      · rw [if_pos ⟨rfl, hv⟩, aggEntry_append, h]
      · simp [hv]

private theorem nonzero_cons (p : L × K) (ps : List (L × K)) :
    nonzero (p :: ps) = nonzero [p] ++ nonzero ps :=
  List.filter_append [p] ps

/-- A list to which the values of a metric are appended, those of other metrics not. -/
theorem appended_recordAll {rates : Recorded M L K → List (L × K)}
    (h : ∀ r key mac v, rates (r.record T key mac v) =
      rates r ++ if key = m then nonzero [(mac, v)] else []) (ps : List (L × K)) :
    rates (recordAll T m ps r) = rates r ++ nonzero ps := by
  induction ps generalizing r with
  | nil => simp [recordAll, nonzero]
  | cons p ps ih =>
    refine ih.trans ?_
    rw [h, if_pos rfl, List.append_assoc, ← nonzero_cons]

variable [DecidableEq L] [IsStrictOrderedRing K]

/-- A link is visited once, so its rate is since the sample of an earlier dump. -/
theorem recorded_visitLinks {es : List (Σ _ : L, K)} (hes : es.NodupKeys)
    (s : Collector M L K × Recorded M L K) :
    (es.foldl (visitLink T d m) s).2 =
      recordAll T m (linkValues T d m (s.1.samples m) es) s.2 := by
  induction es generalizing s with
  | nil => rfl
  | cons e es ih =>
    obtain ⟨hnew, hrest⟩ := List.nodupKeys_cons.mp hes
    have hlater : linkValues T d m ((visitLink T d m s e).1.samples m) es =
        linkValues T d m (s.1.samples m) es := by
      refine List.filterMap_congr fun e' he' => ?_
      have hne : e'.1 ≠ e.1 := fun h => hnew (h ▸ List.mem_keys_of_mem he')
      have hsample : (visitLink T d m s e).1.samples m (.link e'.1) =
          s.1.samples m (.link e'.1) := updateMetrics_samples.trans (if_neg (by simp [hne]))
      rw [hsample]
    have hvisited : (visitLink T d m s e).2 =
        (availableValue (T.kind m) (s.1.samples m (.link e.1)) e.2 (d.clock m (.link e.1))).elim s.2
          fun res => s.2.record T m e.1 res :=
      congrArg (Option.elim · s.2 fun res => s.2.record T m e.1 res) (updateMetrics_fst ..)
    rw [List.foldl_cons, ih hrest, hlater, hvisited, linkValues, linkValues, List.filterMap_cons]
    cases availableValue (T.kind m) (s.1.samples m (.link e.1)) e.2 (d.clock m (.link e.1)) with
    | none => rfl
    | some v => rfl

/-- What the loop over the metrics records for a metric comes from the values of that metric. -/
theorem view_visitMetrics {τ : Type*} (view : Recorded M L K → τ) (m : M)
    (hlocal : ∀ r key mac v, key ≠ m → view (r.record T key mac v) = view r)
    (hcongr : ∀ r r' mac v, view r = view r' →
      view (r.record T m mac v) = view (r'.record T m mac v))
    (r : Recorded M L K) :
    view (d.stats.entries.foldl (visitMetric T d) (c, r)).2 =
      view (recordAll T m (dumpValues T c d m) r) := by
  have hrow (t : Collector M L K × Recorded M L K) (ls : AList fun _ : L => K) (key : M) :
      (visitMetric T d t ⟨key, ls⟩).2 =
        recordAll T key (linkValues T d key (t.1.samples key) ls.entries) t.2 :=
    recorded_visitLinks ls.nodupKeys t
  have hother (key : M) (hkey : key ≠ m) (ps : List (L × K)) (r : Recorded M L K) :
      view (recordAll T key ps r) = view r :=
    List.foldlRecOn (motive := fun t => view t = view r) _ _ rfl
      fun t ht p _ => (hlocal t key p.1 p.2 hkey).trans ht
  have hview := AList.view_foldl_entries (visitMetric T d)
    (fun t : Collector M L K × Recorded M L K => (t.1.samples m, view t.2)) m
    (fun t e he => Prod.ext (funext fun l => samples_visitMetric_of_ne (Ne.symm he))
      ((congrArg view (hrow t e.2 e.1)).trans (hother e.1 he _ _)))
    (fun t t' ls ht => ?_) d.stats (c, r)
  · refine (congrArg Prod.snd hview).trans ?_
    unfold dumpValues
    cases d.stats.lookup m with
    | none => rfl
    | some ls => exact congrArg view (hrow (c, r) ls m)
  · obtain ⟨hs, hv⟩ := Prod.mk.inj ht
    refine Prod.ext (funext fun l => ?_) ?_
    · dsimp only
      rw [samples_visitMetric, samples_visitMetric, hs]
    · dsimp only
      rw [hrow, hrow, hs]
      exact List.foldl_rel (r := fun r r' => view r = view r') hv
        fun p _ r r' hr => hcongr r r' p.1 p.2 hr

private theorem lookup_visitMetrics (m : M) :
    (d.stats.entries.foldl (visitMetric T d) (c, {})).2.aggStats.lookup m =
      aggEntry (((dumpValues T c d m).map Prod.snd).filter (· != 0)) := by
  refine (view_visitMetrics (fun r => r.aggStats.lookup m) m (fun r key mac v hkey => ?_)
    (fun r r' mac v hr => ?_) {}).trans ?_
  · exact lookup_record.trans (if_neg fun h => hkey h.1.symm)
  · rw [lookup_record, lookup_record, hr]
  · exact lookup_recordAll [] rfl _

private theorem appended_visitMetrics {rates : Recorded M L K → List (L × K)}
    (h : ∀ r key mac v, rates (r.record T key mac v) =
      rates r ++ if key = m then nonzero [(mac, v)] else []) (hnil : rates {} = []) :
    rates (d.stats.entries.foldl (visitMetric T d) (c, {})).2 = nonzero (dumpValues T c d m) := by
  refine (view_visitMetrics rates m (fun r key mac v hkey => ?_) (fun r r' mac v hr => ?_) {}).trans
    ?_
  · rw [h, if_neg hkey, List.append_nil]
  · rw [h, h, hr]
  · rw [appended_recordAll h, hnil, List.nil_append]

private theorem rxPktRate_visitMetrics :
    (d.stats.entries.foldl (visitMetric T d) (c, {})).2.rxPktRate =
      nonzero (dumpValues T c d T.rxPackets) :=
  appended_visitMetrics (fun _ _ _ _ => rxPktRate_record) rfl

private theorem rxDropRate_visitMetrics :
    (d.stats.entries.foldl (visitMetric T d) (c, {})).2.rxDropRate =
      nonzero (dumpValues T c d T.rxDropMisc) :=
  appended_visitMetrics (fun _ _ _ _ => rxDropRate_record) rfl

end Loops

/-! ### What is exported -/

section Export

variable [DecidableEq L]

/-- Only metrics of the tables have values. -/
theorem isSome_kind_of_mem_available {v : K} (hv : v ∈ available T c d m) : (T.kind m).isSome := by
  rcases List.mem_append.mp hv with hv | hv
  · obtain ⟨p, hp, -⟩ := List.mem_map.mp hv
    unfold dumpValues at hp
    cases hls : d.stats.lookup m with
    | none => simp [hls] at hp
    | some ls =>
      rw [hls] at hp
      obtain ⟨e, -, he⟩ := List.mem_filterMap.mp hp
      cases hkind : T.kind m with
      | none => simp [hkind, availableValue] at he
      | some kind => rfl
  · split at hv
    next hm => simp [hm, T.pct_abs]
    next => simp at hv

private theorem lookup_visitShares (vals : List K) (es : List (L × K))
    (s : Collector M L K × Recorded M L K × List (L × K))
    (h : s.2.1.aggStats.lookup m = aggEntry vals) :
    (es.foldl (visitShare T d) s).2.1.aggStats.lookup m =
      aggEntry (vals ++ if m = T.rxDropMiscPct then
        (es.map (dropShare s.2.1.rxDropRate)).filter (· != 0) else []) := by
  induction es generalizing s vals with
  | nil => simpa using h
  | cons e es ih =>
    rw [List.foldl_cons, visitShare_eq]
    by_cases hzero : dropShare s.2.1.rxDropRate e = 0
    · rw [if_pos hzero, ih vals s h]
      simp [hzero]
    · rw [if_neg hzero]
      by_cases hm : m = T.rxDropMiscPct
      · refine (ih (vals ++ [dropShare s.2.1.rxDropRate e]) _ ?_).trans ?_
        · rw [lookup_append, if_pos hm, aggEntry_append, h]
        · simp [hm, hzero, Recorded.append]
      · refine (ih vals _ ?_).trans ?_
        · rw [lookup_append, if_neg hm, h]
        · simp [hm]

variable [IsStrictOrderedRing K]

/-- The values that are not zero have been appended when the aggregates are exported. -/
theorem lookup_aggStats (c : Collector M L K) (m : M) :
    let s := d.stats.entries.foldl (visitMetric T d) (c, {})
    (s.2.rxPktRate.foldl (visitShare T d) (s.1, s.2, [])).2.1.aggStats.lookup m =
      aggEntry ((available T c d m).filter (· != 0)) := by
  intro s
  refine (lookup_visitShares _ _ (s.1, s.2, []) (lookup_visitMetrics m)).trans ?_
  dsimp only [s]
  rw [rxPktRate_visitMetrics, rxDropRate_visitMetrics, available, List.filter_append]
  split <;> rfl

private theorem gauges_before_aggregates (c : Collector M L K) (m : M) (a : Aggregate) (now : K)
    (linkStats : L → Option K) :
    let s := d.stats.entries.foldl (visitMetric T d) (c, {})
    (s.1.updateNexthopMetric T d.nexthop T.rxDropMiscPct linkStats now).gauges m (.aggregate a) =
      c.gauges m (.aggregate a) := by
  intro s
  rw [updateNexthopMetric_gauges, if_neg (by simp), gauges_visitMetrics]
  cases d.stats.lookup m <;> rfl

/-- The aggregates that are exported are those of the values that are not zero. -/
theorem gauges_parseMesh0StationDump_aggregate (m : M) (a : Aggregate) :
    (c.parseMesh0StationDump T d).gauges m (.aggregate a) =
      if (available T c d m).filter (· != 0) = [] then c.gauges m (.aggregate a)
      else a.eval ((available T c d m).filter (· != 0)) := by
  refine (AList.view_foldl_entries (exportAggregates T)
    (fun t : Collector M L K => t.gauges m (.aggregate a)) m
    (fun t e he => gauges_exportAggregates_of_ne (.inl (Ne.symm he)))
    (fun t t' vals ht => ?_) _ _).trans ?_
  · rw [gauges_exportAggregates, gauges_exportAggregates, ht]
  refine (congrArg (Option.elim · _ _) (lookup_aggStats c m)).trans ?_
  have hold := gauges_before_aggregates (T := T) (d := d) c m a
  by_cases hnil : (available T c d m).filter (· != 0) = []
  · rw [hnil, aggEntry, if_pos rfl, if_pos rfl]
    dsimp only [Option.elim]
    rw [visitShares_fst]
    exact hold ..
  · obtain ⟨x, hx⟩ := List.exists_mem_of_ne_nil _ hnil
    have hkind := isSome_kind_of_mem_available (List.mem_filter.mp hx).1
    obtain ⟨v, hv⟩ := Option.isSome_iff_exists.mp (Aggregate.isSome_eval hnil a)
    rw [aggEntry, if_neg hnil, if_neg hnil, hv]
    dsimp only [Option.elim]
    rw [gauges_exportAggregates, if_pos hkind, hv]
    rfl

/-- The aggregates after a dump are those of all its values if none of them is zero, or if they
cancel out. When all of them are zero, what was exported before stays. -/
theorem aggregates_exact_iff (ds : List (StationDump M L K)) (d : StationDump M L K) (m : M)
    (hsome : available T (run T ds) d m ≠ []) :
    (∀ a, (run T (ds ++ [d])).gauges m (.aggregate a) = a.eval (available T (run T ds) d m)) ↔
      0 ∉ available T (run T ds) d m ∨
        (available T (run T ds) d m).sum = 0 ∧
          ((∃ v ∈ available T (run T ds) d m, v ≠ 0) ∨
            ∀ a, (run T ds).gauges m (.aggregate a) = some 0) := by
  simp only [run_append, gauges_parseMesh0StationDump_aggregate]
  generalize available T (run T ds) d m = vals at *
  by_cases hnil : vals.filter (· != 0) = []
  · have hzero : ∀ v ∈ vals, v = 0 := by
      intro v hv
      simpa using List.filter_eq_nil_iff.mp hnil v hv
    obtain ⟨v, hv⟩ := List.exists_mem_of_ne_nil vals hsome
    have hmem : (0 : K) ∈ vals := hzero v hv ▸ hv
    simp only [hnil, if_true, Aggregate.eval_of_forall_eq_zero hsome hzero, List.sum_eq_zero hzero,
      hmem, not_true_eq_false, true_and, false_or]
    constructor
    · exact .inr
    · rintro (⟨v, hv, hne⟩ | hold)
      · exact absurd (hzero v hv) hne
      · exact hold
  · have hex : ∃ v ∈ vals, v ≠ 0 := by
      obtain ⟨v, hv⟩ := List.exists_mem_of_ne_nil _ hnil
      exact ⟨v, Aggregate.mem_filter_bne_zero.mp hv⟩
    simp only [hnil, if_false]
    rw [Aggregate.eval_filter_bne_zero_iff]
    simp only [hex, true_or]

end Export

/-- A dump of the failed transmissions of two stations. -/
def failedDump (time first second : ℚ) : StationDump String String ℚ where
  stats := (∅ : AList _).insert "tx failed"
    (((∅ : AList _).insert "420000000200" second).insert "420000000100" first)
  stationCount := 2
  estabCount := 2
  nexthopMacSources := []
  clock _ _ := time

/-- The aggregates of two stations with failed transmissions. -/
theorem failing_stations_aggregated :
    available metricTables (run metricTables [failedDump 0 0 0]) (failedDump 2 8 4) "tx failed" =
        [4, 2] ∧
      ∀ a, (run metricTables ([failedDump 0 0 0] ++ [failedDump 2 8 4])).gauges "tx failed"
          (.aggregate a) =
        a.eval (available metricTables (run metricTables [failedDump 0 0 0]) (failedDump 2 8 4)
          "tx failed") :=
  ⟨by decide +kernel,
    (aggregates_exact_iff _ _ _ (by decide +kernel)).mpr (.inl (by decide +kernel))⟩

/-- A station without failures does not count for the average, and when both are without, the
aggregates of the dump before stay. -/
theorem idle_stations_ignored :
    let busy := [failedDump 0 0 0] ++ [failedDump 2 8 0]
    available metricTables (run metricTables [failedDump 0 0 0]) (failedDump 2 8 0) "tx failed" =
        [4, 0] ∧
      (run metricTables busy).gauges "tx failed" (.aggregate .avg) = some 4 ∧
      available metricTables (run metricTables busy) (failedDump 4 8 0) "tx failed" = [0, 0] ∧
      (run metricTables (busy ++ [failedDump 4 8 0])).gauges "tx failed" (.aggregate .max) =
        some 4 := by
  decide +kernel

end Fbmeshd.Collector
