import Fbmeshd.Gateway.ConnectivityMonitor
import Mathlib.Tactic.ByContra

/-!
# Advertisement over runs of the monitor

Three facts decide what the monitor advertises: whether the route is dampened, whether
the last probe succeeded, and which of the two route calls came last. The step lemmas
below give these three after each event. From them, advertisement follows the probes in
every run, while dampening withdraws nothing: `dampen` runs before `isGatewayActive_` is
set by the very check that dampened the route.
-/

namespace Fbmeshd

namespace MonitorState

variable {cfg : MonitorConfig} {g : MonitorState}

@[simp] private theorem isGatewayActive_log (e : MonitorEffect) :
    (g.log e).isGatewayActive = g.isGatewayActive := rfl

/-- What the log says about the default route. -/
@[simp] theorem advertised_log (e : MonitorEffect) :
    (g.log e).defaultRouteAdvertised =
      match e with
      | .advertiseDefaultRoute => true
      | .withdrawDefaultRoute => false
      | _ => g.defaultRouteAdvertised := by
  cases e <;> simp [log, defaultRouteAdvertised]

@[simp] private theorem isGatewayActive_advertiseDefaultRoute :
    (g.advertiseDefaultRoute cfg).isGatewayActive = g.isGatewayActive := by
  unfold advertiseDefaultRoute
  dsimp only
  split_ifs <;> rfl

/-- After it the route is advertised. -/
@[simp] theorem advertised_advertiseDefaultRoute :
    (g.advertiseDefaultRoute cfg).defaultRouteAdvertised = true := by
  unfold advertiseDefaultRoute
  dsimp only
  split_ifs <;> simp

/-- After the withdrawal it is not. -/
@[simp] theorem advertised_withdrawDefaultRoute :
    (g.withdrawDefaultRoute cfg).defaultRouteAdvertised = false := by
  unfold withdrawDefaultRoute
  dsimp only
  split_ifs <;> simp

@[simp] private theorem advertised_setActive (b : Bool) :
    ({ g with isGatewayActive := b } : MonitorState).defaultRouteAdvertised =
      g.defaultRouteAdvertised := rfl

@[simp] private theorem isGatewayActive_setStat (path : String) (value : Int32) :
    (g.setStat path value).isGatewayActive = g.isGatewayActive := rfl

@[simp] private theorem advertised_setStat (path : String) (value : Int32) :
    (g.setStat path value).defaultRouteAdvertised = g.defaultRouteAdvertised := by
  simp [setStat]

/-- With the gateway down, the override `dampen` does nothing. -/
theorem dampen_of_inactive (h : g.isGatewayActive = false) : g.dampen cfg = g := by
  simp [dampen, h]

private theorem isGatewayActive_undampen :
    (g.undampen cfg).isGatewayActive = g.isGatewayActive := by
  unfold undampen
  split_ifs <;> simp

private theorem advertised_undampen :
    (g.undampen cfg).defaultRouteAdvertised = (g.isGatewayActive || g.defaultRouteAdvertised) := by
  unfold undampen
  split_ifs with h <;> simp [h]

/-- The probing loop succeeds when one of its tries does, and it changes neither the
gateway flag nor what is advertised. -/
theorem probeLoop_spec (connect : ℕ → List SocketResult) (fuel tryNum : ℕ) (g : MonitorState) :
    (probeLoop connect fuel tryNum g).1 =
        (List.range' tryNum fuel).any (fun i => (connect i).any (·.success)) ∧
      (probeLoop connect fuel tryNum g).2.isGatewayActive = g.isGatewayActive ∧
      (probeLoop connect fuel tryNum g).2.defaultRouteAdvertised = g.defaultRouteAdvertised := by
  induction fuel generalizing tryNum g with
  | zero => simp [probeLoop]
  | succ fuel ih =>
    rw [List.range'_succ, List.any_cons]
    cases htry : (connect tryNum).any (·.success) with
    | true => simp [probeLoop, probeWanConnectivity, htry]
    | false =>
      have hih := ih (tryNum + 1) (g.log (.incrementSumStat (probeStat (connect tryNum))))
      simpa [probeLoop, probeWanConnectivity, htry] using hih

end MonitorState

namespace GatewayConnectivityMonitor

variable {cfg : MonitorConfig} {m : GatewayConnectivityMonitor}

/-- `probeWanConnectivityRobustly` returns the result of the robust probe. -/
theorem probeWanConnectivityRobustly_spec (cfg : MonitorConfig) (m : GatewayConnectivityMonitor)
    (connect : ℕ → List SocketResult) :
    ∃ g, m.derived.probeWanConnectivityRobustly cfg connect = (probeResult cfg connect, g) ∧
      g.isGatewayActive = m.derived.isGatewayActive ∧
      g.defaultRouteAdvertised = m.derived.defaultRouteAdvertised := by
  obtain ⟨hresult, hactive, hadvertised⟩ :=
    MonitorState.probeLoop_spec connect cfg.robustness.toNat 0 m.derived
  rw [← List.range_eq_range'] at hresult
  exact ⟨_, Prod.ext hresult rfl, hactive, hadvertised⟩

/-- A check whose probe fails withdraws the route and marks the gateway down. -/
theorem check_of_failure (m : GatewayConnectivityMonitor) (now : ℤ)
    {connect : ℕ → List SocketResult} (hprobe : probeResult cfg connect = false) :
    (m.checkRoutesAndAdvertise cfg now connect).dampened = m.dampened ∧
      (m.checkRoutesAndAdvertise cfg now connect).derived.isGatewayActive = false ∧
      (m.checkRoutesAndAdvertise cfg now connect).derived.defaultRouteAdvertised = false := by
  obtain ⟨g, hg, -, -⟩ := probeWanConnectivityRobustly_spec cfg m connect
  rw [hprobe] at hg
  simp [checkRoutesAndAdvertise, hg]

/-- A check whose probe succeeds advertises the route unless it is dampened, and dampens
it when the flap of a gateway that was down reaches the limit. The call of `dampen` then
sees the gateway down and withdraws nothing. -/
theorem check_of_success (m : GatewayConnectivityMonitor) (now : ℤ)
    {connect : ℕ → List SocketResult} (hprobe : probeResult cfg connect = true) :
    (m.checkRoutesAndAdvertise cfg now connect).dampened =
        (m.dampened || decide (m.derived.isGatewayActive = false ∧ m.flapDampens cfg.dampener)) ∧
      (m.checkRoutesAndAdvertise cfg now connect).derived.isGatewayActive = true ∧
      (m.checkRoutesAndAdvertise cfg now connect).derived.defaultRouteAdvertised =
        (!m.dampened || m.derived.defaultRouteAdvertised) := by
  obtain ⟨g, hg, hactive, hadvertised⟩ := probeWanConnectivityRobustly_spec cfg m connect
  rw [hprobe] at hg
  -- The state just before the flap: advertised afresh unless dampened.
  let g₁ := if m.dampened then g else (g.log (.writeDebugStat true)).advertiseDefaultRoute cfg
  have hg₁ : g₁.isGatewayActive = m.derived.isGatewayActive ∧
      g₁.defaultRouteAdvertised = (!m.dampened || m.derived.defaultRouteAdvertised) := by
    cases hd : m.dampened <;> simp [g₁, hd, hactive, hadvertised]
  let m₁ : GatewayConnectivityMonitor := { m with derived := g₁ }
  have hcheck : m.checkRoutesAndAdvertise cfg now connect =
      (let m₂ : GatewayConnectivityMonitor := if m₁.derived.isGatewayActive = false then
          m₁.flap cfg.dampener (MonitorState.overrides cfg) now
        else m₁
       { m₂ with derived := { m₂.derived with isGatewayActive := true } }) := by
    cases hd : m.dampened <;>
      simp [checkRoutesAndAdvertise, hg, hd, m₁, g₁]
  have hflap : m₁.flapDampens cfg.dampener ↔ m.flapDampens cfg.dampener := Iff.rfl
  rw [hcheck]
  by_cases ha : m.derived.isGatewayActive = false
  · have ha₁ : m₁.derived.isGatewayActive = false := hg₁.1.trans ha
    by_cases hf : m.flapDampens cfg.dampener
    · rw [if_pos ha₁, RouteDampener.flap_of_dampens _ _ _ (hflap.mpr hf)]
      have hstat : (RouteDampener.dampenedStat (MonitorState.overrides cfg) 1
          (RouteDampener.historyStat (MonitorState.overrides cfg)
            (m₁.history + cfg.dampener.penalty) m₁.derived)).isGatewayActive = false := ha₁
      refine ⟨by simp [ha, hf], rfl, ?_⟩
      change (MonitorState.dampen cfg _).defaultRouteAdvertised = _
      rw [MonitorState.dampen_of_inactive hstat]
      simpa [RouteDampener.dampenedStat, RouteDampener.historyStat, MonitorState.overrides]
        using hg₁.2
    · rw [if_pos ha₁, RouteDampener.flap_of_not_dampens _ _ _ (mt hflap.mp hf)]
      refine ⟨by simp [hf, m₁], rfl, ?_⟩
      simpa [RouteDampener.historyStat, MonitorState.overrides] using hg₁.2
  · have ha₁ : ¬ m₁.derived.isGatewayActive = false := fun h => ha (hg₁.1.symm.trans h)
    rw [if_neg ha₁]
    exact ⟨by simp [ha, m₁], rfl, hg₁.2⟩

/-- A timer either leaves the three facts alone or undampens a dampened route, which
advertises it when the gateway is up. -/
def TimerEffect (m m' : GatewayConnectivityMonitor) : Prop :=
  m'.derived.isGatewayActive = m.derived.isGatewayActive ∧
    ((m'.dampened = m.dampened ∧
        m'.derived.defaultRouteAdvertised = m.derived.defaultRouteAdvertised) ∨
      (m.dampened = true ∧ m'.dampened = false ∧ m'.derived.defaultRouteAdvertised =
        (m.derived.isGatewayActive || m.derived.defaultRouteAdvertised)))

private theorem halfLifeTimer_effect (cfg : MonitorConfig) (now : ℤ)
    (m : GatewayConnectivityMonitor) :
    ∃ m', step cfg m (.halfLifeTimer now) = some m' ∧ TimerEffect m m' := by
  have hdecay (d : MonitorState) :
      (RouteDampener.decayStats cfg.dampener (MonitorState.overrides cfg) m.history
        d).isGatewayActive = d.isGatewayActive ∧
      (RouteDampener.decayStats cfg.dampener (MonitorState.overrides cfg) m.history
        d).defaultRouteAdvertised = d.defaultRouteAdvertised := by
    unfold RouteDampener.decayStats
    split <;> simp [RouteDampener.historyStat, MonitorState.overrides]
  refine ⟨_, RouteDampener.fireHalfLifeTimer_eq .., ?_⟩
  split
  case isTrue hrel =>
    refine ⟨?_, .inr ⟨hrel.1, rfl, ?_⟩⟩ <;>
      simp [RouteDampener.dampenedStat, MonitorState.overrides,
        MonitorState.isGatewayActive_undampen, MonitorState.advertised_undampen, ← hdecay m.derived]
  case isFalse =>
    exact ⟨(hdecay _).1, .inl ⟨rfl, (hdecay _).2⟩⟩

private theorem maxSuppressLimitTimer_effect (cfg : MonitorConfig) (now : ℤ)
    (m : GatewayConnectivityMonitor) :
    ∃ m', step cfg m (.maxSuppressLimitTimer now) = some m' ∧ TimerEffect m m' := by
  refine ⟨_, RouteDampener.fireMaxSuppressLimitTimer_eq .., ?_⟩
  split
  case isTrue hd =>
    refine ⟨?_, .inr ⟨hd, rfl, ?_⟩⟩ <;>
      simp [RouteDampener.dampenedStat, RouteDampener.historyStat, MonitorState.overrides,
        MonitorState.isGatewayActive_undampen, MonitorState.advertised_undampen]
  case isFalse => exact ⟨rfl, .inl ⟨rfl, rfl⟩⟩

/-- No event fails the `CHECK` of `undampenImpl`. -/
theorem exists_step_eq_some (cfg : MonitorConfig) (m : GatewayConnectivityMonitor) (e : Event) :
    ∃ m', step cfg m e = some m' := by
  cases e with
  | check now connect => exact ⟨_, rfl⟩
  | halfLifeTimer now =>
    obtain ⟨m', hm', -⟩ := halfLifeTimer_effect cfg now m
    exact ⟨m', hm'⟩
  | maxSuppressLimitTimer now =>
    obtain ⟨m', hm', -⟩ := maxSuppressLimitTimer_effect cfg now m
    exact ⟨m', hm'⟩

/-- The invariant behind advertisement: what is advertised was probed successfully, and a
successfully probed route that is not dampened is advertised. -/
structure AdvertisementInvariant (cfg : MonitorConfig) (es : List Event)
    (m : GatewayConnectivityMonitor) : Prop where
  active_eq : m.derived.isGatewayActive = latestProbe cfg es
  active_of_advertised : m.derived.defaultRouteAdvertised = true →
    m.derived.isGatewayActive = true
  advertised_of_active : m.derived.isGatewayActive = true → m.dampened = false →
    m.derived.defaultRouteAdvertised = true

namespace AdvertisementInvariant

variable {es : List Event} {m' : GatewayConnectivityMonitor}

private theorem latestProbe_concat (e : Event) :
    latestProbe cfg (es ++ [e]) =
      match e with
      | .check _ connect => probeResult cfg connect
      | _ => latestProbe cfg es := by
  cases e <;> simp [latestProbe]

private theorem timer (h : AdvertisementInvariant cfg es m) (heffect : TimerEffect m m') {e : Event}
    (he : latestProbe cfg (es ++ [e]) = latestProbe cfg es) :
    AdvertisementInvariant cfg (es ++ [e]) m' := by
  obtain ⟨hactive, ⟨hd, hadv⟩ | ⟨hd, hd', hadv⟩⟩ := heffect
  · refine ⟨by rw [he, hactive, h.active_eq], ?_, ?_⟩
    · rw [hadv, hactive]
      exact h.active_of_advertised
    · rw [hadv, hactive, hd]
      exact h.advertised_of_active
  · refine ⟨by rw [he, hactive, h.active_eq], ?_, ?_⟩
    · rw [hadv, hactive, Bool.or_eq_true]
      rintro (ha | ha)
      · exact ha
      · exact h.active_of_advertised ha
    · rw [hadv, hactive]
      intro ha _
      simp [ha]

/-- One event. -/
theorem step (h : AdvertisementInvariant cfg es m) {e : Event}
    (hstep : GatewayConnectivityMonitor.step cfg m e = some m') :
    AdvertisementInvariant cfg (es ++ [e]) m' := by
  cases e with
  | check now connect =>
    obtain rfl : m.checkRoutesAndAdvertise cfg now connect = m' := by
      simpa [GatewayConnectivityMonitor.step] using hstep
    cases hprobe : probeResult cfg connect with
    | false =>
      obtain ⟨-, hactive, hadv⟩ := check_of_failure m now hprobe
      exact ⟨by simp [latestProbe_concat, hactive, hprobe], by simp [hadv], by simp [hactive]⟩
    | true =>
      obtain ⟨hd, hactive, hadv⟩ := check_of_success m now hprobe
      refine ⟨by simp [latestProbe_concat, hactive, hprobe], fun _ => hactive, fun _ hnot => ?_⟩
      -- Undampened after the check means undampened before it, when the route was advertised.
      rw [hd, Bool.or_eq_false_iff] at hnot
      simp [hadv, hnot.1]
  | halfLifeTimer now =>
    obtain ⟨m₁, hm₁, heffect⟩ := halfLifeTimer_effect cfg now m
    obtain rfl : m₁ = m' := Option.some.inj (hm₁.symm.trans hstep)
    exact h.timer heffect (latestProbe_concat _)
  | maxSuppressLimitTimer now =>
    obtain ⟨m₁, hm₁, heffect⟩ := maxSuppressLimitTimer_effect cfg now m
    obtain rfl : m₁ = m' := Option.some.inj (hm₁.symm.trans hstep)
    exact h.timer heffect (latestProbe_concat _)

/-- The invariant holds in every run. -/
theorem of_run (hrun : run cfg es = some m) : AdvertisementInvariant cfg es m := by
  refine EventSystem.run_induction ?_ (fun _ _ _ _ _ h hs => h.step hs) hrun
  exact ⟨rfl, by decide, by decide⟩

end AdvertisementInvariant

/-- Over any interleaving of checks and timer expirations the monitor does not abort, the
default route is advertised only if the latest probe succeeded, and it is advertised if
that probe succeeded and the route is not dampened. -/
theorem advertised_follows_probe (cfg : MonitorConfig) (es : List Event) :
    ∃ m, run cfg es = some m ∧ m.derived.isGatewayActive = latestProbe cfg es ∧
      (m.derived.defaultRouteAdvertised = true → latestProbe cfg es = true) ∧
      (latestProbe cfg es = true → m.dampened = false →
        m.derived.defaultRouteAdvertised = true) := by
  obtain ⟨m, hm⟩ := EventSystem.exists_run_eq_some (exists_step_eq_some cfg) init es
  have h := AdvertisementInvariant.of_run hm
  refine ⟨m, hm, h.active_eq, ?_, ?_⟩ <;> rw [← h.active_eq]
  · exact h.active_of_advertised
  · exact h.advertised_of_active

/-- A route is dampened only by a check of the kind `DampensOn` describes. -/
theorem dampened_of_step {m' : GatewayConnectivityMonitor} {e : Event}
    (hstep : step cfg m e = some m') (hm : m.dampened = false) (hm' : m'.dampened = true) :
    DampensOn cfg m e := by
  have hno (heffect : TimerEffect m m') : False := by
    obtain ⟨-, ⟨hd, -⟩ | ⟨hd, -⟩⟩ := heffect
    · simp [hd, hm] at hm'
    · simp [hm] at hd
  cases e with
  | check now connect =>
    obtain rfl : m.checkRoutesAndAdvertise cfg now connect = m' := by simpa [step] using hstep
    cases hprobe : probeResult cfg connect with
    | false => simp [(check_of_failure m now hprobe).1, hm] at hm'
    | true =>
      rw [(check_of_success m now hprobe).1, hm, Bool.false_or,
        decide_eq_true_eq] at hm'
      exact ⟨hprobe, hm'⟩
  | halfLifeTimer now =>
    obtain ⟨m₁, hm₁, heffect⟩ := halfLifeTimer_effect cfg now m
    obtain rfl : m₁ = m' := Option.some.inj (hm₁.symm.trans hstep)
    exact (hno heffect).elim
  | maxSuppressLimitTimer now =>
    obtain ⟨m₁, hm₁, heffect⟩ := maxSuppressLimitTimer_effect cfg now m
    obtain rfl : m₁ = m' := Option.some.inj (hm₁.symm.trans hstep)
    exact (hno heffect).elim

/-- A check that dampens the route leaves it dampened and advertised. -/
theorem advertised_of_dampensOn {e : Event} (he : DampensOn cfg m e) :
    ∃ m', step cfg m e = some m' ∧ m'.dampened = true ∧
      m'.derived.defaultRouteAdvertised = true := by
  cases e with
  | check now connect =>
    obtain ⟨hprobe, hactive, hflap⟩ := he
    obtain ⟨hd, -, hadv⟩ := check_of_success m now hprobe
    exact ⟨_, rfl, by rw [hd]; simp [hactive, hflap], by rw [hadv]; simp [hflap.1]⟩
  | halfLifeTimer now => exact he.elim
  | maxSuppressLimitTimer now => exact he.elim

/-- A dampened route is withdrawn throughout a run exactly when no check of the run dampens
it: the check that does leaves the route advertised. -/
theorem dampened_withdrawn_iff (cfg : MonitorConfig) (es : List Event) :
    (∀ past m, past <+: es → run cfg past = some m → m.isDampened = true →
        m.derived.defaultRouteAdvertised = false) ↔
      ∀ past e m, past ++ [e] <+: es → run cfg past = some m → ¬ DampensOn cfg m e := by
  constructor
  · intro hwithdrawn past e m hpast hrun he
    obtain ⟨m', hstep, hd, hadv⟩ := advertised_of_dampensOn he
    have hrun' : run cfg (past ++ [e]) = some m' := by
      rw [run, EventSystem.run_concat]
      exact Option.bind_eq_some_iff.mpr ⟨m, hrun, hstep⟩
    have hnot := hwithdrawn _ m' hpast hrun' hd
    simp [hadv] at hnot
  · intro hnone past m hpast hrun hd
    -- Without a dampening check the route is undampened after every prefix.
    have hclear : m.dampened = false := by
      refine EventSystem.run_induction (P := fun past m => past <+: es → m.dampened = false)
        (fun _ => rfl) ?_ hrun hpast
      intro past e m m' hrun hm hstep hpast
      by_contra hd
      have hbefore := hm ((List.prefix_append past [e]).trans hpast)
      exact hnone past e m hpast hrun (dampened_of_step hstep hbefore (by simpa using hd))
    simp [RouteDampener.isDampened, hclear] at hd

/-- With the default parameters, a gateway that comes up, goes down and comes up again is
dampened by its second flap and stays advertised. -/
theorem default_second_flap_advertised :
    MonitorConfig.dampener {} = .default ∧ DampenerConfig.default.isValid = some true ∧
      ∃ m, run {} [.check 0 fun _ => [⟨true, ""⟩], .check 1 fun _ => [⟨false, "timeout"⟩],
          .check 2 fun _ => [⟨true, ""⟩]] = some m ∧
        m.isDampened = true ∧ m.derived.defaultRouteAdvertised = true :=
  ⟨rfl, by decide, _, rfl, by decide, by decide⟩

end GatewayConnectivityMonitor

end Fbmeshd
