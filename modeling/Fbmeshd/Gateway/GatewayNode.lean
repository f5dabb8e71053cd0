import Fbmeshd.Gateway.MonitorRuns
import Fbmeshd.Routing.RootAnnouncements

/-!
# The monitor and the node

The monitor and the routing process run in two threads. `setGatewayStatus` posts a function to the
routing thread, which runs the posted functions in their order, between its own callbacks. So the
node learns of a change later than the monitor, and in between the two disagree. In every
interleaving the last function that is still posted brings them together again.
-/

namespace Fbmeshd

/-! ### What the monitor posts -/

/-- The value that a call of `setGatewayStatus` posts. -/
def MonitorEffect.status : MonitorEffect → Option Bool
  | .setGatewayStatus isGate => some isGate
  | _ => none

/-- The effect neither decides about the route nor posts a function. -/
def MonitorEffect.isNeutral : MonitorEffect → Bool
  | .advertiseDefaultRoute | .withdrawDefaultRoute | .setGatewayStatus _ => false
  | _ => true

namespace MonitorState

/-- The values posted so far, oldest first. -/
def statuses (g : MonitorState) : List Bool := (g.effects.filterMap MonitorEffect.status).reverse

variable {g : MonitorState} {cfg : MonitorConfig}

private theorem statuses_log (e : MonitorEffect) :
    (g.log e).statuses = g.statuses ++ e.status.toList := by
  cases he : e.status <;> simp [statuses, log, he]

private theorem statuses_log_of_isNeutral {e : MonitorEffect} (he : e.isNeutral = true) :
    (g.log e).statuses = g.statuses := by
  rw [statuses_log]
  cases e <;> simp_all [MonitorEffect.isNeutral, MonitorEffect.status]

private theorem statuses_advertiseDefaultRoute (h : cfg.hasRouting = true) :
    (g.advertiseDefaultRoute cfg).statuses = g.statuses ++ [true] := by
  unfold advertiseDefaultRoute
  split_ifs <;> simp [statuses_log, MonitorEffect.status]

private theorem statuses_withdrawDefaultRoute (h : cfg.hasRouting = true) :
    (g.withdrawDefaultRoute cfg).statuses = g.statuses ++ [false] := by
  unfold withdrawDefaultRoute
  split_ifs <;> simp [statuses_log, MonitorEffect.status]

end MonitorState

namespace GatewayConnectivityMonitor

open MonitorState

variable {cfg : MonitorConfig} {m m' : GatewayConnectivityMonitor}

/-- What a property of the monitor's state has to survive for the timers and the checks that
fail. -/
structure Passive (cfg : MonitorConfig) (P : MonitorState → Prop) : Prop where
  log : ∀ {g} e, e.isNeutral = true → P g → P (g.log e)
  withdraw : ∀ {g}, P g → P (g.withdrawDefaultRoute cfg)
  undampen : ∀ {g}, P g → P (g.undampen cfg)
  inactive : ∀ {g}, P g → P { g with isGatewayActive := false }

/-- What it has to survive for all events. -/
structure Closed (cfg : MonitorConfig) (P : MonitorState → Prop) : Prop where
  log : ∀ {g} e, e.isNeutral = true → P g → P (g.log e)
  withdraw : ∀ {g}, P g → P (g.withdrawDefaultRoute cfg)
  advertise : ∀ {g}, P g → P (g.advertiseDefaultRoute cfg)
  setActive : ∀ {g} b, P g → P { g with isGatewayActive := b }

variable {P : MonitorState → Prop}

private theorem Closed.passive (h : Closed cfg P) : Passive cfg P where
  log := h.log
  withdraw := h.withdraw
  undampen hg := by
    unfold MonitorState.undampen
    split
    · exact h.advertise (h.log _ rfl hg)
    · exact hg
  inactive := h.setActive false

private theorem Passive.probeLoop (h : Passive cfg P) (connect : ℕ → List SocketResult)
    (fuel tryNum : ℕ) {g : MonitorState} (hg : P g) : P (probeLoop connect fuel tryNum g).2 := by
  induction fuel generalizing tryNum g with
  | zero => exact hg
  | succ fuel ih =>
    have hlog : P (g.probeWanConnectivity (connect tryNum)).2 := h.log _ rfl hg
    unfold MonitorState.probeLoop
    split
    next g' heq => rwa [heq] at hlog
    next g' heq =>
      rw [heq] at hlog
      exact ih (tryNum + 1) hlog

private theorem Passive.probe (h : Passive cfg P) (connect : ℕ → List SocketResult)
    (hm : P m.derived) :
    ∃ g, m.derived.probeWanConnectivityRobustly cfg connect = (probeResult cfg connect, g) ∧
      P g := by
  obtain ⟨g, hg, -, -⟩ := probeWanConnectivityRobustly_spec cfg m connect
  have hloop : P (m.derived.probeWanConnectivityRobustly cfg connect).2 := h.probeLoop _ _ _ hm
  rw [hg] at hloop
  exact ⟨g, hg, hloop⟩

private theorem Passive.decayStats (h : Passive cfg P) (history : UInt32) {g : MonitorState}
    (hg : P g) : P (RouteDampener.decayStats cfg.dampener (overrides cfg) history g) := by
  unfold RouteDampener.decayStats
  split
  · exact h.log _ rfl (h.log _ rfl hg)
  · exact h.log _ rfl hg

private theorem Passive.halfLifeTimer (h : Passive cfg P) {now : ℤ} (hm : P m.derived)
    (hstep : step cfg m (.halfLifeTimer now) = some m') : P m'.derived := by
  rw [step, RouteDampener.fireHalfLifeTimer_eq] at hstep
  obtain rfl := Option.some.inj hstep
  split
  · exact h.log _ rfl (h.undampen (h.decayStats _ hm))
  · exact h.decayStats _ hm

private theorem Passive.maxSuppressLimitTimer (h : Passive cfg P) {now : ℤ} (hm : P m.derived)
    (hstep : step cfg m (.maxSuppressLimitTimer now) = some m') : P m'.derived := by
  rw [step, RouteDampener.fireMaxSuppressLimitTimer_eq] at hstep
  obtain rfl := Option.some.inj hstep
  split
  · exact h.log _ rfl (h.undampen (h.log _ rfl hm))
  · exact hm

private theorem Passive.failedCheck (h : Passive cfg P) (now : ℤ) {connect : ℕ → List SocketResult}
    (hprobe : probeResult cfg connect = false) (hm : P m.derived) :
    P (m.checkRoutesAndAdvertise cfg now connect).derived := by
  obtain ⟨g, hg, hPg⟩ := h.probe connect hm
  rw [hprobe] at hg
  simp only [checkRoutesAndAdvertise, hg]
  exact h.inactive (h.withdraw (h.log _ rfl hPg))

private theorem Closed.flap (h : Closed cfg P) (now : ℤ) (hm : P m.derived) :
    P (m.flap cfg.dampener (overrides cfg) now).derived := by
  have hdampen : ∀ {g : MonitorState}, P g → P (g.dampen cfg) := by
    intro g hg
    unfold MonitorState.dampen
    split
    · exact h.withdraw (h.log _ rfl hg)
    · exact hg
  by_cases hf : m.flapDampens cfg.dampener
  · rw [RouteDampener.flap_of_dampens _ _ _ hf]
    exact hdampen (h.log _ rfl (h.log _ rfl hm))
  · rw [RouteDampener.flap_of_not_dampens _ _ _ hf]
    exact h.log _ rfl hm

private theorem Closed.check (h : Closed cfg P) (now : ℤ) (connect : ℕ → List SocketResult)
    (hm : P m.derived) : P (m.checkRoutesAndAdvertise cfg now connect).derived := by
  cases hprobe : probeResult cfg connect with
  | false => exact h.passive.failedCheck now hprobe hm
  | true =>
    obtain ⟨g, hg, hPg⟩ := h.passive.probe connect hm
    rw [hprobe] at hg
    have hflap : ∀ m₁ : GatewayConnectivityMonitor, P m₁.derived →
        P (if !m₁.derived.isGatewayActive then m₁.flap cfg.dampener (overrides cfg) now
          else m₁).derived := by
      intro m₁ hm₁
      split
      · exact h.flap now hm₁
      · exact hm₁
    simp only [checkRoutesAndAdvertise, hg]
    refine h.setActive true (hflap _ ?_)
    split
    · exact h.advertise (h.log _ rfl hPg)
    · exact hPg

/-- A property that is closed under what the monitor does holds after every event. -/
theorem Closed.step (h : Closed cfg P) {e : Event} (hm : P m.derived)
    (hstep : step cfg m e = some m') : P m'.derived := by
  cases e with
  | check now connect =>
    obtain rfl := Option.some.inj hstep
    exact h.check now connect hm
  | halfLifeTimer now => exact h.passive.halfLifeTimer hm hstep
  | maxSuppressLimitTimer now => exact h.passive.maxSuppressLimitTimer hm hstep

/-- The last value posted is what the route is. -/
def Synced (g : MonitorState) : Prop := g.statuses.getLast?.getD false = g.defaultRouteAdvertised

private theorem Synced.closed (hrouting : cfg.hasRouting = true) : Closed cfg Synced where
  log {g} e he hg := by
    have hadv : (g.log e).defaultRouteAdvertised = g.defaultRouteAdvertised := by
      rw [advertised_log]
      cases e <;> simp_all [MonitorEffect.isNeutral]
    rw [Synced, statuses_log_of_isNeutral he, hadv]
    exact hg
  withdraw hg := by simp [Synced, statuses_withdrawDefaultRoute hrouting]
  advertise hg := by simp [Synced, statuses_advertiseDefaultRoute hrouting]
  setActive b hg := by simpa [Synced, statuses] using hg

/-- Values are only added to those that are posted. -/
theorem prefix_closed (hrouting : cfg.hasRouting = true) (posted : List Bool) :
    Closed cfg fun g => posted <+: g.statuses where
  log e he hg := by rwa [statuses_log_of_isNeutral he]
  withdraw hg := by
    rw [statuses_withdrawDefaultRoute hrouting]
    exact hg.trans (List.prefix_append _ _)
  advertise hg := by
    rw [statuses_advertiseDefaultRoute hrouting]
    exact hg.trans (List.prefix_append _ _)
  setActive b hg := hg

/-- As long as the gateway is down, only `false` is posted. -/
theorem down_passive (hrouting : cfg.hasRouting = true) :
    Passive cfg fun g => g.isGatewayActive = false ∧ true ∉ g.statuses where
  log e he hg := by
    rw [statuses_log_of_isNeutral he]
    exact hg
  withdraw hg := by
    rw [statuses_withdrawDefaultRoute hrouting]
    refine ⟨?_, by simpa using hg.2⟩
    unfold MonitorState.withdrawDefaultRoute
    split_ifs <;> simpa using hg.1
  undampen hg := by simpa [MonitorState.undampen, hg.1] using hg.2
  inactive hg := ⟨rfl, hg.2⟩

end GatewayConnectivityMonitor

/-! ### The two threads -/

/-- A function of the node's own, not one that the monitor posts. -/
def NodeEvent.isOwn : NodeEvent → Bool
  | .internal (.setGatewayStatus _ _) => false
  | _ => true

/-- The monitor, the functions posted to the routing thread, oldest first, and the node with the
announcements that it sent. -/
structure GatewayNode where
  monitor : GatewayConnectivityMonitor := .init
  posted : List Bool := []
  node : Routing
  announced : List Transmission := []

namespace GatewayNode

open GatewayConnectivityMonitor

/-- The node handles an event. -/
def handle (e : NodeEvent) (s : GatewayNode) : GatewayNode :=
  { s with node := (e.apply s.node).1, announced := s.announced ++ e.announcements s.node }

/-- The states in any interleaving, with the events that the monitor saw. -/
inductive Reachable (cfg : MonitorConfig) : List Event → GatewayNode → Prop
  | prepare {r : Routing} (h : r.Constructed) (entryNow : MacAddress → ℤ) (now : ℤ) :
      Reachable cfg [] { node := (r.prepare entryNow now).1 }
  /-- An event in the monitor's thread. -/
  | monitor {es : List Event} {s : GatewayNode} {e : Event} {m : GatewayConnectivityMonitor}
      (hreach : Reachable cfg es s) (hstep : step cfg s.monitor e = some m) :
      Reachable cfg (es ++ [e])
        { s with
          monitor := m
          posted := s.posted ++ m.derived.statuses.drop s.monitor.derived.statuses.length }
  /-- A callback of the routing thread. -/
  | node {es : List Event} {s : GatewayNode} {e : NodeEvent} (hreach : Reachable cfg es s)
      (hown : e.isOwn = true) (hsched : e.Scheduled s.node) : Reachable cfg es (s.handle e)
  /-- The routing thread runs the oldest function that is posted. -/
  | runPosted {es : List Event} {s : GatewayNode} {isGate : Bool} {rest : List Bool} (now : ℤ)
      (hreach : Reachable cfg es s) (hposted : s.posted = isGate :: rest) :
      Reachable cfg es
        { s.handle (.internal (.setGatewayStatus isGate now)) with posted := rest }

/-- The events of the monitor are a run, and what is posted is what the node has not seen yet. -/
structure Relayed (cfg : MonitorConfig) (es : List Event) (s : GatewayNode) : Prop where
  run : GatewayConnectivityMonitor.run cfg es = some s.monitor
  synced : Synced s.monitor.derived
  roles : s.node.RoleInvariant
  fifo : ∃ seen, s.monitor.derived.statuses = seen ++ s.posted ∧
    s.node.isGate = seen.getLast?.getD false

/-- No check of the monitor found the WAN connected. -/
def NeverConnected (cfg : MonitorConfig) (es : List Event) : Prop :=
  ∀ now connect, .check now connect ∈ es → probeResult cfg connect = false

variable {cfg : MonitorConfig} {es : List Event} {s : GatewayNode}

private theorem isGate_apply_of_isOwn {e : NodeEvent} (he : e.isOwn = true) (r : Routing) :
    (e.apply r).1.isGate = r.isGate := by
  cases e with
  | receive stas clk sa pann => exact ((NodeEvent.sameRoles r).1 stas clk sa pann).isGate
  | internal e =>
    cases e with
    | housekeeping entryNow now | noLongerAGateTimer => rfl
    | meshPathRootTimer now =>
      rw [NodeEvent.apply, InternalEvent.apply, Routing.fireMeshPathRootTimer,
        Routing.doMeshPathRoot_fields]
    | setGatewayStatus isGate now => cases he

private theorem isGate_setGatewayStatus (isGate : Bool) (now : ℤ) (r : Routing) :
    (r.setGatewayStatus isGate now).1.isGate = isGate := by
  by_cases h : r.isGate = isGate
  · rw [Routing.setGatewayStatus_of_eq now h, h]
  · cases isGate with
    | false => rw [Routing.setGatewayStatus_false now (by simpa using h)]
    | true =>
      rw [Bool.not_eq_true] at h
      cases hroot : r.isRoot with
      | true => rw [Routing.setGatewayStatus_true_of_isRoot now h hroot]
      | false =>
        rw [Routing.setGatewayStatus_true_of_not_isRoot now h hroot,
          Routing.doMeshPathRoot_of_isRoot now rfl]

/-- In every interleaving the statuses are relayed in order. -/
theorem Relayed.of_reachable (hrouting : cfg.hasRouting = true) (hreach : Reachable cfg es s) :
    Relayed cfg es s := by
  induction hreach with
  | @prepare r h entryNow now =>
    refine ⟨rfl, rfl, .prepare h entryNow now, [], rfl, ?_⟩
    simp only [Routing.prepare, Routing.doMeshPathRoot_of_not_isRoot now h.isRoot]
    exact h.isGate
  | @monitor es s e m _ hstep ih =>
    obtain ⟨seen, hseen, hgate⟩ := ih.fifo
    obtain ⟨new, hnew⟩ := (prefix_closed hrouting s.monitor.derived.statuses).step
      (List.prefix_refl _) hstep
    refine ⟨?_, (Synced.closed hrouting).step ih.synced hstep, ih.roles, seen, ?_, hgate⟩
    · rw [GatewayConnectivityMonitor.run, EventSystem.run_concat]
      rw [show EventSystem.run _ _ es = _ from ih.run]
      exact hstep
    · simp only [← hnew, List.drop_left]
      rw [hseen, List.append_assoc]
  | node _ hown hsched ih =>
    obtain ⟨seen, hseen, hgate⟩ := ih.fifo
    exact ⟨ih.run, ih.synced, ih.roles.step hsched, seen, hseen,
      (isGate_apply_of_isOwn hown _).trans hgate⟩
  | @runPosted es s isGate rest now _ hposted ih =>
    obtain ⟨seen, hseen, hgate⟩ := ih.fifo
    refine ⟨ih.run, ih.synced, ih.roles.setGatewayStatus isGate now, seen ++ [isGate], ?_, ?_⟩
    · change s.monitor.derived.statuses = _
      rw [hseen, hposted, List.append_assoc]
      rfl
    · rw [List.getLast?_concat]
      exact isGate_setGatewayStatus isGate now s.node

/-- Before the first check that finds the WAN connected. -/
structure Quiet (s : GatewayNode) : Prop where
  down : s.monitor.derived.isGatewayActive = false ∧ true ∉ s.monitor.derived.statuses
  isRoot : s.node.isRoot = false
  isGate : s.node.isGate = false
  announced : s.announced = []

/-- An event of the node before it is promoted for the first time. -/
theorem Quiet.handle (h : Quiet s) {e : NodeEvent} (hpromotes : e.promotes = false) :
    Quiet (s.handle e) := by
  obtain ⟨hroot, hgate, hannounced, -⟩ := Routing.not_root_step h.isRoot h.isGate hpromotes
  exact ⟨h.down, hroot, hgate, by rw [GatewayNode.handle, h.announced, hannounced]; rfl⟩

/-- Until a probe succeeds, the node is quiet. -/
theorem Quiet.of_reachable (hrouting : cfg.hasRouting = true) (hreach : Reachable cfg es s)
    (hnever : NeverConnected cfg es) : Quiet s := by
  induction hreach with
  | @prepare r h entryNow now =>
    refine ⟨⟨rfl, by simp [init, MonitorState.statuses]⟩, ?_, ?_, rfl⟩ <;>
      simp only [Routing.prepare, Routing.doMeshPathRoot_of_not_isRoot now h.isRoot]
    · exact h.isRoot
    · exact h.isGate
  | @monitor es s e m _ hstep ih =>
    have hquiet := ih fun now connect hmem => hnever now connect (List.mem_append_left _ hmem)
    refine ⟨?_, hquiet.isRoot, hquiet.isGate, hquiet.announced⟩
    have hdown := down_passive hrouting
    cases e with
    | check now connect =>
      obtain rfl := Option.some.inj hstep
      exact hdown.failedCheck now (hnever now connect (by simp)) hquiet.down
    | halfLifeTimer now => exact hdown.halfLifeTimer hquiet.down hstep
    | maxSuppressLimitTimer now => exact hdown.maxSuppressLimitTimer hquiet.down hstep
  | @node es s e _ hown _ ih =>
    refine (ih hnever).handle ?_
    cases e with
    | receive stas clk sa pann => rfl
    | internal e => cases e <;> first | rfl | cases hown
  | @runPosted es s isGate rest now hreach hposted ih =>
    have hquiet := ih hnever
    obtain ⟨seen, hseen, -⟩ := (Relayed.of_reachable hrouting hreach).fifo
    have hfalse : isGate = false := by
      cases isGate with
      | false => rfl
      | true => exact absurd (by simp [hseen, hposted]) hquiet.down.2
    have hhandle := hquiet.handle (e := .internal (.setGatewayStatus isGate now)) hfalse
    exact ⟨hhandle.down, hhandle.isRoot, hhandle.isGate, hhandle.announced⟩

/-- In every interleaving of the two threads, the last function that is still posted, or else the
node's own status, is what the monitor decided last. Once nothing is posted, the node is a gate only
if the latest probe succeeded, and if that probe succeeded and the route is not dampened, the node
is a gate and announces itself. Before any probe succeeded, it announced nothing. -/
theorem gate_follows_probes (hrouting : cfg.hasRouting = true) (hreach : Reachable cfg es s) :
    s.posted.getLast?.getD s.node.isGate = s.monitor.derived.defaultRouteAdvertised ∧
      (s.posted = [] → s.node.isGate = true → latestProbe cfg es = true) ∧
      (s.posted = [] → latestProbe cfg es = true → s.monitor.dampened = false →
        s.node.isGate = true ∧ s.node.isRoot = true ∧
          s.node.meshPathRootTimer.isScheduled = true) ∧
      (NeverConnected cfg es → s.node.isRoot = false ∧ s.announced = []) := by
  have hrelayed := Relayed.of_reachable hrouting hreach
  have hadvertised := AdvertisementInvariant.of_run hrelayed.run
  have hlast : s.posted.getLast?.getD s.node.isGate =
      s.monitor.derived.defaultRouteAdvertised := by
    obtain ⟨seen, hseen, hgate⟩ := hrelayed.fifo
    have hsynced : s.monitor.derived.statuses.getLast?.getD false = _ := hrelayed.synced
    rw [← hsynced, hseen, hgate, List.getLast?_append]
    cases s.posted.getLast? <;> rfl
  have hdrained (hnil : s.posted = []) :
      s.node.isGate = s.monitor.derived.defaultRouteAdvertised := by
    rw [← hlast, hnil]
    rfl
  refine ⟨hlast, fun hnil hgate => ?_, fun hnil hprobe hdampened => ?_, fun hnever => ?_⟩
  · rw [← hadvertised.active_eq]
    exact hadvertised.active_of_advertised (hdrained hnil ▸ hgate)
  · rw [← hadvertised.active_eq] at hprobe
    have hgate := (hdrained hnil).trans (hadvertised.advertised_of_active hprobe hdampened)
    have hroot := hrelayed.roles.gate_root hgate
    exact ⟨hgate, hroot, hrelayed.roles.root_timer hroot⟩
  · have hquiet := Quiet.of_reachable hrouting hreach hnever
    exact ⟨hquiet.isRoot, hquiet.announced⟩

/-- A check that finds the WAN connected at the first try. -/
def connected : Event := .check 0 fun _ => [⟨true, ""⟩]

/-- The first check finds the WAN connected, and the node runs the function that it posts. -/
theorem gate_follows_first_probe :
    ∃ s, Reachable {} [connected] s ∧ s.node.isGate = true ∧ s.node.isRoot = true ∧
      s.node.meshPathRootTimer.isScheduled = true := by
  let r : Routing :=
    { nodeAddr := 2, elementTtl := 31, activePathTimeout := 30000, rootPannInterval := 5000 }
  have hstart : Reachable {} [] { node := (r.prepare (fun _ => 0) 0).1 } :=
    .prepare ⟨rfl, rfl, rfl, rfl, rfl⟩ _ _
  have hchecked := hstart.monitor (e := connected) rfl
  have hposted : (init.checkRoutesAndAdvertise {} 0 fun _ => [⟨true, ""⟩]).derived.statuses =
      [true] := by decide +kernel
  have hrun := hchecked.runPosted 0 (show [] ++ List.drop 0 _ = true :: [] by simpa using hposted)
  exact ⟨_, hrun, (gate_follows_probes rfl hrun).2.2.1 rfl (by decide) (by decide +kernel)⟩

end GatewayNode

end Fbmeshd
