import Fbmeshd.Gateway.RouteDampener
import Fbmeshd.Lib.Runs

/-!
# The gateway connectivity monitor

`GatewayConnectivityMonitor` probes the WAN, advertises the default route while the
probes succeed, and derives from `RouteDampener` so that a flapping route is held back.
Everything it does to the outside is logged, so that statements about advertisement are
statements about the calls the source makes.
-/

namespace Fbmeshd

/-- `Socket::Result`. -/
structure SocketResult where
  success : Bool
  errorMsg : String
  deriving DecidableEq

/-- The outside effects of the monitor. The two calls that decide whether the default
route is advertised are logged next to what they do. -/
inductive MonitorEffect where
  | advertiseDefaultRoute
  | withdrawDefaultRoute
  | setRootMode (mode : UInt8)
  | setGatewayStatus (isGate : Bool)
  | writeDebugStat (isGateway : Bool)
  | setAvgStat (path : String) (value : Int32)
  | incrementSumStat (path : String)
  deriving DecidableEq

/-- The arguments of the monitor's constructor that its callbacks read. `hasRouting` says
whether `routing_` is set. -/
structure MonitorConfig where
  dampener : DampenerConfig := .default
  robustness : UInt32 := 2
  setRootModeIfGate : UInt8 := 0
  hasRouting : Bool := true
  deriving DecidableEq

/-- The monitor's own state, with the log of its effects, newest first. -/
structure MonitorState where
  isGatewayActive : Bool := false
  effects : List MonitorEffect := []
  deriving DecidableEq

namespace MonitorState

/-- Append an effect to the log. -/
def log (e : MonitorEffect) (g : MonitorState) : MonitorState :=
  { g with effects := e :: g.effects }

/-- The last call among `advertiseDefaultRoute` and `withdrawDefaultRoute` was the former. -/
def defaultRouteAdvertised (g : MonitorState) : Bool :=
  g.effects.find? (fun e => e = .advertiseDefaultRoute ∨ e = .withdrawDefaultRoute) =
    some .advertiseDefaultRoute

variable (cfg : MonitorConfig)

/-- `advertiseDefaultRoute`. -/
def advertiseDefaultRoute (g : MonitorState) : MonitorState :=
  let g := g.log .advertiseDefaultRoute
  let g := if cfg.setRootModeIfGate ≠ 0 then g.log (.setRootMode cfg.setRootModeIfGate) else g
  if cfg.hasRouting then g.log (.setGatewayStatus true) else g

/-- `withdrawDefaultRoute`. -/
def withdrawDefaultRoute (g : MonitorState) : MonitorState :=
  let g := g.log .withdrawDefaultRoute
  let g := if cfg.setRootModeIfGate ≠ 0 then g.log (.setRootMode 0) else g
  if cfg.hasRouting then g.log (.setGatewayStatus false) else g

/-- The override `dampen`. -/
def dampen (g : MonitorState) : MonitorState :=
  if g.isGatewayActive then (g.log (.writeDebugStat false)).withdrawDefaultRoute cfg else g

/-- The override `undampen`. -/
def undampen (g : MonitorState) : MonitorState :=
  if g.isGatewayActive then (g.log (.writeDebugStat true)).advertiseDefaultRoute cfg else g

/-- The override `setStat`. -/
def setStat (path : String) (value : Int32) (g : MonitorState) : MonitorState :=
  g.log (.setAvgStat ("fbmeshd.gateway_connectivity_monitor." ++ path) value)

/-- The statistic `probeWanConnectivity` counts. A failure reports the error of the last
address that was tried. -/
def probeStat (results : List SocketResult) : String :=
  if results.any (·.success) then
    "fbmeshd.gateway_connectivity_monitor.probe_wan_connectivity.success"
  else "fbmeshd.gateway_connectivity_monitor.probe_wan_connectivity.failed." ++
    (results.getLast?.map (·.errorMsg)).getD ""

/-- `probeWanConnectivity`, given what connecting to each monitored address would return. -/
def probeWanConnectivity (results : List SocketResult) (g : MonitorState) : Bool × MonitorState :=
  (results.any (·.success), g.log (.incrementSumStat (probeStat results)))

/-- The loop of `probeWanConnectivityRobustly` with `fuel` tries left, the next of which
is `tryNum`. -/
def probeLoop (connect : ℕ → List SocketResult) :
    (fuel tryNum : ℕ) → MonitorState → Bool × MonitorState
  | 0, _, g => (false, g)
  | fuel + 1, tryNum, g =>
    match g.probeWanConnectivity (connect tryNum) with
    | (true, g) => (true, g)
    | (false, g) => probeLoop connect fuel (tryNum + 1) g

/-- `probeWanConnectivityRobustly`. -/
def probeWanConnectivityRobustly (connect : ℕ → List SocketResult) (g : MonitorState) :
    Bool × MonitorState :=
  probeLoop connect cfg.robustness.toNat 0 g

/-- The virtual members of the dampener as the monitor overrides them. -/
def overrides : DampenerOverrides MonitorState where
  dampen := dampen cfg
  undampen := undampen cfg
  setStat := setStat

end MonitorState

/-- A monitor is a dampener whose derived state is the monitor's. -/
abbrev GatewayConnectivityMonitor := RouteDampener MonitorState

namespace GatewayConnectivityMonitor

variable (cfg : MonitorConfig)

/-- A newly constructed monitor. -/
def init : GatewayConnectivityMonitor := { derived := {} }

/-- `checkRoutesAndAdvertise`. The flap comes before `isGatewayActive_` is set. -/
def checkRoutesAndAdvertise (now : ℤ) (connect : ℕ → List SocketResult)
    (m : GatewayConnectivityMonitor) : GatewayConnectivityMonitor :=
  match m.derived.probeWanConnectivityRobustly cfg connect with
  | (true, g) =>
    let m : GatewayConnectivityMonitor := { m with derived := g }
    let m : GatewayConnectivityMonitor := if !m.dampened then
        { m with derived := (m.derived.log (.writeDebugStat true)).advertiseDefaultRoute cfg }
      else m
    let m : GatewayConnectivityMonitor := if !m.derived.isGatewayActive then
        m.flap cfg.dampener (MonitorState.overrides cfg) now
      else m
    { m with derived := { m.derived with isGatewayActive := true } }
  | (false, g) =>
    let g := (g.log (.writeDebugStat false)).withdrawDefaultRoute cfg
    { m with derived := { g with isGatewayActive := false } }

/-- The three event sources of the monitor, each with the instant it runs at. A check
carries what each try's connections would return. -/
inductive Event where
  | check (now : ℤ) (connect : ℕ → List SocketResult)
  | halfLifeTimer (now : ℤ)
  | maxSuppressLimitTimer (now : ℤ)

/-- One event. A timer may expire at any moment here, also when it is not scheduled. -/
def step (m : GatewayConnectivityMonitor) : Event → Option GatewayConnectivityMonitor
  | .check now connect => some (m.checkRoutesAndAdvertise cfg now connect)
  | .halfLifeTimer now => m.fireHalfLifeTimer cfg.dampener (MonitorState.overrides cfg) now
  | .maxSuppressLimitTimer now => m.fireMaxSuppressLimitTimer (MonitorState.overrides cfg) now

/-- The monitor after a list of events, `none` if a `CHECK` failed. -/
def run (es : List Event) : Option GatewayConnectivityMonitor :=
  EventSystem.run (step cfg) init es

/-- The result of the robust probe a check makes. -/
def probeResult (connect : ℕ → List SocketResult) : Bool :=
  (List.range cfg.robustness.toNat).any fun tryNum => (connect tryNum).any (·.success)

/-- The result of the latest robust probe, `false` before the first. -/
def latestProbe (es : List Event) : Bool :=
  es.foldl (fun latest e =>
    match e with
    | .check _ connect => probeResult cfg connect
    | _ => latest) false

/-- A check on which the route is dampened: the probe succeeds, the gateway was down,
and the flap reaches the suppress limit. -/
def DampensOn (m : GatewayConnectivityMonitor) : Event → Prop
  | .check _ connect => probeResult cfg connect = true ∧ m.derived.isGatewayActive = false ∧
      m.flapDampens cfg.dampener
  | _ => False

end GatewayConnectivityMonitor

end Fbmeshd
