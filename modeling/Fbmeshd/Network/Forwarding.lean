import Fbmeshd.Network.LoopFree
import Fbmeshd.Routing.StationRoutes

/-!
# Forwarding along the routes of the kernels

The routing threads of the nodes exchange announcements, and once a second a node turns the paths
it has at that moment into kernel routes. Between two calls its kernel forwards along the paths that
the last call has read. The two kinds of steps are interleaved in any order.
-/

namespace Fbmeshd

private theorem Routing.find_getMeshPaths {r : Routing} {stas : LinkMetrics} {now : MacAddress → ℤ}
    {a : MacAddress} {p : MeshPath} :
    (r.getMeshPaths stas now).find a = some p ↔
      r.meshPaths.find a = some p ∧ now a ≤ p.expTime ∧ (stas p.nextHop).isSome = true := by
  rw [getMeshPaths, MeshPaths.find_keep, Bool.and_eq_true, Bool.not_eq_true',
    MeshPath.expired_eq_false]

/-- The next hop to a destination, if it is not the zero address. -/
def MeshPaths.hopTo (paths : MeshPaths) (D : MacAddress) : Option MacAddress :=
  ((paths.find D).map MeshPath.nextHop).filter fun m => m ≠ 0

private theorem MeshPaths.hopTo_eq_some {paths : MeshPaths} {D m : MacAddress} :
    paths.hopTo D = some m ↔ ∃ p, paths.find D = some p ∧ p.nextHop = m ∧ m ≠ 0 := by
  simp only [hopTo, Option.filter_eq_some_iff, Option.map_eq_some_iff, decide_eq_true_eq]
  constructor
  · rintro ⟨⟨p, hp, hhop⟩, hzero⟩
    exact ⟨p, hp, hhop, hzero⟩
  · rintro ⟨p, hp, hhop, hzero⟩
    exact ⟨⟨p, hp, hhop⟩, hzero⟩

/-- The paths of the nodes and the state of their synchronisation, with the paths that each node's
last call of `doSyncRoutes` has read. -/
structure DataPlane where
  net : NetState
  sync : MacAddress → SyncRoutes80211s CIDRNetwork
  read : MacAddress → Option MeshPaths

namespace DataPlane

/-- The kernel of `n` forwards packets for `D` to `m`. -/
def Forwards (s : DataPlane) (D n m : MacAddress) : Prop :=
  ∃ r, (s.sync n).netlinkSocket.kernel.routes syncProtocolId (meshNetwork D) = some r ∧
    ∃ hop ∈ r.nextHops, hop.gateway = some (.v6 (IPAddress.linkLocal m) 0)

/-- The kernel of `n` forwards packets for `D` to the next hop of the present path, and drops them
if there is none. Otherwise it lags behind. -/
def UpToDate (s : DataPlane) (D n : MacAddress) : Prop :=
  ∀ m, s.Forwards D n m ↔ (s.net.node n).meshPaths.hopTo D = some m

/-- The state after a call of `doSyncRoutes` at `n`. -/
def synced (s : DataPlane) (nl : NlSock CIDRNetwork) (n : MacAddress) (x : SyncInput) : DataPlane :=
  { s with
    sync := Function.update s.sync n (SyncRoutes80211s.doSyncRoutes nl x (s.sync n)).1
    read := Function.update s.read n (some x.meshPaths) }

variable (net : LinkNetwork)

/-- A step of the routing threads, or a call of `doSyncRoutes` at some node. -/
inductive Step : DataPlane → DataPlane → Prop
  | routing {s : DataPlane} {net' : NetState} (h : net.Step s.net net') :
      Step s { s with net := net' }
  | sync {s : DataPlane} {nl : NlSock CIDRNetwork} (hnl : nl.Obliging) (n : MacAddress)
      (x : SyncInput) (stas : LinkMetrics) (now : MacAddress → ℤ)
      (hpaths : x.meshPaths = (s.net.node n).getMeshPaths stas now) : Step s (s.synced nl n x)

/-- The states of the runs. At the start the caches may hold routes of an earlier process. -/
inductive Reachable : DataPlane → Prop
  | start (clock : MacAddress → ℤ) (sync : MacAddress → SyncRoutes80211s CIDRNetwork)
      (htracks : ∀ n, (sync n).netlinkSocket.TracksStations) :
      Reachable ⟨net.start clock, sync, fun _ => none⟩
  | step {s s' : DataPlane} (hreach : Reachable s) (hstep : Step net s s') : Reachable s'

variable {net} {s : DataPlane}

/-- The routing threads run as they do without the calls. -/
theorem Reachable.routing (h : Reachable net s) : net.Reachable s.net := by
  induction h with
  | start clock sync _ => exact .start clock
  | step _ hstep ih =>
    cases hstep with
    | routing h => exact .step ih h
    | sync hnl n x stas now hpaths => exact ih

end DataPlane

/-- In every run the paths are kept under their destinations. -/
theorem LinkNetwork.keyed_of_reachable {net : LinkNetwork} {s : NetState}
    (hreach : net.Reachable s) : ∀ n, (s.node n).meshPaths.Keyed := by
  induction hreach with
  | start clock => simp [Network.start, Network.newNode, MeshPaths.Keyed]
  | step _ hstep ih =>
    cases hstep with
    | deliver hdel =>
      cases hdel with
      | intro _ _ _ =>
        exact NetState.forall_act_node (P := fun _ r => r.meshPaths.Keyed)
          (Routing.keyed_process (ih _) _ _ _ _) ih
    | lose _ => exact ih
    | callback _ e _ _ =>
      refine NetState.forall_act_node (P := fun _ r => r.meshPaths.Keyed) ?_ ih
      rw [e.apply_meshPaths]
      exact fun a p hp => ih _ a p (InternalEvent.find_of_find_purge hp)

/-- The next hop of a route to a station is known by its address. -/
theorem gateway_meshRoute {d : CIDRNetwork} {m m' : MacAddress} {ifIndex : UInt32} :
    (∃ hop ∈ (meshRoute d m ifIndex).withDefaultPriority.nextHops,
      hop.gateway = some (.v6 (IPAddress.linkLocal m') 0)) ↔ m = m' := by
  have hhops : (meshRoute d m ifIndex).withDefaultPriority.nextHops =
      {{ ifIndex := some ifIndex, gateway := some (.v6 (IPAddress.linkLocal m) 0) }} := rfl
  rw [hhops]
  simp only [Finset.mem_singleton, exists_eq_left, Option.some.injEq, IPAddress.v6.injEq, and_true]
  exact ⟨fun h => (IPAddress.eui64_inj h).2, fun h => h ▸ rfl⟩

namespace DataPlane

variable {net : LinkNetwork} {s s' : DataPlane}

/-- The kernels have the next hops that were read. -/
structure Invariant (s : DataPlane) : Prop where
  tracks : ∀ n, (s.sync n).netlinkSocket.TracksStations
  forwards : ∀ n paths, s.read n = some paths → ∀ D m, s.Forwards D n m ↔ paths.hopTo D = some m

private theorem Invariant.synced (h : Invariant s) {nl : NlSock CIDRNetwork} (hnl : nl.Obliging)
    {n : MacAddress} {x : SyncInput} (hkeyed : x.meshPaths.Keyed) :
    Invariant (s.synced nl n x) := by
  obtain ⟨-, htracks, hroutes⟩ :=
    SyncRoutes80211s.doSyncRoutes_of_obliging hnl hkeyed (h.tracks n)
  constructor
  · intro n'
    by_cases hn : n' = n
    · subst hn
      simpa [DataPlane.synced] using htracks
    · simpa [DataPlane.synced, hn] using h.tracks n'
  · intro n' paths hread D m
    by_cases hn : n' = n
    · subst hn
      obtain rfl : x.meshPaths = paths := by simpa [DataPlane.synced] using hread
      simp only [Forwards, DataPlane.synced, Function.update_self, hroutes, MeshPaths.hopTo_eq_some]
      constructor
      · rintro ⟨_, ⟨p, hp, hzero, rfl⟩, hgateway⟩
        obtain rfl := gateway_meshRoute.mp hgateway
        exact ⟨p, hp, rfl, hzero⟩
      · rintro ⟨p, hp, rfl, hzero⟩
        exact ⟨_, ⟨p, hp, hzero, rfl⟩, gateway_meshRoute.mpr rfl⟩
    · have hold : s.read n' = some paths := by simpa [DataPlane.synced, hn] using hread
      simpa [Forwards, DataPlane.synced, hn] using h.forwards n' paths hold D m

/-- The invariant holds in every run. -/
theorem Invariant.of_reachable (hreach : Reachable net s) : Invariant s := by
  induction hreach with
  | start clock sync htracks => exact ⟨htracks, fun _ _ h => nomatch h⟩
  | step hreach hstep ih =>
    cases hstep with
    | routing h => exact ⟨ih.tracks, ih.forwards⟩
    | sync hnl n x stas now hpaths =>
      refine ih.synced hnl fun a p hp => ?_
      rw [hpaths] at hp
      exact LinkNetwork.keyed_of_reachable hreach.routing n a p (Routing.find_getMeshPaths.mp hp).1

/-- A node with a route is a node of the network. -/
theorem mem_nodes_of_label (hreach : Reachable net s) {D n : MacAddress}
    {l : DistanceVector.Label MacAddress}
    (hl : (s.net.routes announcementRank D).label n = some l) : n ∈ net.nodes := by
  obtain ⟨w, hw⟩ := (LinkInvariant.routes_invariant hreach.routing D).linked n l hl
  obtain ⟨metric, hlink, -⟩ := LinkNetwork.exists_link_of_cost hw
  exact net.mem_nodes _ _ _ hlink

section Zero

-- The zero address stands for no next hop, so no station may have it.
variable (hzero : 0 ∉ net.nodes) {D : MacAddress} (hD : D ≠ 0)

include hzero hD

/-- The next hop of an accepted path is not the zero address. -/
theorem hopTo_eq_some_iff (hreach : Reachable net s) {n m : MacAddress} :
    (s.net.node n).meshPaths.hopTo D = some m ↔
      (s.net.routes announcementRank D).RoutesThrough n m := by
  have hroutes := LinkInvariant.routes_invariant hreach.routing D
  rw [← LinkNetwork.nextHop_iff (.of_reachable hreach.routing), MeshPaths.hopTo_eq_some]
  constructor
  · rintro ⟨p, hp, rfl, hne⟩
    refine ⟨p, hp, fun hcreate => hne ?_, rfl⟩
    rw [hcreate]
    rfl
  · intro hnext
    obtain ⟨l, hl, rfl⟩ := (LinkNetwork.nextHop_iff (.of_reachable hreach.routing)).mp hnext
    obtain ⟨p, hp, -, hhop⟩ := hnext
    refine ⟨p, hp, hhop, ?_⟩
    rcases hroutes.nextHop_cases hl with hdest | ⟨l', hl', -⟩
    · rwa [hdest]
    · rintro heq
      exact hzero (heq ▸ mem_nodes_of_label hreach hl')

/-- An up-to-date node forwards along its present path. -/
theorem UpToDate.forwards_iff {n : MacAddress} (hfresh : s.UpToDate D n)
    (hreach : Reachable net s) (m : MacAddress) :
    s.Forwards D n m ↔ (s.net.routes announcementRank D).RoutesThrough n m :=
  (hfresh m).trans (hopTo_eq_some_iff hzero hD hreach)

/-- `getMeshPaths` leaves out no path with a next hop, if it reads the present metrics and time. -/
theorem hopTo_getMeshPaths (hreach : Reachable net s) {n m : MacAddress} :
    ((s.net.node n).getMeshPaths (net.link n) fun _ => s.net.clock n).hopTo D = some m ↔
      (s.net.node n).meshPaths.hopTo D = some m := by
  constructor
  · intro hm
    obtain ⟨p, hp, hhop⟩ := MeshPaths.hopTo_eq_some.mp hm
    exact MeshPaths.hopTo_eq_some.mpr ⟨p, (Routing.find_getMeshPaths.mp hp).1, hhop⟩
  · intro hm
    obtain ⟨l, hl, hlm⟩ := (hopTo_eq_some_iff hzero hD hreach).mp hm
    obtain ⟨p, hlive, rfl⟩ := Option.map_eq_some_iff.mp hl
    obtain ⟨hp, hunexpired⟩ := MeshPaths.live_eq_some.mp hlive
    obtain ⟨w, hw⟩ := (LinkInvariant.routes_invariant hreach.routing D).linked n _ hl
    obtain ⟨metric, hlink, -⟩ := LinkNetwork.exists_link_of_cost hw
    obtain ⟨q, hq, hhop, hne⟩ := MeshPaths.hopTo_eq_some.mp hm
    refine MeshPaths.hopTo_eq_some.mpr ⟨p, Routing.find_getMeshPaths.mpr ⟨hp, hunexpired, ?_⟩,
      hlm, hne⟩
    exact Option.isSome_iff_exists.mpr ⟨metric, hlink⟩

/-- A call of `doSyncRoutes` that reads the present metrics and time. -/
theorem upToDate_synced (hreach : Reachable net s) {nl : NlSock CIDRNetwork} (hnl : nl.Obliging)
    {n : MacAddress} {x : SyncInput} (hpaths : x.meshPaths =
      (s.net.node n).getMeshPaths (net.link n) fun _ => s.net.clock n) :
    (s.synced nl n x).UpToDate D n := by
  have hsynced : Invariant (s.synced nl n x) :=
    .of_reachable (hreach.step (.sync hnl n x _ _ hpaths))
  intro m
  rw [hsynced.forwards n x.meshPaths (Function.update_self ..) D m, hpaths]
  exact hopTo_getMeshPaths hzero hD hreach

end Zero

/-- A kernel lags behind only if the next hop has changed since the last call of `doSyncRoutes`, and
such a call ends the lag. Each forwarding loop passes a node that lags behind. If no node does,
every packet that is forwarded reaches its destination. -/
theorem forwarding_loop_free (hreach : Reachable net s) (hzero : 0 ∉ net.nodes) {D : MacAddress}
    (hD : D ≠ 0) :
    (∀ n paths, s.read n = some paths → paths.hopTo D = (s.net.node n).meshPaths.hopTo D →
      s.UpToDate D n) ∧
    (∀ nl : NlSock CIDRNetwork, nl.Obliging → ∀ n x,
      x.meshPaths = (s.net.node n).getMeshPaths (net.link n) (fun _ => s.net.clock n) →
      (s.synced nl n x).UpToDate D n) ∧
    (∀ n, ¬ Relation.TransGen (fun a b => s.UpToDate D a ∧ s.Forwards D a b) n n) ∧
    ((∀ n ∈ net.nodes, s.UpToDate D n) → ∀ n ∈ net.nodes, ∀ m, s.Forwards D n m →
      Relation.TransGen (s.Forwards D) n D) := by
  have hroutes := LinkInvariant.routes_invariant hreach.routing D
  refine ⟨fun n paths hread hhop m => ?_, fun nl hnl n x hpaths => ?_, fun n hloop => ?_,
    fun hfresh n hn m hm => ?_⟩
  · rw [(Invariant.of_reachable hreach).forwards n paths hread, hhop]
  · exact upToDate_synced hzero hD hreach hnl hpaths
  · refine hroutes.acyclic n (Relation.TransGen.mono (fun a b hab => ?_) n n hloop)
    exact (hab.1.forwards_iff hzero hD hreach b).mp hab.2
  · obtain ⟨l, hl, -⟩ := ((hfresh n hn).forwards_iff hzero hD hreach m).mp hm
    refine Relation.TransGen.mono (fun a b hab => ?_) n D (hroutes.reaches hl)
    have ha : a ∈ net.nodes := by
      obtain ⟨l', hl', -⟩ := hab
      exact mem_nodes_of_label hreach hl'
    exact ((hfresh a ha).forwards_iff hzero hD hreach b).mpr hab

/-! ### A loop while the kernels lag -/

/-- A node reads its paths and synchronises its routes. -/
def syncNode (s : DataPlane) (n : MacAddress) : DataPlane :=
  s.synced (.byDestination (fun _ => .SUCCESS) fun _ => 0) n
    { SyncRoutes80211s.besideGate false with
      meshPaths := (s.net.node n).getMeshPaths (unevenLink n) fun _ => 1 }

namespace Reachable

private theorem deliver_nth (h : Reachable unevenTriangle s) (i : ℕ) {p : Packet} {clk : PannClock}
    (hp : s.net.flight[i]? = some p)
    (hfirst : ∀ x ∈ s.net.flight.take i, x.src = p.src → x.dst ≠ p.dst)
    (hno : (s.net.node p.dst).NoExpiry (unevenLink p.dst) clk p.src p.frame (s.net.clock p.dst)
      1) :
    Reachable unevenTriangle { s with
      net := s.net.deliver triangle p (s.net.flight.take i ++ s.net.flight.drop (i + 1))
        (unevenLink p.dst) clk 1 } :=
  .step h (.routing (.deliver (.intro (Network.flight_split hp) hfirst hno)))

private theorem lose_nth (h : Reachable unevenTriangle s) (i : ℕ) (hi : i < s.net.flight.length) :
    Reachable unevenTriangle { s with
      net := { s.net with flight := s.net.flight.take i ++ s.net.flight.drop (i + 1) } } :=
  .step h (.routing (.lose (Network.flight_split (List.getElem?_eq_getElem hi))))

private theorem syncNode (h : Reachable unevenTriangle s) (n : MacAddress) :
    Reachable unevenTriangle (s.syncNode n) :=
  .step h (.sync ⟨rfl, fun _ => rfl, fun _ => ⟨rfl, rfl⟩⟩ n _ (unevenLink n)
    (fun _ => 1) rfl)

end Reachable

/-- Station 2 hears of station 1 through station 3 and synchronises its routes. Then it hears
station 1 itself, and station 3 changes to the path through station 2. -/
theorem lagging_kernels_loop :
    ∃ s, Reachable unevenTriangle s ∧ s.Forwards 1 2 3 ∧ s.Forwards 1 3 2 ∧
      ¬ (s.UpToDate 1 2 ∧ s.UpToDate 1 3) := by
  let s₀ : DataPlane :=
    ⟨triangle.start fun _ => 0, fun _ => SyncRoutes80211s.freshNode, fun _ => none⟩
  have h₀ : Reachable unevenTriangle s₀ := by
    refine .start _ _ fun n => ⟨fun c r hr => ?_, fun a => rfl, ?_⟩
    · cases c <;> cases hr
    · exact fun k r hr => nomatch hr
  have h₁ : Reachable unevenTriangle
      { s₀ with net := s₀.net.callback triangle 1 (.setGatewayStatus true 0) 0 } := by
    refine .step h₀ (.routing (.callback (by decide) _ ⟨le_rfl, le_rfl⟩ ?_))
    exact fun _ _ _ h => h
  have h₂ := h₁.deliver_nth 1 (p := ⟨1, 3, announced 0 32 0⟩) (by decide +kernel)
    (by decide +kernel) (.of_empty rfl le_rfl (by decide : (0 : ℤ) < 1))
  have h₃ := h₂.deliver_nth 3 (p := ⟨3, 2, announced 1 31 50⟩) (by decide +kernel)
    (by decide +kernel) (.of_empty rfl le_rfl (by decide : (0 : ℤ) < 1))
  have h₄ := h₃.syncNode 2
  have h₅ := h₄.deliver_nth 0 (p := ⟨1, 2, announced 0 32 0⟩) (by decide +kernel)
    (by decide +kernel) (.of_known (by decide +kernel) 1)
  have h₆ := (h₅.lose_nth 2 (by decide +kernel)).lose_nth 3 (by decide +kernel)
  have h₇ := h₆.deliver_nth 5 (p := ⟨2, 3, announced 1 31 1⟩) (by decide +kernel)
    (by decide +kernel) (.of_known (by decide +kernel) 1)
  have h₈ := h₇.syncNode 3
  have hforwards := (Invariant.of_reachable h₈).forwards
  have h₂₃ := (hforwards 2 _ rfl 1 3).mpr (by decide +kernel)
  have h₃₂ := (hforwards 3 _ rfl 1 2).mpr (by decide +kernel)
  refine ⟨_, h₈, h₂₃, h₃₂, fun hfresh => ?_⟩
  exact (forwarding_loop_free h₈ (by decide) (by decide : (1 : MacAddress) ≠ 0)).2.2.1 2
    (.tail (.single ⟨hfresh.1, h₂₃⟩) ⟨hfresh.2, h₃₂⟩)

end DataPlane

end Fbmeshd
