import Fbmeshd.Routing.Transmissions

/-!
# Root announcements

A node announces itself while it is a root. It becomes a root with its first promotion to a
gate, and it stays one for some time after it is no longer a gate. Here a timer callback runs
only if its timer is scheduled, so the roles and the two timers can be related in every state.
-/

namespace Fbmeshd

namespace NodeEvent

/-- The timer whose callback the event is, if any, is scheduled. -/
def Scheduled (r : Routing) : NodeEvent → Prop
  | internal (.housekeeping _ _) => r.housekeepingTimer.isScheduled = true
  | internal (.meshPathRootTimer _) => r.meshPathRootTimer.isScheduled = true
  | internal .noLongerAGateTimer => r.noLongerAGateRANNTimer.isScheduled = true
  | internal (.setGatewayStatus _ _) => True
  | receive _ _ _ _ => True

/-- The event is a call `setGatewayStatus(true)`. -/
def promotes : NodeEvent → Bool
  | internal (.setGatewayStatus isGate _) => isGate
  | _ => false

/-- The event ends the time for which a former gate is still a root. -/
def demotes : NodeEvent → Bool
  | internal .noLongerAGateTimer => true
  | _ => false

/-- The event is an expiry of the root timer. -/
def isRootTimer : NodeEvent → Bool
  | internal (.meshPathRootTimer _) => true
  | _ => false

/-- The announcements of the node itself that an event sends. Replies and copies of the
frames of others are not among them. -/
def announcements (r : Routing) : NodeEvent → List Transmission
  | internal e => (e.apply r).2
  | receive _ _ _ _ => []

end NodeEvent

namespace Routing

/-- A run of events, each possible in the state it meets, with the announcements sent. -/
inductive Run : Routing → List NodeEvent → List Transmission → Routing → Prop
  | nil (r : Routing) : Run r [] [] r
  | cons {r r' : Routing} {e : NodeEvent} {es : List NodeEvent} {out : List Transmission}
      (hsched : e.Scheduled r) (hrest : Run (e.apply r).1 es out r') :
      Run r (e :: es) (e.announcements r ++ out) r'

/-- A node as its constructor leaves it. -/
structure Constructed (r : Routing) : Prop where
  isRoot : r.isRoot = false
  isGate : r.isGate = false
  noLongerAGateRANNTimer : r.noLongerAGateRANNTimer = none
  housekeepingTimer : r.housekeepingTimer = none
  meshPathRootTimer : r.meshPathRootTimer = none

/-- The states of a node after `prepare`. -/
inductive Prepared : Routing → Prop
  | prepare {r : Routing} (h : Constructed r) (entryNow : MacAddress → ℤ) (now : ℤ) :
      Prepared (r.prepare entryNow now).1
  | step {r : Routing} (hreach : Prepared r) {e : NodeEvent} (hsched : e.Scheduled r) :
      Prepared (e.apply r).1

/-- How the roles and the timers of a node are related. -/
structure RoleInvariant (r : Routing) : Prop where
  gate_root : r.isGate = true → r.isRoot = true
  root_timer : r.isRoot = true → r.meshPathRootTimer.isScheduled = true
  former_gate_timer : r.isRoot = true → r.isGate = false →
    r.noLongerAGateRANNTimer.isScheduled = true
  gate_timer : r.isGate = true → r.noLongerAGateRANNTimer.isScheduled = false

/-- The roles and their timers are the same in both states. -/
structure SameRoles (r r' : Routing) : Prop where
  isRoot : r'.isRoot = r.isRoot
  isGate : r'.isGate = r.isGate
  noLongerAGateRANNTimer : r'.noLongerAGateRANNTimer = r.noLongerAGateRANNTimer
  meshPathRootTimer : r'.meshPathRootTimer = r.meshPathRootTimer

/-- A root announces itself. -/
theorem doMeshPathRoot_of_isRoot (now : ℤ) {r : Routing} (h : r.isRoot = true) :
    r.doMeshPathRoot now =
      ({ r with
          sn := r.sn + 1
          meshPathRootTimer := some (now + milliseconds r.rootPannInterval) }, [r.rootFrame]) := by
  simp [doMeshPathRoot, h, rootFrame, AsyncTimeout.scheduleTimeout]

/-- Other nodes do not. -/
theorem doMeshPathRoot_of_not_isRoot (now : ℤ) {r : Routing} (h : r.isRoot = false) :
    r.doMeshPathRoot now = (r, []) := by
  simp [doMeshPathRoot, h]

private theorem fireMeshPathRootTimer_of_isRoot (now : ℤ) {r : Routing} (h : r.isRoot = true) :
    r.fireMeshPathRootTimer now =
      ({ r with
          sn := r.sn + 1
          meshPathRootTimer := some (now + milliseconds r.rootPannInterval) }, [r.rootFrame]) :=
  doMeshPathRoot_of_isRoot now (r := { r with meshPathRootTimer := none }) h

private theorem fireMeshPathRootTimer_of_not_isRoot (now : ℤ) {r : Routing} (h : r.isRoot = false) :
    r.fireMeshPathRootTimer now = ({ r with meshPathRootTimer := none }, []) :=
  doMeshPathRoot_of_not_isRoot now (r := { r with meshPathRootTimer := none }) h

/-- `setGatewayStatus(false)` on a gate starts the time for which it is still a root. -/
theorem setGatewayStatus_false (now : ℤ) {r : Routing} (h : r.isGate = true) :
    r.setGatewayStatus false now =
      ({ r with
          isGate := false
          noLongerAGateRANNTimer := some (now + milliseconds r.activePathTimeout) }, []) := by
  simp [setGatewayStatus, h, AsyncTimeout.scheduleTimeout]

/-- `setGatewayStatus(true)` on a node that is still a root. -/
theorem setGatewayStatus_true_of_isRoot (now : ℤ) {r : Routing} (h : r.isGate = false)
    (hroot : r.isRoot = true) :
    r.setGatewayStatus true now =
      ({ r with isGate := true, noLongerAGateRANNTimer := none }, []) := by
  simp [setGatewayStatus, h, hroot, AsyncTimeout.cancelTimeout]

/-- `setGatewayStatus(true)` on a node that is no root announces it at once. -/
theorem setGatewayStatus_true_of_not_isRoot (now : ℤ) {r : Routing} (h : r.isGate = false)
    (hroot : r.isRoot = false) :
    r.setGatewayStatus true now = doMeshPathRoot now
      { r with isGate := true, isRoot := true, noLongerAGateRANNTimer := none } := by
  simp [setGatewayStatus, h, hroot, AsyncTimeout.cancelTimeout]

/-- A status that is not new does nothing. -/
theorem setGatewayStatus_of_eq (now : ℤ) {r : Routing} {isGate : Bool} (h : r.isGate = isGate) :
    r.setGatewayStatus isGate now = (r, []) := by
  simp [setGatewayStatus, h]

end Routing

open Routing

/-- Frames and housekeeping do not touch the roles. -/
theorem NodeEvent.sameRoles (r : Routing) :
    (∀ stas clk sa pann, SameRoles r ((NodeEvent.receive stas clk sa pann).apply r).1) ∧
      ∀ entryNow now,
        SameRoles r ((NodeEvent.internal (.housekeeping entryNow now)).apply r).1 := by
  refine ⟨fun stas clk sa pann => ?_, fun entryNow now => ⟨rfl, rfl, rfl, rfl⟩⟩
  rw [NodeEvent.apply, process_fields]
  exact ⟨rfl, rfl, rfl, rfl⟩

namespace Routing

namespace RoleInvariant

variable {r : Routing}

private theorem of_sameRoles {r' : Routing} (h : RoleInvariant r) (hsame : SameRoles r r') :
    RoleInvariant r' := by
  constructor
  · rw [hsame.isGate, hsame.isRoot]
    exact h.gate_root
  · rw [hsame.isRoot, hsame.meshPathRootTimer]
    exact h.root_timer
  · rw [hsame.isRoot, hsame.isGate, hsame.noLongerAGateRANNTimer]
    exact h.former_gate_timer
  · rw [hsame.isGate, hsame.noLongerAGateRANNTimer]
    exact h.gate_timer

/-- A node that is neither root nor gate may have any timers. -/
theorem of_not_isRoot (hroot : r.isRoot = false) (hgate : r.isGate = false) : RoleInvariant r := by
  constructor <;> simp [hroot, hgate]

/-- The invariant holds after `prepare`. -/
theorem prepare (h : Constructed r) (entryNow : MacAddress → ℤ) (now : ℤ) :
    RoleInvariant (r.prepare entryNow now).1 := by
  unfold Routing.prepare
  rw [doMeshPathRoot_of_not_isRoot now h.isRoot]
  exact of_not_isRoot h.isRoot h.isGate

/-- The root timer is scheduled again if the node is still a root. -/
theorem fireMeshPathRootTimer (h : RoleInvariant r) (now : ℤ) :
    RoleInvariant (r.fireMeshPathRootTimer now).1 := by
  cases hroot : r.isRoot with
  | true =>
    rw [fireMeshPathRootTimer_of_isRoot now hroot]
    exact ⟨h.gate_root, fun _ => rfl, h.former_gate_timer, h.gate_timer⟩
  | false =>
    rw [fireMeshPathRootTimer_of_not_isRoot now hroot]
    refine of_not_isRoot hroot ?_
    cases hgate : r.isGate with
    | false => rfl
    | true => simp [h.gate_root hgate] at hroot

/-- The timer that ends the root role is not scheduled for a gate. -/
theorem noLongerAGate (h : RoleInvariant r)
    (hsched : r.noLongerAGateRANNTimer.isScheduled = true) : RoleInvariant r.noLongerAGate := by
  refine of_not_isRoot rfl ?_
  cases hgate : r.isGate with
  | false => exact hgate
  | true => simp [h.gate_timer hgate] at hsched

/-- `setGatewayStatus` keeps the invariant. -/
theorem setGatewayStatus (h : RoleInvariant r) (isGate : Bool) (now : ℤ) :
    RoleInvariant (r.setGatewayStatus isGate now).1 := by
  cases hgate : r.isGate <;> cases isGate
  case false.false =>
    rw [setGatewayStatus_of_eq now hgate]
    exact h
  case true.true =>
    rw [setGatewayStatus_of_eq now hgate]
    exact h
  case true.false =>
    rw [setGatewayStatus_false now hgate]
    exact ⟨by simp, h.root_timer, fun _ _ => rfl, by simp⟩
  case false.true =>
    cases hroot : r.isRoot with
    | true =>
      rw [setGatewayStatus_true_of_isRoot now hgate hroot]
      exact ⟨fun _ => hroot, h.root_timer, by simp, fun _ => rfl⟩
    | false =>
      -- A root timer of an earlier promotion may be pending, and it is replaced.
      rw [setGatewayStatus_true_of_not_isRoot now hgate hroot, doMeshPathRoot_of_isRoot now rfl]
      exact ⟨fun _ => rfl, fun _ => rfl, by simp, fun _ => rfl⟩

/-- So does every event that can be scheduled. -/
theorem step (h : RoleInvariant r) {e : NodeEvent} (hsched : e.Scheduled r) :
    RoleInvariant (e.apply r).1 := by
  cases e with
  | receive stas clk sa pann => exact h.of_sameRoles ((NodeEvent.sameRoles r).1 stas clk sa pann)
  | internal e =>
    cases e with
    | housekeeping entryNow now => exact h.of_sameRoles ((NodeEvent.sameRoles r).2 entryNow now)
    | meshPathRootTimer now => exact h.fireMeshPathRootTimer now
    | noLongerAGateTimer => exact h.noLongerAGate hsched
    | setGatewayStatus isGate now => exact h.setGatewayStatus isGate now

private theorem of_prepared (hreach : Prepared r) : RoleInvariant r := by
  induction hreach with
  | prepare h entryNow now => exact .prepare h entryNow now
  | step _ hsched ih => exact ih.step hsched

/-- The invariant holds in every run. -/
theorem run {r' : Routing} {es : List NodeEvent} {out : List Transmission}
    (hrun : Run r es out r') (h : RoleInvariant r) : RoleInvariant r' := by
  induction hrun with
  | nil => exact h
  | cons hsched _ ih => exact ih (h.step hsched)

end RoleInvariant

/-! ## A former gate -/

variable {r r' : Routing} {e : NodeEvent} {es : List NodeEvent} {out : List Transmission}

/-- A former gate stays a root and no gate, through any event that neither promotes it again
nor ends its time as a root. What it announces says that it is no gate. -/
theorem former_gate_step (hroot : r.isRoot = true) (hgate : r.isGate = false)
    (hpromotes : e.promotes = false) (hdemotes : e.demotes = false) :
    (e.apply r).1.isRoot = true ∧ (e.apply r).1.isGate = false ∧
      e.announcements r = if e.isRootTimer then [r.rootFrame] else [] := by
  cases e with
  | receive stas clk sa pann =>
    have hsame := (NodeEvent.sameRoles r).1 stas clk sa pann
    exact ⟨hsame.isRoot.trans hroot, hsame.isGate.trans hgate, rfl⟩
  | internal e =>
    cases e with
    | housekeeping entryNow now => exact ⟨hroot, hgate, rfl⟩
    | noLongerAGateTimer => simp [NodeEvent.demotes] at hdemotes
    | meshPathRootTimer now =>
      simp only [NodeEvent.apply, InternalEvent.apply, NodeEvent.announcements]
      rw [fireMeshPathRootTimer_of_isRoot now hroot]
      exact ⟨hroot, hgate, rfl⟩
    | setGatewayStatus isGate now =>
      obtain rfl : isGate = false := hpromotes
      simp only [NodeEvent.apply, InternalEvent.apply, NodeEvent.announcements]
      rw [setGatewayStatus_of_eq now hgate]
      exact ⟨hroot, hgate, rfl⟩

/-- A node that is no root stays so and announces nothing until it is promoted. The root
timer that may be pending expires at most once. -/
theorem not_root_step (hroot : r.isRoot = false) (hgate : r.isGate = false)
    (hpromotes : e.promotes = false) :
    (e.apply r).1.isRoot = false ∧ (e.apply r).1.isGate = false ∧ e.announcements r = [] ∧
      (e.isRootTimer = true → (e.apply r).1.meshPathRootTimer = none) ∧
      (r.meshPathRootTimer = none → (e.apply r).1.meshPathRootTimer = none) := by
  cases e with
  | receive stas clk sa pann =>
    have hsame := (NodeEvent.sameRoles r).1 stas clk sa pann
    refine ⟨hsame.isRoot.trans hroot, hsame.isGate.trans hgate, rfl,
      by simp [NodeEvent.isRootTimer], fun hnone => hsame.meshPathRootTimer.trans hnone⟩
  | internal e =>
    cases e with
    | housekeeping entryNow now =>
      exact ⟨hroot, hgate, rfl, by simp [NodeEvent.isRootTimer], fun hnone => hnone⟩
    | noLongerAGateTimer =>
      exact ⟨rfl, hgate, rfl, by simp [NodeEvent.isRootTimer], fun hnone => hnone⟩
    | meshPathRootTimer now =>
      simp only [NodeEvent.apply, InternalEvent.apply, NodeEvent.announcements]
      rw [fireMeshPathRootTimer_of_not_isRoot now hroot]
      exact ⟨hroot, hgate, rfl, fun _ => rfl, fun _ => rfl⟩
    | setGatewayStatus isGate now =>
      obtain rfl : isGate = false := hpromotes
      simp only [NodeEvent.apply, InternalEvent.apply, NodeEvent.announcements]
      rw [setGatewayStatus_of_eq now hgate]
      exact ⟨hroot, hgate, rfl, by simp [NodeEvent.isRootTimer], fun hnone => hnone⟩

/-- Until its time as a root is over, a former gate sends one announcement at each expiry of
its root timer, and each says that it is no gate. -/
theorem former_gate_run (hrun : Run r es out r') (hroot : r.isRoot = true)
    (hgate : r.isGate = false)
    (hevents : ∀ e ∈ es, e.promotes = false ∧ e.demotes = false) :
    r'.isRoot = true ∧ r'.isGate = false ∧ out.length = es.countP NodeEvent.isRootTimer ∧
      ∀ t ∈ out, t.1 = .BROADCAST ∧ t.2.isGate = false := by
  induction hrun with
  | nil r => exact ⟨hroot, hgate, rfl, by simp⟩
  | @cons r r' e es out hsched hrest ih =>
    obtain ⟨hpromotes, hdemotes⟩ := hevents e List.mem_cons_self
    obtain ⟨hroot', hgate', hsent⟩ := former_gate_step hroot hgate hpromotes hdemotes
    obtain ⟨hlast, hlastGate, hlen, hframes⟩ :=
      ih hroot' hgate' fun e he => hevents e (List.mem_cons_of_mem _ he)
    refine ⟨hlast, hlastGate, ?_, ?_⟩
    · rw [List.length_append, hlen, List.countP_cons, hsent]
      cases e.isRootTimer <;> simp [Nat.add_comm]
    · intro t ht
      rcases List.mem_append.mp ht with ht | ht
      · rw [hsent] at ht
        split at ht
        · rw [List.mem_singleton.mp ht]
          exact ⟨rfl, hgate⟩
        · simp at ht
      · exact hframes t ht

/-- A node that is no root announces nothing until it is promoted, and its root timer expires
at most once more. -/
theorem not_root_run (hrun : Run r es out r') (hroot : r.isRoot = false)
    (hgate : r.isGate = false) (hevents : ∀ e ∈ es, e.promotes = false) :
    r'.isRoot = false ∧ r'.isGate = false ∧ out = [] ∧
      es.countP NodeEvent.isRootTimer ≤ if r.meshPathRootTimer.isScheduled then 1 else 0 := by
  induction hrun with
  | nil r => exact ⟨hroot, hgate, rfl, by simp⟩
  | @cons r r' e es out hsched hrest ih =>
    obtain ⟨hroot', hgate', hsent, hfired, hidle⟩ :=
      not_root_step hroot hgate (hevents e List.mem_cons_self)
    obtain ⟨hlast, hlastGate, hout, hcount⟩ :=
      ih hroot' hgate' fun e he => hevents e (List.mem_cons_of_mem _ he)
    refine ⟨hlast, hlastGate, by rw [hsent, hout]; rfl, ?_⟩
    rw [List.countP_cons]
    cases htimer : r.meshPathRootTimer with
    | none =>
      have hno : e.isRootTimer = false := by
        cases e with
        | receive => rfl
        | internal e =>
          cases e with
          | meshPathRootTimer now =>
            simp [NodeEvent.Scheduled, htimer, AsyncTimeout.isScheduled] at hsched
          | housekeeping | noLongerAGateTimer | setGatewayStatus => rfl
      simpa [hidle htimer, hno, AsyncTimeout.isScheduled] using hcount
    | some deadline =>
      cases hfires : e.isRootTimer with
      | true => simpa [hfired hfires, AsyncTimeout.isScheduled] using hcount
      | false =>
        have hbound : es.countP NodeEvent.isRootTimer ≤ 1 := by
          split at hcount <;> omega
        simpa [AsyncTimeout.isScheduled] using hbound

/-- In every state after `prepare`: a gate is a root; a root has its root timer scheduled, and
there is never more than one; the timer that ends the root role is scheduled for a root that
is no gate and not for a gate. A root that is no gate keeps announcing so until that timer
fires, and from then on it announces nothing. -/
theorem root_announcements_consistent (hreach : Prepared r) :
    (r.isGate = true → r.isRoot = true) ∧
    (r.isRoot = true → r.meshPathRootTimer.isScheduled = true) ∧
    (r.isRoot = true → r.isGate = false → r.noLongerAGateRANNTimer.isScheduled = true) ∧
    (r.isGate = true → r.noLongerAGateRANNTimer.isScheduled = false) ∧
    r.meshPathRootTimer.toList.length ≤ 1 ∧
    (r.isRoot = true → r.isGate = false → ∀ es out r', Run r es out r' →
      (∀ e ∈ es, e.promotes = false ∧ e.demotes = false) →
      r'.isRoot = true ∧ r'.meshPathRootTimer.isScheduled = true ∧
        out.length = es.countP NodeEvent.isRootTimer ∧
        (∀ t ∈ out, t.1 = .BROADCAST ∧ t.2.isGate = false) ∧
        ∀ es' out' r'', Run r'.noLongerAGate es' out' r'' →
          (∀ e ∈ es', e.promotes = false) →
          out' = [] ∧ es'.countP NodeEvent.isRootTimer ≤ 1) := by
  have h := RoleInvariant.of_prepared hreach
  refine ⟨h.gate_root, h.root_timer, h.former_gate_timer, h.gate_timer, ?_, ?_⟩
  · cases r.meshPathRootTimer <;> simp
  · intro hroot hgate es out r' hrun hevents
    obtain ⟨hroot', hgate', hlen, hframes⟩ := former_gate_run hrun hroot hgate hevents
    refine ⟨hroot', (h.run hrun).root_timer hroot', hlen, hframes, ?_⟩
    intro es' out' r'' hrun' hevents'
    obtain ⟨-, -, hout, hcount⟩ := not_root_run hrun' rfl hgate' hevents'
    refine ⟨hout, hcount.trans ?_⟩
    split <;> decide

/-- A node that was a gate for a while is such a root, with both timers scheduled. -/
theorem former_gate_scheduled :
    ∃ r : Routing, Prepared r ∧ r.isRoot = true ∧ r.isGate = false ∧
      r.meshPathRootTimer.isScheduled = true ∧ r.noLongerAGateRANNTimer.isScheduled = true := by
  let r₀ : Routing :=
    { nodeAddr := 1, elementTtl := 32, activePathTimeout := 30000, rootPannInterval := 5000 }
  have h₀ : Prepared (r₀.prepare (fun _ => 0) 0).1 := .prepare ⟨rfl, rfl, rfl, rfl, rfl⟩ _ _
  have h₁ := h₀.step (e := .internal (.setGatewayStatus true 1)) trivial
  have h₂ := h₁.step (e := .internal (.setGatewayStatus false 2)) trivial
  have h := root_announcements_consistent h₂
  exact ⟨_, h₂, by decide, by decide, h.2.1 (by decide), h.2.2.1 (by decide) (by decide)⟩

end Routing

end Fbmeshd
