import Fbmeshd.Clock

/-!
# The route dampener

`RouteDampener` keeps a penalty history for the default route. Flaps add to it, the
half-life timer halves it, and the two limits decide when the route is suppressed and
when it may be used again. What a derived class does in its overrides is a parameter.
-/

namespace Fbmeshd

/-- The constructor arguments of `RouteDampener` other than the event base. The two
durations are in seconds. -/
structure DampenerConfig where
  penalty : UInt32
  suppressLimit : UInt32
  reuseLimit : UInt32
  halfLife : ℕ
  maxSuppressLimit : ℕ
  deriving DecidableEq

/-- `Constants::kDefaultPenalty` and the constants after it. -/
def DampenerConfig.default : DampenerConfig where
  penalty := 1000
  suppressLimit := 2000
  reuseLimit := 750
  halfLife := 1 * 60
  maxSuppressLimit := 3 * 60

/-- `isValid`, with `none` where its expression has no defined value: a half-life of
zero divides by zero, and a shift count of 32 or more is out of range for `1 << n`. -/
def DampenerConfig.isValid (cfg : DampenerConfig) : Option Bool :=
  if cfg.halfLife = 0 then none
  else
    let shift := cfg.maxSuppressLimit / cfg.halfLife
    if 32 ≤ shift then none
    else
      let maxPenalty := cfg.reuseLimit * UInt32.ofNat (2 ^ shift)
      some (cfg.penalty ≤ maxPenalty)

/-- The two virtual calls a derived class must react to. -/
inductive DampenerCall where
  | dampen
  | undampen
  deriving DecidableEq

/-- The virtual members of `RouteDampener`, as updates of the derived class's state. -/
structure DampenerOverrides (σ : Type*) where
  dampen : σ → σ
  undampen : σ → σ
  setStat : String → Int32 → σ → σ
  userHalfLifeTimerExpired : σ → σ := id
  userSuppressLimitTimerExpired : σ → σ := id

/-- The members of a `RouteDampener` together with the state of the derived class.
`calls` records the instants of the `dampen` and `undampen` calls made so far. -/
structure RouteDampener (σ : Type*) where
  history : UInt32 := 0
  dampened : Bool := false
  halfLifeTimer : AsyncTimeout := none
  maxSuppressLimitTimer : AsyncTimeout := none
  calls : List (ℤ × DampenerCall) := []
  derived : σ

namespace RouteDampener

variable {σ : Type*} (cfg : DampenerConfig) (vt : DampenerOverrides σ) (now : ℤ)

/-- `setRdStat` with its `route_dampener.` prefix. -/
def setRdStat (name : String) (value : Int32) (rd : RouteDampener σ) : RouteDampener σ :=
  { rd with derived := vt.setStat ("route_dampener." ++ name) value rd.derived }

/-- `setHistory`. -/
def setHistory (newHistory : UInt32) (rd : RouteDampener σ) : RouteDampener σ :=
  setRdStat vt "default_route_history" newHistory.toInt32 { rd with history := newHistory }

/-- `startHalfLifeTimer`. -/
def startHalfLifeTimer (rd : RouteDampener σ) : RouteDampener σ :=
  { rd with halfLifeTimer := .scheduleTimeout now (seconds cfg.halfLife) }

/-- `startMaxSuppressLimitTimer`. -/
def startMaxSuppressLimitTimer (rd : RouteDampener σ) : RouteDampener σ :=
  { rd with maxSuppressLimitTimer := .scheduleTimeout now (seconds cfg.maxSuppressLimit) }

/-- `stopMaxSuppressLimitTimer`. -/
def stopMaxSuppressLimitTimer (rd : RouteDampener σ) : RouteDampener σ :=
  if rd.maxSuppressLimitTimer.isScheduled then
    { rd with maxSuppressLimitTimer := rd.maxSuppressLimitTimer.cancelTimeout }
  else rd

/-- `stopHalfLifeTimer`. -/
def stopHalfLifeTimer (rd : RouteDampener σ) : RouteDampener σ :=
  if rd.halfLifeTimer.isScheduled then
    { rd with halfLifeTimer := rd.halfLifeTimer.cancelTimeout }
  else rd

/-- The virtual call `dampen()`. -/
def callDampen (rd : RouteDampener σ) : RouteDampener σ :=
  { rd with derived := vt.dampen rd.derived, calls := rd.calls ++ [(now, .dampen)] }

/-- The virtual call `undampen()`. -/
def callUndampen (rd : RouteDampener σ) : RouteDampener σ :=
  { rd with derived := vt.undampen rd.derived, calls := rd.calls ++ [(now, .undampen)] }

/-- `flap`. The addition to the history wraps at 32 bits. -/
def flap (rd : RouteDampener σ) : RouteDampener σ :=
  let rd := setHistory vt (rd.history + cfg.penalty) rd
  if !rd.dampened && cfg.suppressLimit ≤ rd.history then
    let rd := setRdStat vt "default_route_dampened" 1 { rd with dampened := true }
    let rd := startHalfLifeTimer cfg now rd
    let rd := startMaxSuppressLimitTimer cfg now rd
    callDampen vt now rd
  else rd

/-- `isDampened`. -/
def isDampened (rd : RouteDampener σ) : Bool := rd.dampened

/-- `undampenImpl`, which aborts the process when `CHECK(dampened_)` fails. -/
def undampenImpl (rd : RouteDampener σ) : Option (RouteDampener σ) :=
  if rd.dampened then
    let rd := stopMaxSuppressLimitTimer { rd with dampened := false }
    let rd := callUndampen vt now rd
    some (setRdStat vt "default_route_dampened" 0 rd)
  else none

/-- `halfLifeTimerExpired`. -/
def halfLifeTimerExpired (rd : RouteDampener σ) : Option (RouteDampener σ) := do
  let rd := setHistory vt (rd.history / 2) rd
  let rd := if rd.history ≤ cfg.reuseLimit / 2 then stopHalfLifeTimer (setHistory vt 0 rd) else rd
  let rd ← if rd.dampened && rd.history ≤ cfg.reuseLimit then undampenImpl vt now rd else some rd
  return { rd with derived := vt.userHalfLifeTimerExpired rd.derived }

/-- `maxSuppressLimitTimerExpired`. -/
def maxSuppressLimitTimerExpired (rd : RouteDampener σ) : Option (RouteDampener σ) := do
  let rd ← if rd.dampened then
      undampenImpl vt now (stopHalfLifeTimer (setHistory vt 0 rd))
    else some rd
  return { rd with derived := vt.userSuppressLimitTimerExpired rd.derived }

/-- The callback of `halfLifeTimer_`. The timer is idle while the handler runs, so the
handler's attempt to stop it does nothing, and the callback schedules it again. -/
def fireHalfLifeTimer (rd : RouteDampener σ) : Option (RouteDampener σ) := do
  let rd ← halfLifeTimerExpired cfg vt now { rd with halfLifeTimer := none }
  return startHalfLifeTimer cfg now rd

/-- The callback of `maxSuppressLimitTimer_`. -/
def fireMaxSuppressLimitTimer (rd : RouteDampener σ) : Option (RouteDampener σ) :=
  maxSuppressLimitTimerExpired vt now { rd with maxSuppressLimitTimer := none }

/-!
## What one operation does

Each public operation is restated as one record update, so that invariants are proved
from these equations and never unfold the helpers above.
-/

/-- The value `setRdStat` reports the history under. -/
def historyStat (h : UInt32) (d : σ) : σ :=
  vt.setStat "route_dampener.default_route_history" h.toInt32 d

/-- The value `setRdStat` reports `dampened_` under. -/
def dampenedStat (value : Int32) (d : σ) : σ :=
  vt.setStat "route_dampener.default_route_dampened" value d

/-- The history left after one half-life: halved, and reset once it is small. -/
def decayedHistory (h : UInt32) : UInt32 := if h / 2 ≤ cfg.reuseLimit / 2 then 0 else h / 2

/-- The statistics written while the history decays. -/
def decayStats (h : UInt32) (d : σ) : σ :=
  if h / 2 ≤ cfg.reuseLimit / 2 then historyStat vt 0 (historyStat vt (h / 2) d)
  else historyStat vt (h / 2) d

/-- A flap dampens exactly when the route is in use and the new history reaches the limit. -/
def flapDampens (rd : RouteDampener σ) : Prop :=
  rd.dampened = false ∧ cfg.suppressLimit ≤ rd.history + cfg.penalty

instance (rd : RouteDampener σ) : Decidable (rd.flapDampens cfg) :=
  inferInstanceAs (Decidable (_ ∧ _))

/-- A flap that reaches the limit. -/
theorem flap_of_dampens {rd : RouteDampener σ} (h : rd.flapDampens cfg) :
    flap cfg vt now rd =
      { history := rd.history + cfg.penalty
        dampened := true
        halfLifeTimer := some (now + seconds cfg.halfLife)
        maxSuppressLimitTimer := some (now + seconds cfg.maxSuppressLimit)
        calls := rd.calls ++ [(now, .dampen)]
        derived := vt.dampen (dampenedStat vt 1
          (historyStat vt (rd.history + cfg.penalty) rd.derived)) } := by
  obtain ⟨hd, hlimit⟩ := h
  simp only [flap, setHistory, setRdStat, hd, Bool.not_false, hlimit, decide_true, Bool.and_self,
    if_true, startHalfLifeTimer, startMaxSuppressLimitTimer, callDampen,
    AsyncTimeout.scheduleTimeout]
  rfl

/-- A flap that does not. -/
theorem flap_of_not_dampens {rd : RouteDampener σ} (h : ¬ rd.flapDampens cfg) :
    flap cfg vt now rd =
      { rd with
        history := rd.history + cfg.penalty
        derived := historyStat vt (rd.history + cfg.penalty) rd.derived } := by
  have hcond :
      ¬ (!rd.dampened && decide (cfg.suppressLimit ≤ rd.history + cfg.penalty)) = true := by
    cases hd : rd.dampened with
    | true => simp
    | false => simpa using fun hlimit => h ⟨hd, hlimit⟩
  exact if_neg hcond

/-- `undampenImpl` on a dampened route. The timer it stops may already be idle. -/
theorem undampenImpl_of_dampened {rd : RouteDampener σ} (h : rd.dampened = true) :
    undampenImpl vt now rd = some
      { rd with
        dampened := false
        maxSuppressLimitTimer := none
        calls := rd.calls ++ [(now, .undampen)]
        derived := dampenedStat vt 0 (vt.undampen rd.derived) } := by
  cases ht : rd.maxSuppressLimitTimer <;>
    simp [undampenImpl, h, stopMaxSuppressLimitTimer, AsyncTimeout.isScheduled,
      AsyncTimeout.cancelTimeout, callUndampen, setRdStat, dampenedStat, ht]

/-- One half-life passes. The half-life timer always ends up scheduled again. -/
theorem fireHalfLifeTimer_eq (rd : RouteDampener σ) :
    fireHalfLifeTimer cfg vt now rd = some
      (if rd.dampened = true ∧ decayedHistory cfg rd.history ≤ cfg.reuseLimit then
        { history := decayedHistory cfg rd.history
          dampened := false
          halfLifeTimer := some (now + seconds cfg.halfLife)
          maxSuppressLimitTimer := none
          calls := rd.calls ++ [(now, .undampen)]
          derived := vt.userHalfLifeTimerExpired (dampenedStat vt 0
            (vt.undampen (decayStats cfg vt rd.history rd.derived))) }
      else
        { rd with
          history := decayedHistory cfg rd.history
          halfLifeTimer := some (now + seconds cfg.halfLife)
          derived := vt.userHalfLifeTimerExpired (decayStats cfg vt rd.history rd.derived) }) := by
  have hdecay :
      (if rd.history / 2 ≤ cfg.reuseLimit / 2 then
        stopHalfLifeTimer (setHistory vt 0 (setHistory vt (rd.history / 2)
          { rd with halfLifeTimer := none }))
      else setHistory vt (rd.history / 2) { rd with halfLifeTimer := none }) =
        { rd with
          history := decayedHistory cfg rd.history
          halfLifeTimer := none
          derived := decayStats cfg vt rd.history rd.derived } := by
    unfold decayedHistory decayStats
    split <;> rfl
  unfold fireHalfLifeTimer halfLifeTimerExpired
  simp only [show ∀ r : RouteDampener σ, (setHistory vt (rd.history / 2) r).history =
    rd.history / 2 from fun _ => rfl, hdecay]
  by_cases hrel : rd.dampened = true ∧ decayedHistory cfg rd.history ≤ cfg.reuseLimit
  · simp [hrel, undampenImpl_of_dampened, startHalfLifeTimer, AsyncTimeout.scheduleTimeout]
  · have hcond : (rd.dampened && decide (decayedHistory cfg rd.history ≤ cfg.reuseLimit)) =
        false := by
      simpa using hrel
    simp [hrel, hcond, startHalfLifeTimer, AsyncTimeout.scheduleTimeout]

/-- The longest suppression is over. -/
theorem fireMaxSuppressLimitTimer_eq (rd : RouteDampener σ) :
    fireMaxSuppressLimitTimer vt now rd = some
      (if rd.dampened = true then
        { history := 0
          dampened := false
          halfLifeTimer := none
          maxSuppressLimitTimer := none
          calls := rd.calls ++ [(now, .undampen)]
          derived := vt.userSuppressLimitTimerExpired (dampenedStat vt 0
            (vt.undampen (historyStat vt 0 rd.derived))) }
      else
        { rd with
          maxSuppressLimitTimer := none
          derived := vt.userSuppressLimitTimerExpired rd.derived }) := by
  unfold fireMaxSuppressLimitTimer maxSuppressLimitTimerExpired
  by_cases hd : rd.dampened = true
  · have hstop : stopHalfLifeTimer (setHistory vt 0 { rd with maxSuppressLimitTimer := none }) =
        { rd with
          history := 0
          halfLifeTimer := none
          maxSuppressLimitTimer := none
          derived := historyStat vt 0 rd.derived } := by
      cases ht : rd.halfLifeTimer <;>
        simp [stopHalfLifeTimer, setHistory, setRdStat, AsyncTimeout.isScheduled,
          AsyncTimeout.cancelTimeout, historyStat]
    dsimp only
    rw [if_pos hd, if_pos hd, hstop, undampenImpl_of_dampened]
    · rfl
    · exact hd
  · simp [hd]

end RouteDampener

end Fbmeshd
