import Fbmeshd.Gateway.RouteDampener
import Mathlib.Logic.Relation
import Mathlib.Tactic.ByContra

/-!
# Timed runs of the route dampener

Time passes up to the next deadline and no further, and a timer fires when its deadline
is reached. Timers that are due at the same instant fire in either order. The invariant
ties the suppression state to both timers and to the log of virtual calls.
-/

namespace Fbmeshd

variable {σ : Type*}

/-- A dampener together with the present instant. -/
structure TimedDampener (σ : Type*) where
  now : ℤ
  rd : RouteDampener σ

/-- One event of a timed run. A flap is admitted only if it does not overflow the history. -/
inductive TimedDampener.Step (cfg : DampenerConfig) (vt : DampenerOverrides σ) :
    TimedDampener σ → TimedDampener σ → Prop
  | elapse {s : TimedDampener σ} {t : ℤ} (hle : s.now ≤ t)
      (hhalf : ∀ d, s.rd.halfLifeTimer = some d → t ≤ d)
      (hmax : ∀ d, s.rd.maxSuppressLimitTimer = some d → t ≤ d) :
      Step cfg vt s { s with now := t }
  | flap {s : TimedDampener σ} (hfit : s.rd.history.toNat + cfg.penalty.toNat < 2 ^ 32) :
      Step cfg vt s { s with rd := s.rd.flap cfg vt s.now }
  | halfLife {s : TimedDampener σ} {rd : RouteDampener σ}
      (hdue : s.rd.halfLifeTimer = some s.now)
      (hfire : s.rd.fireHalfLifeTimer cfg vt s.now = some rd) :
      Step cfg vt s { s with rd := rd }
  | maxSuppress {s : TimedDampener σ} {rd : RouteDampener σ}
      (hdue : s.rd.maxSuppressLimitTimer = some s.now)
      (hfire : s.rd.fireMaxSuppressLimitTimer vt s.now = some rd) :
      Step cfg vt s { s with rd := rd }

/-- The states a newly constructed dampener reaches. -/
def TimedDampener.Reachable (cfg : DampenerConfig) (vt : DampenerOverrides σ)
    (s : TimedDampener σ) : Prop :=
  ∃ start d, Relation.ReflTransGen (TimedDampener.Step cfg vt) ⟨start, { derived := d }⟩ s

/-- The logged calls alternate, beginning with `dampen`, and no `undampen` comes more
than `limit` after the `dampen` before it. -/
structure AlternatingCalls (limit : ℤ) (calls : List (ℤ × DampenerCall)) : Prop where
  alternate : ∀ i t c, calls[i]? = some (t, c) →
    c = if i % 2 = 0 then DampenerCall.dampen else DampenerCall.undampen
  interval : ∀ i t₀ t₁ c₀ c₁, i % 2 = 0 → calls[i]? = some (t₀, c₀) →
    calls[i + 1]? = some (t₁, c₁) → t₁ ≤ t₀ + limit

namespace AlternatingCalls

variable {limit : ℤ} {calls : List (ℤ × DampenerCall)}

private theorem nil : AlternatingCalls limit [] := ⟨by simp, by simp⟩

/-- A call of the kind whose turn it is extends the log, provided it is not late. -/
theorem concat {t : ℤ} {c : DampenerCall} (h : AlternatingCalls limit calls)
    (hturn : c = if calls.length % 2 = 0 then DampenerCall.dampen else DampenerCall.undampen)
    (hlate : ∀ t₀, calls.getLast? = some (t₀, .dampen) → t ≤ t₀ + limit) :
    AlternatingCalls limit (calls ++ [(t, c)]) := by
  constructor
  · intro i t' c' hi
    rw [List.getElem?_append] at hi
    split at hi
    · exact h.alternate i t' c' hi
    · have hlen : i = calls.length := by
        have := (List.getElem?_eq_some_iff.mp hi).1
        simp only [List.length_singleton] at this
        omega
      subst hlen
      simp only [Nat.sub_self, List.getElem?_cons_zero, Option.some.injEq, Prod.mk.injEq] at hi
      rw [← hi.2, hturn]
  · intro i t₀ t₁ c₀ c₁ heven h₀ h₁
    rw [List.getElem?_append] at h₀ h₁
    split at h₁
    · rw [if_pos (by omega)] at h₀
      exact h.interval i t₀ t₁ c₀ c₁ heven h₀ h₁
    · have hlen : i + 1 = calls.length := by
        have := (List.getElem?_eq_some_iff.mp h₁).1
        simp only [List.length_singleton] at this
        split at h₀
        · omega
        · have := (List.getElem?_eq_some_iff.mp h₀).1
          simp only [List.length_singleton] at this
          omega
      rw [if_pos (by omega)] at h₀
      -- The call before the new one is a `dampen`, as it stands at an even position.
      have hc₀ : c₀ = .dampen := by simpa [heven] using h.alternate i t₀ c₀ h₀
      have hlast : calls.getLast? = some (t₀, .dampen) := by
        rw [List.getLast?_eq_getElem?, ← hlen, Nat.add_sub_cancel, h₀, hc₀]
      rw [hlen, Nat.sub_self] at h₁
      simp only [List.getElem?_cons_zero, Option.some.injEq, Prod.mk.injEq] at h₁
      rw [← h₁.1]
      exact hlate t₀ hlast

end AlternatingCalls

/-- The invariant of timed runs. -/
structure DampenerInvariant (cfg : DampenerConfig) (s : TimedDampener σ) : Prop where
  history_gt : s.rd.dampened = true → cfg.reuseLimit < s.rd.history
  halfLife_scheduled : s.rd.dampened = true → s.rd.halfLifeTimer.isSome = true
  deadline : s.rd.dampened = true → ∃ t₀, s.rd.calls.getLast? = some (t₀, .dampen) ∧
    s.rd.maxSuppressLimitTimer = some (t₀ + seconds cfg.maxSuppressLimit)
  idle : s.rd.dampened = false → s.rd.maxSuppressLimitTimer = none
  not_overdue : ∀ d, s.rd.maxSuppressLimitTimer = some d → s.now ≤ d
  parity : s.rd.calls.length % 2 = if s.rd.dampened then 1 else 0
  calls : AlternatingCalls (seconds cfg.maxSuppressLimit) s.rd.calls

namespace DampenerInvariant

variable {cfg : DampenerConfig} {vt : DampenerOverrides σ} {s : TimedDampener σ}

private theorem init (start : ℤ) (d : σ) :
    DampenerInvariant cfg (⟨start, { derived := d }⟩ : TimedDampener σ) where
  history_gt := by simp
  halfLife_scheduled := by simp
  deadline := by simp
  idle := by simp
  not_overdue := by simp
  parity := by simp
  calls := .nil

/-- The last call of a dampened route is not more than the suppression limit ago. -/
theorem now_le (h : DampenerInvariant cfg s) (hd : s.rd.dampened = true) {t₀ : ℤ}
    (hlast : s.rd.calls.getLast? = some (t₀, .dampen)) :
    s.now ≤ t₀ + seconds cfg.maxSuppressLimit := by
  obtain ⟨t, ht, hmax⟩ := h.deadline hd
  rw [hlast] at ht
  obtain rfl : t₀ = t := by simpa using ht
  exact h.not_overdue _ hmax

/-- Either timer may end a suppression. What the timers and the history are then does not matter,
but for the deadline. -/
theorem undampen (h : DampenerInvariant cfg s) (hd : s.rd.dampened = true) {rd : RouteDampener σ}
    (hoff : rd.dampened = false) (hstop : rd.maxSuppressLimitTimer = none)
    (hcalls : rd.calls = s.rd.calls ++ [(s.now, .undampen)]) :
    DampenerInvariant cfg { s with rd := rd } := by
  have hodd : s.rd.calls.length % 2 = 1 := by simpa [hd] using h.parity
  refine ⟨by simp [hoff], by simp [hoff], by simp [hoff], by simp [hstop], by simp [hstop], ?_, ?_⟩
  · simp only [hoff, hcalls, List.length_append, List.length_singleton, Bool.false_eq_true,
      if_false]
    omega
  · dsimp only
    rw [hcalls]
    exact h.calls.concat (by simp [hodd]) (fun t₀ hlast => h.now_le hd hlast)

private theorem elapse (h : DampenerInvariant cfg s) {t : ℤ}
    (hmax : ∀ d, s.rd.maxSuppressLimitTimer = some d → t ≤ d) :
    DampenerInvariant cfg { s with now := t } :=
  { h with not_overdue := hmax }

private theorem flap (hlimits : cfg.reuseLimit < cfg.suppressLimit) (h : DampenerInvariant cfg s)
    (hfit : s.rd.history.toNat + cfg.penalty.toNat < 2 ^ 32) :
    DampenerInvariant cfg { s with rd := s.rd.flap cfg vt s.now } := by
  by_cases hflap : s.rd.flapDampens cfg
  · have heven : s.rd.calls.length % 2 = 0 := by simpa [hflap.1] using h.parity
    rw [RouteDampener.flap_of_dampens _ _ _ hflap]
    refine ⟨fun _ => UInt32.lt_of_lt_of_le hlimits hflap.2, by simp, by simp, by simp, ?_, ?_, ?_⟩
    · intro d hd
      obtain rfl : s.now + seconds cfg.maxSuppressLimit = d := by simpa using hd
      simp only [seconds, milliseconds]
      omega
    · simp only [List.length_append, List.length_singleton, if_true]
      omega
    · refine h.calls.concat (by simp [heven]) ?_
      -- An even log does not end in a `dampen`, so the new call has no deadline to meet.
      intro t₀ hlast
      rw [List.getLast?_eq_getElem?] at hlast
      have hpos := (List.getElem?_eq_some_iff.mp hlast).1
      have hturn := h.calls.alternate _ _ _ hlast
      rw [if_neg (by omega)] at hturn
      cases hturn
  · rw [RouteDampener.flap_of_not_dampens _ _ _ hflap]
    refine { h with history_gt := fun hd => ?_ }
    have hgt := UInt32.lt_iff_toNat_lt.mp (h.history_gt hd)
    rw [UInt32.lt_iff_toNat_lt, UInt32.toNat_add, Nat.mod_eq_of_lt hfit]
    omega

private theorem halfLife (h : DampenerInvariant cfg s) {rd : RouteDampener σ}
    (hfire : s.rd.fireHalfLifeTimer cfg vt s.now = some rd) :
    DampenerInvariant cfg { s with rd := rd } := by
  rw [RouteDampener.fireHalfLifeTimer_eq, Option.some.injEq] at hfire
  split at hfire
  case isTrue hrel =>
    subst hfire
    exact h.undampen hrel.1 rfl rfl rfl
  case isFalse hrel =>
    subst hfire
    refine { h with history_gt := fun hd => ?_, halfLife_scheduled := by simp }
    exact UInt32.not_le.mp fun hle => hrel ⟨hd, hle⟩

private theorem maxSuppress (h : DampenerInvariant cfg s) {rd : RouteDampener σ}
    (hdue : s.rd.maxSuppressLimitTimer = some s.now)
    (hfire : s.rd.fireMaxSuppressLimitTimer vt s.now = some rd) :
    DampenerInvariant cfg { s with rd := rd } := by
  rw [RouteDampener.fireMaxSuppressLimitTimer_eq, Option.some.injEq] at hfire
  have hd : s.rd.dampened = true := by
    by_contra hd
    simp [h.idle (by simpa using hd)] at hdue
  rw [if_pos hd] at hfire
  subst hfire
  exact h.undampen hd rfl rfl rfl

/-- One step of the dampener. -/
theorem step (hlimits : cfg.reuseLimit < cfg.suppressLimit) {s' : TimedDampener σ}
    (h : DampenerInvariant cfg s) (hstep : TimedDampener.Step cfg vt s s') :
    DampenerInvariant cfg s' := by
  cases hstep with
  | elapse _ _ hmax => exact h.elapse hmax
  | flap hfit => exact h.flap hlimits hfit
  | halfLife _ hfire => exact h.halfLife hfire
  | maxSuppress hdue hfire => exact h.maxSuppress hdue hfire

/-- The invariant holds in every run. -/
theorem of_reachable (hlimits : cfg.reuseLimit < cfg.suppressLimit)
    (hreach : s.Reachable cfg vt) : DampenerInvariant cfg s := by
  obtain ⟨start, d, hrun⟩ := hreach
  induction hrun with
  | refl => exact init start d
  | tail _ hstep ih => exact ih.step hlimits hstep

end DampenerInvariant

/-- In every timed run whose flaps fit the history, a suppressed route has a history above
the reuse limit and both timers scheduled, the suppression timer runs exactly while the
route is suppressed and ends the suppression in time, the check in `undampenImpl` never
fails, and the virtual calls alternate. -/
theorem dampener_runs_consistent {cfg : DampenerConfig} {vt : DampenerOverrides σ}
    {s : TimedDampener σ} (hlimits : cfg.reuseLimit < cfg.suppressLimit)
    (hreach : s.Reachable cfg vt) :
    (s.rd.dampened = true → cfg.reuseLimit < s.rd.history ∧
      s.rd.halfLifeTimer.isScheduled = true ∧ s.rd.maxSuppressLimitTimer.isScheduled = true) ∧
    (s.rd.maxSuppressLimitTimer.isScheduled = true ↔ s.rd.dampened = true) ∧
    (s.rd.dampened = true → ∃ t₀, s.rd.calls.getLast? = some (t₀, .dampen) ∧
      s.rd.maxSuppressLimitTimer = some (t₀ + seconds cfg.maxSuppressLimit) ∧
      s.now ≤ t₀ + seconds cfg.maxSuppressLimit) ∧
    s.rd.fireHalfLifeTimer cfg vt s.now ≠ none ∧
    s.rd.fireMaxSuppressLimitTimer vt s.now ≠ none ∧
    AlternatingCalls (seconds cfg.maxSuppressLimit) s.rd.calls := by
  have h := DampenerInvariant.of_reachable hlimits hreach
  have hmax (hd : s.rd.dampened = true) : s.rd.maxSuppressLimitTimer.isSome = true := by
    obtain ⟨t₀, -, htimer⟩ := h.deadline hd
    simp [htimer]
  refine ⟨fun hd => ⟨h.history_gt hd, h.halfLife_scheduled hd, hmax hd⟩, ⟨?_, hmax⟩, ?_,
    by simp [RouteDampener.fireHalfLifeTimer_eq],
    by simp [RouteDampener.fireMaxSuppressLimitTimer_eq], h.calls⟩
  · intro hsched
    by_contra hd
    simp [AsyncTimeout.isScheduled, h.idle (by simpa using hd)] at hsched
  · intro hd
    obtain ⟨t₀, hlast, htimer⟩ := h.deadline hd
    exact ⟨t₀, hlast, htimer, h.now_le hd hlast⟩

/-- A derived class whose overrides do nothing. -/
def DampenerOverrides.ignore : DampenerOverrides Unit where
  dampen := id
  undampen := id
  setStat _ _ := id

/-- Two flaps with the default parameters reach a suppressed state of this kind. -/
theorem default_two_flaps_consistent :
    ∃ s : TimedDampener Unit, s.Reachable .default .ignore ∧ s.rd.dampened = true ∧
      DampenerConfig.default.reuseLimit < s.rd.history ∧
      s.rd.halfLifeTimer.isScheduled = true ∧ s.rd.maxSuppressLimitTimer.isScheduled = true ∧
      AlternatingCalls (seconds DampenerConfig.default.maxSuppressLimit) s.rd.calls := by
  let s₀ : TimedDampener Unit := ⟨0, { derived := () }⟩
  let s₁ : TimedDampener Unit := { s₀ with rd := s₀.rd.flap .default .ignore 0 }
  let s₂ : TimedDampener Unit := { s₁ with rd := s₁.rd.flap .default .ignore 0 }
  have hreach : s₂.Reachable .default .ignore :=
    ⟨0, (), .tail (.tail .refl (.flap (s := s₀) (by decide))) (.flap (s := s₁) (by decide))⟩
  have hd : s₂.rd.dampened = true := by decide
  have h := dampener_runs_consistent (by decide) hreach
  exact ⟨s₂, hreach, hd, (h.1 hd).1, (h.1 hd).2.1, (h.1 hd).2.2, h.2.2.2.2.2⟩

end Fbmeshd
