import Fbmeshd.Gateway.DampenerRuns

/-!
# Flaps that are far apart

The half-life timer is started by the flap that dampens and by nothing else. Until then no
time that passes between two flaps lowers the history: it is the number of flaps times the
penalty, in 32 bits. Here the flaps of a run keep a minimum distance and are logged, and
the suppression of the route is expressed by that product alone.
-/

namespace Fbmeshd

variable {σ : Type*}

/-- A dampener, the present instant and the instants of the flaps so far. -/
structure FlapRun (σ : Type*) where
  now : ℤ
  rd : RouteDampener σ
  flaps : List ℤ := []

namespace FlapRun

/-- One event of a run whose flaps are at least `gap` apart. Time passes up to the next
deadline and a timer fires when its deadline is reached. -/
inductive Step (cfg : DampenerConfig) (vt : DampenerOverrides σ) (gap : ℤ) :
    FlapRun σ → FlapRun σ → Prop
  | elapse {s : FlapRun σ} {t : ℤ} (hle : s.now ≤ t)
      (hhalf : ∀ d, s.rd.halfLifeTimer = some d → t ≤ d)
      (hmax : ∀ d, s.rd.maxSuppressLimitTimer = some d → t ≤ d) :
      Step cfg vt gap s { s with now := t }
  | flap {s : FlapRun σ} (hgap : ∀ t, s.flaps.getLast? = some t → t + gap ≤ s.now) :
      Step cfg vt gap s
        { s with rd := s.rd.flap cfg vt s.now, flaps := s.flaps ++ [s.now] }
  | halfLife {s : FlapRun σ} {rd : RouteDampener σ}
      (hdue : s.rd.halfLifeTimer = some s.now)
      (hfire : s.rd.fireHalfLifeTimer cfg vt s.now = some rd) :
      Step cfg vt gap s { s with rd := rd }
  | maxSuppress {s : FlapRun σ} {rd : RouteDampener σ}
      (hdue : s.rd.maxSuppressLimitTimer = some s.now)
      (hfire : s.rd.fireMaxSuppressLimitTimer vt s.now = some rd) :
      Step cfg vt gap s { s with rd := rd }

/-- A newly constructed dampener. -/
def init (start : ℤ) (d : σ) : FlapRun σ := ⟨start, { derived := d }, []⟩

/-- The states of runs whose flaps are at least `n` half-lives apart. -/
def Reachable (cfg : DampenerConfig) (vt : DampenerOverrides σ) (n : ℕ) (start : ℤ) (d : σ) :
    FlapRun σ → Prop :=
  Relation.ReflTransGen (Step cfg vt (n * seconds cfg.halfLife)) (init start d)

/-- No flap has dampened the route yet: no timer was ever started, and the history is the
sum of the penalties. -/
structure Undampened (cfg : DampenerConfig) (s : FlapRun σ) : Prop where
  dampened : s.rd.dampened = false
  halfLifeTimer : s.rd.halfLifeTimer = none
  maxSuppressLimitTimer : s.rd.maxSuppressLimitTimer = none
  history : s.rd.history.toNat = s.flaps.length * cfg.penalty.toNat % 2 ^ 32

variable {cfg : DampenerConfig} {vt : DampenerOverrides σ} {gap : ℤ} {s : FlapRun σ}

namespace Undampened

private theorem init (start : ℤ) (d : σ) : Undampened cfg (FlapRun.init start d) := by
  constructor <;> simp [FlapRun.init]

/-- The history the next flap leads to. -/
theorem next_history (h : Undampened cfg s) :
    (s.rd.history + cfg.penalty).toNat = (s.flaps.length + 1) * cfg.penalty.toNat % 2 ^ 32 := by
  rw [UInt32.toNat_add, h.history, Nat.mod_add_mod, Nat.succ_mul]

/-- The next flap dampens exactly when the next multiple of the penalty reaches the limit. -/
theorem flapDampens_iff (h : Undampened cfg s) :
    s.rd.flapDampens cfg ↔
      cfg.suppressLimit.toNat ≤ (s.flaps.length + 1) * cfg.penalty.toNat % 2 ^ 32 := by
  rw [← h.next_history, ← UInt32.le_iff_toNat_le]
  exact and_iff_right h.dampened

/-- A flap below the limit starts no timer. -/
theorem flap (h : Undampened cfg s)
    (hlimit : (s.flaps.length + 1) * cfg.penalty.toNat % 2 ^ 32 < cfg.suppressLimit.toNat) :
    Undampened cfg { s with rd := s.rd.flap cfg vt s.now, flaps := s.flaps ++ [s.now] } := by
  have hno : ¬ s.rd.flapDampens cfg := by
    rw [h.flapDampens_iff]
    omega
  rw [RouteDampener.flap_of_not_dampens _ _ _ hno]
  refine ⟨h.dampened, h.halfLifeTimer, h.maxSuppressLimitTimer, ?_⟩
  rw [h.next_history, List.length_append, List.length_singleton]

/-- A flap after the gap, or a timer, does not dampen. -/
theorem step (hlimit : ∀ k, 0 < k → k * cfg.penalty.toNat % 2 ^ 32 < cfg.suppressLimit.toNat)
    (h : Undampened cfg s) {s' : FlapRun σ} (hstep : Step cfg vt gap s s') :
    Undampened cfg s' := by
  cases hstep with
  | elapse => exact ⟨h.dampened, h.halfLifeTimer, h.maxSuppressLimitTimer, h.history⟩
  | flap => exact h.flap (hlimit _ (Nat.succ_pos _))
  -- Neither timer is scheduled, so neither fires.
  | halfLife hdue => simp [h.halfLifeTimer] at hdue
  | maxSuppress hdue => simp [h.maxSuppressLimitTimer] at hdue

end Undampened

variable {n : ℕ} {start : ℤ} {d : σ}

/-- As long as no reachable state is dampened, one more flap at the minimum distance is
possible, and the multiple of the penalty it leads to is below the limit. -/
theorem exists_next_flap
    (hnever : ∀ s, Reachable cfg vt n start d s → s.rd.dampened = false)
    (hreach : Reachable cfg vt n start d s) (h : Undampened cfg s) :
    (s.flaps.length + 1) * cfg.penalty.toNat % 2 ^ 32 < cfg.suppressLimit.toNat ∧
      ∃ s', Reachable cfg vt n start d s' ∧ Undampened cfg s' ∧
        s'.flaps.length = s.flaps.length + 1 := by
  -- Wait until the last flap is far enough in the past, which no deadline prevents.
  let wait := max s.now ((s.flaps.getLast?.getD s.now) + n * seconds cfg.halfLife)
  have hwait : Reachable cfg vt n start d { s with now := wait } :=
    .tail hreach (.elapse (Int.le_max_left ..) (by simp [h.halfLifeTimer])
      (by simp [h.maxSuppressLimitTimer]))
  have hgap : ∀ t, s.flaps.getLast? = some t → t + n * seconds cfg.halfLife ≤ wait := by
    intro t ht
    simp only [wait, ht, Option.getD_some]
    exact Int.le_max_right ..
  have hflap := hwait.tail (.flap hgap)
  have h' : Undampened cfg { s with now := wait } :=
    ⟨h.dampened, h.halfLifeTimer, h.maxSuppressLimitTimer, h.history⟩
  have hlimit :
      (s.flaps.length + 1) * cfg.penalty.toNat % 2 ^ 32 < cfg.suppressLimit.toNat := by
    by_contra hreaches
    have hdampened := hnever _ hflap
    rw [RouteDampener.flap_of_dampens _ _ _
      (h'.flapDampens_iff.mpr (Nat.le_of_not_lt hreaches))] at hdampened
    exact Bool.noConfusion hdampened
  exact ⟨hlimit, _, hflap, h'.flap hlimit, by simp⟩

/-- As long as no reachable state is dampened, any number of flaps is possible. -/
theorem exists_undampened
    (hnever : ∀ s, Reachable cfg vt n start d s → s.rd.dampened = false) (k : ℕ) :
    ∃ s, Reachable cfg vt n start d s ∧ Undampened cfg s ∧ s.flaps.length = k := by
  induction k with
  | zero => exact ⟨init start d, .refl, .init start d, rfl⟩
  | succ k ih =>
    obtain ⟨s, hreach, h, hlen⟩ := ih
    obtain ⟨-, s', hreach', h', hlen'⟩ := exists_next_flap hnever hreach h
    exact ⟨s', hreach', h', by omega⟩

/-- Flaps any number of half-lives apart never dampen the route exactly when no multiple of
the penalty reaches the limit in 32 bits. The distance between the flaps plays no part. -/
theorem spaced_flaps_never_dampen_iff (cfg : DampenerConfig) (vt : DampenerOverrides σ) (n : ℕ)
    (start : ℤ) (d : σ) :
    (∀ s, Reachable cfg vt n start d s → s.rd.dampened = false) ↔
      ∀ k, 0 < k → k * cfg.penalty.toNat % 2 ^ 32 < cfg.suppressLimit.toNat := by
  constructor
  · intro hnever k hk
    obtain ⟨s, hreach, h, hlen⟩ := exists_undampened hnever (k - 1)
    have hnext := (exists_next_flap hnever hreach h).1
    rwa [hlen, Nat.sub_add_cancel hk] at hnext
  · intro hlimit s hreach
    have h : Undampened cfg s := by
      induction hreach with
      | refl => exact .init start d
      | tail _ hstep ih => exact ih.step hlimit hstep
    exact h.dampened

/-- The default parameters are accepted, one penalty is below the limit, and after two
half-lives a single penalty is no more than half the reuse limit. Yet the second of two flaps
that are two half-lives apart dampens the route. -/
theorem default_spaced_flaps_dampen :
    DampenerConfig.default.isValid = some true ∧
    DampenerConfig.default.penalty < DampenerConfig.default.suppressLimit ∧
    DampenerConfig.default.penalty.toNat / 2 ^ 2 ≤ DampenerConfig.default.reuseLimit.toNat / 2 ∧
    ∃ s : FlapRun Unit, Reachable .default .ignore 2 0 () s ∧
      s.flaps = [0, 2 * seconds 60] ∧ s.rd.dampened = true := by
  refine ⟨by decide, by decide, by decide, ?_⟩
  let s₁ : FlapRun Unit :=
    { init 0 () with rd := (init 0 ()).rd.flap .default .ignore 0, flaps := [0] }
  let s₂ : FlapRun Unit := { s₁ with now := 2 * seconds 60 }
  have h₁ : Reachable .default .ignore 2 0 () s₁ := .tail .refl (.flap (by simp [init]))
  have h₂ : Reachable .default .ignore 2 0 () s₂ :=
    .tail h₁ (.elapse (by decide) (by simp [s₁, init]; decide) (by decide))
  exact ⟨_, .tail h₂ (.flap (by decide)), rfl, by decide⟩

end FlapRun

end Fbmeshd
