import Fbmeshd.Gateway.RouteDampener

/-!
# The parameter check of the route dampener

The constructor of `RouteDampener` compares the penalty with the largest history that can decay
below the reuse limit within the maximal suppression time, `reuseLimit * 2 ^ n` for `n` half-lives.
The comparison is made with a 32-bit product of a shifted `int`.
-/

namespace Fbmeshd

/-- The `route_dampener_*` flags. -/
structure DampenerFlags where
  penalty : UInt32
  suppressLimit : UInt32
  reuseLimit : UInt32
  halflife : UInt32
  maxSuppressLimit : UInt32
  deriving DecidableEq

/-- The constructor arguments that `main` makes of the flags. -/
def DampenerFlags.config (flags : DampenerFlags) : DampenerConfig where
  penalty := flags.penalty
  suppressLimit := flags.suppressLimit
  reuseLimit := flags.reuseLimit
  halfLife := flags.halflife.toNat
  maxSuppressLimit := flags.maxSuppressLimit.toNat

/-- How a constructor call ends. `undefined` is an evaluation that divides by zero or shifts out
of range. -/
inductive Construction where
  | constructed
  | rangeError (what : String)
  | undefined
  deriving DecidableEq

namespace DampenerConfig

variable (cfg : DampenerConfig)

/-- The constructor of `RouteDampener`. -/
def construct : Construction :=
  match cfg.isValid with
  | none => .undefined
  | some true => .constructed
  | some false => .rangeError "route dampener values are not logically consistent"

/-- The largest consistent penalty, over the integers. -/
def maxPenalty : ℕ := cfg.reuseLimit.toNat * 2 ^ (cfg.maxSuppressLimit / cfg.halfLife)

/-- The check is exact: all its operations are defined, its product fits 32 bits, and it throws
for a half-life of zero and for too high a penalty, and for nothing else. -/
structure ChecksExactly : Prop where
  defined : cfg.construct ≠ .undefined
  fits : cfg.maxPenalty < 2 ^ 32
  throws_iff : (∃ what, cfg.construct = .rangeError what) ↔
    cfg.halfLife = 0 ∨ cfg.maxPenalty < cfg.penalty.toNat

variable {cfg}

private theorem isValid_eq_none : cfg.isValid = none ↔
    cfg.halfLife = 0 ∨ 32 ≤ cfg.maxSuppressLimit / cfg.halfLife := by
  unfold isValid
  split
  · simp [*]
  · simp only [*, false_or]
    split <;> simp [*]

/-- Where the shift is in range and the product fits, the 32-bit comparison is that of the
integers. -/
theorem isValid_eq (hhalf : cfg.halfLife ≠ 0) (hshift : cfg.maxSuppressLimit / cfg.halfLife < 32)
    (hfit : cfg.maxPenalty < 2 ^ 32) :
    cfg.isValid = some (decide (cfg.penalty.toNat ≤ cfg.maxPenalty)) := by
  have hpow : 2 ^ (cfg.maxSuppressLimit / cfg.halfLife) < 2 ^ 32 :=
    Nat.pow_lt_pow_right (by decide) hshift
  have hproduct : (cfg.reuseLimit *
      UInt32.ofNat (2 ^ (cfg.maxSuppressLimit / cfg.halfLife))).toNat = cfg.maxPenalty := by
    rw [UInt32.toNat_mul, UInt32.toNat_ofNat_of_lt' hpow]
    exact Nat.mod_eq_of_lt hfit
  simp only [isValid, if_neg hhalf, if_neg (Nat.not_le.mpr hshift), UInt32.le_iff_toNat_le,
    hproduct]

private theorem construct_ne_undefined : cfg.construct ≠ .undefined ↔ cfg.isValid ≠ none := by
  unfold construct
  rcases cfg.isValid with _ | _ | _ <;> simp

private theorem construct_eq_rangeError :
    (∃ what, cfg.construct = .rangeError what) ↔ cfg.isValid = some false := by
  unfold construct
  rcases cfg.isValid with _ | _ | _ <;> simp

end DampenerConfig

/-- For all flags: the check is exact where the half-life is not zero, fewer than 32 half-lives
fit into the suppression time, and the largest penalty fits 32 bits. -/
theorem DampenerFlags.checksExactly_iff (flags : DampenerFlags) :
    flags.config.ChecksExactly ↔
      flags.halflife ≠ 0 ∧ flags.maxSuppressLimit.toNat / flags.halflife.toNat < 32 ∧
        flags.reuseLimit.toNat * 2 ^ (flags.maxSuppressLimit.toNat / flags.halflife.toNat) <
          2 ^ 32 := by
  have hzero : flags.halflife ≠ 0 ↔ flags.config.halfLife ≠ 0 := by
    rw [ne_eq, ← UInt32.toNat_inj]
    rfl
  rw [hzero]
  constructor
  · intro h
    have hdefined := DampenerConfig.construct_ne_undefined.mp h.defined
    rw [ne_eq, DampenerConfig.isValid_eq_none, not_or] at hdefined
    exact ⟨hdefined.1, Nat.not_le.mp hdefined.2, h.fits⟩
  · rintro ⟨hhalf, hshift, hfit⟩
    have hvalid := DampenerConfig.isValid_eq hhalf hshift hfit
    refine ⟨?_, hfit, ?_⟩
    · rw [DampenerConfig.construct_ne_undefined, hvalid]
      exact Option.some_ne_none _
    · rw [DampenerConfig.construct_eq_rangeError, hvalid, Option.some_inj, decide_eq_false_iff_not,
        Nat.not_le]
      exact ⟨.inr, fun h => h.resolve_left hhalf⟩

/-- A half-life of zero divides by zero, 32 half-lives shift out of range, and with 23 half-lives
a consistent penalty is rejected because the product wraps. -/
theorem DampenerFlags.inexact_checks :
    (DampenerFlags.mk 1000 2000 750 0 180).config.construct = .undefined ∧
    (DampenerFlags.mk 1000 2000 750 60 1920).config.construct = .undefined ∧
    (DampenerFlags.mk 2000000000 2000 750 60 1380).config.penalty.toNat ≤
      (DampenerFlags.mk 2000000000 2000 750 60 1380).config.maxPenalty ∧
    (DampenerFlags.mk 2000000000 2000 750 60 1380).config.construct =
      .rangeError "route dampener values are not logically consistent" := by
  decide

end Fbmeshd
