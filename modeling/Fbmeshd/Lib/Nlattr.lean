import Fbmeshd.Lib.Rtattr
import Mathlib.Data.Int.Notation

/-!
# Attributes as libnl reads them

An attribute has a header of four bytes, of which the first two hold its length with the header.
In contrast to the macros of the kernel's headers, libnl counts the bytes that remain with a
signed number, which may become negative. What its functions return and where they look is assumed
here, and the loops over attributes are written with them.
-/

namespace Bytes.Nlattr

open Reader

/-- Where the payload begins. -/
def payloadStart (nla : ℕ) : ℕ := nla + 4

/-- The length of the payload, negative if the attribute's does not include the header. -/
def payload (m : Memory) (nla : ℕ) : ℤ := u16 m nla - 4

/-- Where the payload ends. -/
def payloadEnd (m : Memory) (nla : ℕ) : ℕ := payloadStart nla + (payload m nla).toNat

/-- A header remains, and the attribute has one and ends where the others end or before. -/
def Ok (m : Memory) (pos : ℕ) (rem : ℤ) : Prop :=
  4 ≤ rem ∧ 4 ≤ u16 m pos ∧ (u16 m pos : ℤ) ≤ rem

instance (m : Memory) (pos : ℕ) (rem : ℤ) : Decidable (Ok m pos rem) :=
  inferInstanceAs (Decidable (_ ∧ _))

/-- The position after an attribute. -/
def next (m : Memory) (pos : ℕ) : ℕ := pos + align4 (u16 m pos)

/-- What remains after an attribute. -/
def rest (m : Memory) (pos : ℕ) (rem : ℤ) : ℤ := rem - align4 (u16 m pos)

/-- The functions of libnl. -/
structure Libnl where
  nlaData : ℕ → ℕ
  nlaLen : ℕ → Reader ℤ
  nlaOk : ℕ → ℤ → Reader Bool
  nlaNext : ℕ → ℤ → Reader (ℕ × ℤ)

/-- What they return and where they look: `nla_len` and `nla_next` at the length of the attribute,
`nla_ok` nowhere if no header remains. The new position of `nla_next` counts as an access to no
bytes. -/
structure Libnl.Documented (L : Libnl) : Prop where
  nlaData_eq : ∀ nla, L.nlaData nla = payloadStart nla
  eval_nlaLen : ∀ m nla, (L.nlaLen nla).eval m = .ok (payload m nla)
  safe_nlaLen : ∀ {m bound nla}, nla + 2 ≤ bound → Safe m bound (L.nlaLen nla)
  eval_nlaOk : ∀ m pos rem, (L.nlaOk pos rem).eval m = .ok (decide (Ok m pos rem))
  safe_nlaOk : ∀ {m} {bound pos : ℕ} {rem : ℤ}, (pos : ℤ) + rem ≤ bound →
    Safe m bound (L.nlaOk pos rem)
  eval_nlaNext : ∀ m pos rem, (L.nlaNext pos rem).eval m = .ok (next m pos, rest m pos rem)
  safe_nlaNext_iff : ∀ {m bound pos rem},
    Safe m bound (L.nlaNext pos rem) ↔ pos + 2 ≤ bound ∧ next m pos ≤ bound

/-- `for (pos = head, rem = len; nla_ok(pos, rem); pos = nla_next(pos, &rem))`, with the
attributes it visits. -/
def nlaForEachAttr (L : Libnl) : ℕ → ℕ → ℤ → Reader (List ℕ)
  | 0, _, _ => abort .outOfFuel
  | fuel + 1, pos, rem => do
    if ← L.nlaOk pos rem then do
      let next ← L.nlaNext pos rem
      let rest ← nlaForEachAttr L fuel next.1 next.2
      pure (pos :: rest)
    else pure []

/-- `nla_for_each_nested`. -/
def nlaForEachNested (L : Libnl) (fuel nla : ℕ) : Reader (List ℕ) := do
  let len ← L.nlaLen nla
  nlaForEachAttr L fuel (L.nlaData nla) len

variable {L : Libnl} {m : Memory} {fuel pos bound : ℕ} {rem : ℤ}

/-- An attribute with a length takes at least a header. -/
theorem rest_le (rem : ℤ) (h : 0 < u16 m pos) : rest m pos rem + 4 ≤ rem := by
  simp only [rest, align4]
  omega

/-- The attributes from a position on. -/
def attributes (m : Memory) (pos : ℕ) (rem : ℤ) : List ℕ :=
  if Ok m pos rem then pos :: attributes m (next m pos) (rest m pos rem) else []
termination_by rem.toNat
decreasing_by
  have hpos : 0 < u16 m pos := by
    unfold Ok at *
    omega
  have hle := rest_le rem hpos
  unfold Ok at *
  omega

/-- An attribute that is in order is followed by those behind it. -/
theorem attributes_of_ok (h : Ok m pos rem) :
    attributes m pos rem = pos :: attributes m (next m pos) (rest m pos rem) := by
  rw [attributes, if_pos h]

/-- The first attribute that is not in order ends the list. -/
theorem attributes_of_not_ok (h : ¬ Ok m pos rem) : attributes m pos rem = [] := by
  rw [attributes, if_neg h]

/-- libnl's loop ends and visits the attributes that are in order. -/
theorem eval_nlaForEachAttr (hL : L.Documented) (hfuel : rem.toNat < fuel) :
    (nlaForEachAttr L fuel pos rem).eval m = .ok (attributes m pos rem) := by
  induction fuel generalizing pos rem with
  | zero => omega
  | succ fuel ih =>
    rw [nlaForEachAttr, eval_bind_of_ok (hL.eval_nlaOk m pos rem)]
    by_cases hok : Ok m pos rem
    · have hle : rest m pos rem + 4 ≤ rem := rest_le rem (by unfold Ok at hok; omega)
      have hfuel' : (rest m pos rem).toNat < fuel := by
        unfold Ok at hok
        omega
      rw [decide_eq_true hok, if_pos rfl, eval_bind_of_ok (hL.eval_nlaNext m pos rem),
        eval_bind_of_ok (ih hfuel'), eval_pure, attributes_of_ok hok]
    · rw [decide_eq_false hok, if_neg Bool.false_ne_true, eval_pure, attributes_of_not_ok hok]

/-- Functions that do what is assumed. -/
def Libnl.plain : Libnl where
  nlaData nla := nla + 4
  nlaLen nla := do
    let len ← u16At nla
    pure ((len : ℤ) - 4)
  nlaOk nla remaining :=
    if remaining < 4 then pure false
    else do
      let len ← u16At nla
      pure (decide (4 ≤ len ∧ (len : ℤ) ≤ remaining))
  nlaNext nla remaining := do
    let len ← u16At nla
    read (nla + align4 len) 0 fun _ => (nla + align4 len, remaining - align4 len)

/-- The assumptions can be met. -/
theorem Libnl.documented_plain : Libnl.plain.Documented where
  nlaData_eq _ := rfl
  eval_nlaLen _ _ := rfl
  safe_nlaLen h := safe_read_bind h _ (safe_pure _)
  eval_nlaOk m pos rem := by
    unfold plain
    dsimp only
    split
    · next hlt =>
      have hnot : ¬ Ok m pos rem := fun h => by
        unfold Ok at h
        omega
      rw [eval_pure, decide_eq_false hnot]
    · next hle =>
      rw [eval_bind_of_ok (eval_u16At pos), eval_pure]
      congr 2
      rw [Ok, and_iff_right (by omega : 4 ≤ rem)]
  safe_nlaOk h := by
    unfold plain
    dsimp only
    split
    · exact safe_pure _
    · exact safe_read_bind (by omega) _ (safe_pure _)
  eval_nlaNext _ _ _ := rfl
  safe_nlaNext_iff := by
    intro m bound pos rem
    change Safe m bound (u16At pos >>= fun len => read (pos + align4 len) 0 _) ↔ _
    rw [safe_bind_iff (eval_u16At pos)]
    exact and_congr safe_read_iff safe_read_iff

end Bytes.Nlattr
