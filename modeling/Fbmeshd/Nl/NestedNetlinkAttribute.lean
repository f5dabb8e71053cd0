import Fbmeshd.Lib.Nlattr

/-!
# Iteration over nested attributes

`NestedNetlinkAttribute` offers libnl's loop over nested attributes as a range. Its iterator tests
an attribute when it arrives there, and it does not arrive at the first one.
-/

namespace Fbmeshd.NestedNetlinkAttribute

open Bytes Bytes.Reader Bytes.Nlattr

/-- `NestedNetlinkAttribute::iterator`, whose position may be null. -/
structure Iterator where
  pos : Option ℕ
  rem : ℤ

section Range

variable (L : Libnl)

/-- `begin()`. -/
def begin (nla : ℕ) : Reader Iterator := do
  let rem ← L.nlaLen nla
  pure ⟨some (L.nlaData nla), rem⟩

/-- `operator++`, which follows the position also where it is null. -/
def Iterator.increment (it : Iterator) : Reader Iterator :=
  match it.pos with
  | none => abort .checkFailed
  | some pos => do
    let next ← L.nlaNext pos it.rem
    if ← L.nlaOk next.1 next.2 then pure ⟨some next.1, next.2⟩ else pure ⟨none, next.2⟩

/-- `for (; it != end(); ++it)`, with the attributes it visits. Iterators are compared by their
positions, and that of `end()` is null. -/
def forEach : ℕ → Iterator → Reader (List ℕ)
  | 0, _ => abort .outOfFuel
  | fuel + 1, it =>
    match it.pos with
    | none => pure []
    | some pos => do
      let it ← it.increment L
      let visited ← forEach fuel it
      pure (pos :: visited)

/-- `for (const auto& pos : NestedNetlinkAttribute{nla})`. -/
def iterate (fuel nla : ℕ) : Reader (List ℕ) := do
  let it ← begin L nla
  forEach L fuel it

end Range

variable {L : Libnl} {m : Memory} {fuel pos bound : ℕ} {rem : ℤ}

/-- The iterator at a position, or the end where `nla_ok` fails. -/
def arriveAt (m : Memory) (pos : ℕ) (rem : ℤ) : Iterator :=
  ⟨if Ok m pos rem then some pos else none, rem⟩

/-- An attribute whose successor is in order has a length, so less remains after it. -/
theorem rest_lt_of_ok_next (h : Ok m (next m pos) (rest m pos rem)) :
    (rest m pos rem).toNat < rem.toNat := by
  have hpos : 0 < u16 m pos := by
    by_contra hzero
    have hlen : u16 m pos = 0 := by omega
    have hstay : next m pos = pos := by simp [next, hlen, align4]
    rw [hstay, Ok] at h
    omega
  have hle := rest_le rem hpos
  unfold Ok at h
  omega

/-- The length of an attribute has 16 bits. -/
theorem payload_lt (m : Memory) (nla : ℕ) : (payload m nla).toNat + 1 < 2 ^ 16 := by
  have hlow := (m nla).toNat_lt
  have hhigh := (m (nla + 1)).toNat_lt
  simp only [payload, u16]
  omega

section Documented

variable (hL : L.Documented)
include hL

/-- The iterator moves to the next attribute and tests it. -/
theorem eval_increment (pos : ℕ) (rem : ℤ) :
    (Iterator.increment L ⟨some pos, rem⟩).eval m =
      .ok (arriveAt m (next m pos) (rest m pos rem)) := by
  rw [Iterator.increment, eval_bind_of_ok (hL.eval_nlaNext m pos rem),
    eval_bind_of_ok (hL.eval_nlaOk m (next m pos) (rest m pos rem)), arriveAt]
  by_cases hok : Ok m (next m pos) (rest m pos rem)
  · rw [decide_eq_true hok, if_pos rfl, if_pos hok, eval_pure]
  · rw [decide_eq_false hok, if_neg Bool.false_ne_true, if_neg hok, eval_pure]

/-- The iterator starts at the first attribute, which it does not test. -/
theorem eval_begin (nla : ℕ) :
    (begin L nla).eval m = .ok ⟨some (payloadStart nla), payload m nla⟩ := by
  rw [begin, eval_bind_of_ok (hL.eval_nlaLen m nla), hL.nlaData_eq, eval_pure]

/-- The loop visits the attribute it starts at in any case, and then those that are in order. -/
theorem eval_forEach (hfuel : rem.toNat + 1 < fuel) :
    (forEach L fuel ⟨some pos, rem⟩).eval m =
      .ok (pos :: attributes m (next m pos) (rest m pos rem)) := by
  induction fuel generalizing pos rem with
  | zero => omega
  | succ fuel ih =>
    rw [forEach, eval_bind_of_ok (eval_increment hL pos rem)]
    have hrest : (forEach L fuel (arriveAt m (next m pos) (rest m pos rem))).eval m =
        .ok (attributes m (next m pos) (rest m pos rem)) := by
      rw [arriveAt]
      by_cases hok : Ok m (next m pos) (rest m pos rem)
      · have hlt := rest_lt_of_ok_next hok
        rw [if_pos hok, attributes_of_ok hok]
        exact ih (by omega)
      · obtain ⟨fuel, rfl⟩ : ∃ n, fuel = n + 1 := ⟨fuel - 1, by omega⟩
        rw [if_neg hok, attributes_of_not_ok hok]
        rfl
    rw [eval_bind_of_ok hrest, eval_pure]

/-- A step of the iterator looks at the attribute where it is, and at the next one only if a header
remains. -/
theorem safe_increment_iff (hpos : pos + 2 ≤ bound)
    (hbound : (next m pos : ℤ) + rest m pos rem ≤ bound) :
    Safe m bound (Iterator.increment L ⟨some pos, rem⟩) ↔ next m pos ≤ bound := by
  rw [Iterator.increment, safe_bind_iff (hL.eval_nlaNext m pos rem), hL.safe_nlaNext_iff,
    and_iff_right hpos]
  refine and_iff_left ?_
  rw [safe_bind_iff (hL.eval_nlaOk m _ _)]
  refine ⟨hL.safe_nlaOk hbound, ?_⟩
  split <;> exact safe_pure _

/-- Where the first attribute is in order, the loop looks at no byte behind the payload, and all
that can leave the payload is the position behind an attribute without its padding. -/
theorem safe_forEach_iff (hok : Ok m pos rem) (hbound : (pos : ℤ) + rem = bound)
    (hfuel : rem.toNat + 1 < fuel) :
    Safe m bound (forEach L fuel ⟨some pos, rem⟩) ↔
      ∀ p ∈ attributes m pos rem, next m p ≤ bound := by
  induction fuel generalizing pos rem with
  | zero => omega
  | succ fuel ih =>
    have hheader : pos + 2 ≤ bound := by
      unfold Ok at hok
      omega
    have hstep : (next m pos : ℤ) + rest m pos rem = bound := by
      simp only [next, rest]
      omega
    rw [forEach, safe_bind_iff (eval_increment hL pos rem),
      safe_increment_iff hL hheader (Int.le_of_eq hstep), attributes_of_ok hok,
      List.forall_mem_cons]
    refine and_congr_right fun _ => ?_
    obtain ⟨fuel, rfl⟩ : ∃ n, fuel = n + 1 := ⟨fuel - 1, by omega⟩
    rw [arriveAt]
    by_cases hnext : Ok m (next m pos) (rest m pos rem)
    · have hlt := rest_lt_of_ok_next hnext
      have hrest : (rest m pos rem).toNat + 1 < fuel + 1 := by omega
      rw [if_pos hnext, safe_bind_iff (eval_forEach hL hrest), ih hnext hstep hrest]
      exact and_iff_left (safe_pure _)
    · rw [if_neg hnext, attributes_of_not_ok hnext]
      refine iff_of_true ?_ (by simp)
      exact (safe_pure []).bind fun _ _ => safe_pure _

/-- The range visits what stands first in any case. -/
theorem eval_iterate (hfuel : 2 ^ 16 ≤ fuel) (nla : ℕ) :
    (iterate L fuel nla).eval m = .ok (payloadStart nla ::
      attributes m (next m (payloadStart nla)) (rest m (payloadStart nla) (payload m nla))) := by
  rw [iterate, eval_bind_of_ok (eval_begin hL nla)]
  exact eval_forEach hL (Nat.lt_of_lt_of_le (payload_lt m nla) hfuel)

/-- libnl visits the attributes that are in order. -/
theorem eval_nlaForEachNested (hfuel : 2 ^ 16 ≤ fuel) (nla : ℕ) :
    (nlaForEachNested L fuel nla).eval m =
      .ok (attributes m (payloadStart nla) (payload m nla)) := by
  have hlt := payload_lt m nla
  rw [nlaForEachNested, eval_bind_of_ok (hL.eval_nlaLen m nla), hL.nlaData_eq]
  exact eval_nlaForEachAttr hL (by omega)

/-- The visits differ exactly where libnl would not visit the first attribute. -/
theorem eval_iterate_eq_iff (hfuel : 2 ^ 16 ≤ fuel) (nla : ℕ) :
    (iterate L fuel nla).eval m = (nlaForEachNested L fuel nla).eval m ↔
      Ok m (payloadStart nla) (payload m nla) := by
  rw [eval_iterate hL hfuel, eval_nlaForEachNested hL hfuel]
  constructor
  · intro heq
    by_contra hnot
    rw [attributes_of_not_ok hnot] at heq
    simp at heq
  · intro hok
    rw [attributes_of_ok hok]

/-- The range stays inside the payload if the padding belongs to it. -/
theorem safe_iterate_iff {nla : ℕ} (hok : Ok m (payloadStart nla) (payload m nla))
    (hfuel : 2 ^ 16 ≤ fuel) :
    Safe m (payloadEnd m nla) (iterate L fuel nla) ↔
      ∀ p ∈ attributes m (payloadStart nla) (payload m nla), next m p ≤ payloadEnd m nla := by
  have hbound : ((payloadStart nla : ℕ) : ℤ) + payload m nla = payloadEnd m nla := by
    unfold Ok at hok
    simp only [payloadEnd]
    omega
  have hbegin : Safe m (payloadEnd m nla) (begin L nla) := by
    refine (hL.safe_nlaLen ?_).bind fun _ _ => safe_pure _
    simp only [payloadEnd, payloadStart]
    omega
  rw [iterate, safe_bind_iff (eval_begin hL nla), and_iff_right hbegin]
  exact safe_forEach_iff hL hok hbound (Nat.lt_of_lt_of_le (payload_lt m nla) hfuel)

end Documented

/-- The range ends for every attribute and memory. It visits what libnl's loop visits, and looks
and moves only inside the payload, exactly if the first nested attribute is in order and the
padding of every nested attribute belongs to the payload. -/
theorem nested_iteration_iff (hL : L.Documented) (m : Memory) (nla : ℕ) {fuel : ℕ}
    (hfuel : 2 ^ 16 ≤ fuel) :
    (∃ visited, (iterate L fuel nla).eval m = .ok visited) ∧
    (nlaForEachNested L fuel nla).eval m =
      .ok (attributes m (payloadStart nla) (payload m nla)) ∧
    ((iterate L fuel nla).eval m = (nlaForEachNested L fuel nla).eval m ∧
        Safe m (payloadEnd m nla) (iterate L fuel nla) ↔
      Ok m (payloadStart nla) (payload m nla) ∧
        ∀ p ∈ attributes m (payloadStart nla) (payload m nla), next m p ≤ payloadEnd m nla) := by
  refine ⟨⟨_, eval_iterate hL hfuel nla⟩, eval_nlaForEachNested hL hfuel nla, ?_⟩
  rw [eval_iterate_eq_iff hL hfuel]
  exact and_congr_right fun hok => safe_iterate_iff hL hok hfuel

/-- An attribute that holds two others. -/
def twoNested : Memory := ofBytes [20, 0, 1, 0, 8, 0, 1, 0, 9, 9, 9, 9, 6, 0, 2, 0, 7, 7, 0, 0]

/-- The two attributes are in order. -/
theorem attributes_twoNested : attributes twoNested 4 16 = [4, 12] := by
  rw [attributes_of_ok (by decide), attributes_of_ok (by decide), attributes_of_not_ok (by decide)]
  decide

/-- Both attributes are visited, inside the payload. -/
theorem twoNested_visited :
    (iterate .plain (2 ^ 16) 0).eval twoNested = .ok [4, 12] ∧
      Safe twoNested 20 (iterate .plain (2 ^ 16) 0) := by
  have hattrs : attributes twoNested (payloadStart 0) (payload twoNested 0) = [4, 12] :=
    attributes_twoNested
  obtain ⟨-, hlibnl, hiff⟩ := nested_iteration_iff Libnl.documented_plain twoNested 0 le_rfl
  have hinside : ∀ p ∈ [4, 12], next twoNested p ≤ payloadEnd twoNested 0 := by decide
  obtain ⟨heq, hsafe⟩ := hiff.mpr ⟨by decide, hattrs.symm ▸ hinside⟩
  exact ⟨heq.trans (hattrs ▸ hlibnl), hsafe⟩

/-- An attribute without a payload, in front of another one. -/
def emptyNested : Memory := ofBytes [4, 0, 1, 0, 8, 0, 2, 0, 9, 9, 9, 9]

/-- The range looks at the length of the attribute it starts at. -/
theorem le_of_safe_forEach (hL : L.Documented)
    (h : Safe m bound (forEach L (fuel + 1) ⟨some pos, rem⟩)) : pos + 2 ≤ bound := by
  rw [forEach, safe_bind_iff (eval_increment hL pos rem), Iterator.increment,
    safe_bind_iff (hL.eval_nlaNext m pos rem), hL.safe_nlaNext_iff] at h
  exact h.1.1.1

/-- libnl visits nothing in an empty payload, and the range visits what follows it. -/
theorem emptyNested_visited :
    (nlaForEachNested .plain (2 ^ 16) 0).eval emptyNested = .ok [] ∧
      (iterate .plain (2 ^ 16) 0).eval emptyNested = .ok [4] ∧ payloadEnd emptyNested 0 = 4 ∧
      ¬ Safe emptyNested (payloadEnd emptyNested 0) (iterate .plain (2 ^ 16) 0) := by
  have hL := Libnl.documented_plain
  refine ⟨?_, ?_, rfl, ?_⟩
  · rw [eval_nlaForEachNested hL le_rfl, attributes_of_not_ok (by decide)]
  · rw [eval_iterate hL le_rfl, attributes_of_not_ok (by decide)]
    rfl
  · intro hsafe
    rw [iterate, safe_bind_iff (eval_begin hL 0)] at hsafe
    have hle : payloadStart 0 + 2 ≤ payloadEnd emptyNested 0 := le_of_safe_forEach hL hsafe.2
    exact absurd hle (by decide)

end Fbmeshd.NestedNetlinkAttribute
