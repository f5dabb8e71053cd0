import Fbmeshd.Lib.Reader
import Mathlib.Data.List.Forall2

/-!
# Lists of attributes

Linux stores a list of attributes one after another, each with a 16-bit length that includes its
header of four bytes, a 16-bit type, the value, and padding to a multiple of four. A list is
walked with a count of the bytes that remain, an unsigned number that wraps around when more is
taken from it than there is.
-/

namespace Bytes

/-- `RTA_ALIGN` and `NLMSG_ALIGN`. -/
def align4 (n : ℕ) : ℕ := (n + 3) / 4 * 4

/-- Subtraction of `size_t`. -/
def sub64 (a b : ℕ) : ℕ := (a + (2 ^ 64 - b % 2 ^ 64)) % 2 ^ 64

/-- Subtraction of `uint32_t`. -/
def sub32 (a b : ℕ) : ℕ := (a + (2 ^ 32 - b % 2 ^ 32)) % 2 ^ 32

/-- Padding only adds. -/
theorem le_align4 (n : ℕ) : n ≤ align4 n := by
  simp only [align4]
  omega

/-- A multiple of four needs none. -/
theorem align4_of_dvd {n : ℕ} (h : 4 ∣ n) : align4 n = n := by
  simp only [align4]
  omega

/-- A difference of 64-bit numbers that does not wrap. -/
theorem sub64_of_le {a b : ℕ} (hle : b ≤ a) (ha : a < 2 ^ 64) : sub64 a b = a - b := by
  simp only [sub64]
  omega

/-- A difference of 32-bit numbers that does not wrap. -/
theorem sub32_of_le {a b : ℕ} (hle : b ≤ a) (ha : a < 2 ^ 32) : sub32 a b = a - b := by
  simp only [sub32]
  omega

/-- An attribute in memory: where it stands, its length with the header, and its type. -/
structure Rtattr where
  offset : ℕ
  len : ℕ
  type : ℕ
  deriving DecidableEq

namespace Rtattr

/-- `RTA_DATA`. -/
def data (a : Rtattr) : ℕ := a.offset + 4

/-- The end of the attribute by its own length. -/
def stop (a : Rtattr) : ℕ := a.offset + a.len

/-- The attribute at an offset. -/
def load (m : Memory) (o : ℕ) : Rtattr := ⟨o, u16 m o, u16 m (o + 2)⟩

open Reader

variable {σ : Type}

/-- `for (rta = o; RTA_OK(rta, len); rta = RTA_NEXT(rta, len)) visit(rta)`, with `len` of type
`size_t`. -/
def walk (visit : Rtattr → σ → Reader σ) : ℕ → ℕ → ℕ → σ → Reader σ
  | 0, _, _, _ => abort .outOfFuel
  | fuel + 1, o, len, st =>
    if len < 4 then pure st
    else do
      let rtaLen ← u16At o
      if rtaLen < 4 ∨ len < rtaLen then pure st
      else do
        let type ← u16At (o + 2)
        let st ← within (o + rtaLen) (visit ⟨o, rtaLen, type⟩ st)
        walk visit fuel (o + align4 rtaLen) (sub64 len (align4 rtaLen)) st

variable {visit : Rtattr → σ → Reader σ} {m : Memory} {fuel o len : ℕ} {st : σ}

/-- Where `RTA_OK` fails. -/
def AtEnd (m : Memory) (o len : ℕ) : Prop := len < 4 ∨ u16 m o < 4 ∨ len < u16 m o

instance (m : Memory) (o len : ℕ) : Decidable (AtEnd m o len) :=
  inferInstanceAs (Decidable (_ ∨ _))

private theorem eval_walk_of_atEnd (h : AtEnd m o len) :
    (walk visit (fuel + 1) o len st).eval m = .ok st := by
  rw [walk]
  split
  · rfl
  next hlen =>
    have hend : u16 m o < 4 ∨ len < u16 m o := h.resolve_left hlen
    rw [eval_bind_of_ok (eval_u16At o), if_pos hend, eval_pure]

private theorem eval_walk_step (h : ¬ AtEnd m o len) :
    (walk visit (fuel + 1) o len st).eval m =
      ((visit (.load m o) st).eval m).bind fun st =>
        (walk visit fuel (o + align4 (u16 m o)) (sub64 len (align4 (u16 m o))) st).eval m := by
  obtain ⟨hlen, hend⟩ := not_or.mp h
  rw [walk, if_neg hlen, eval_bind_of_ok (eval_u16At o), if_neg hend,
    eval_bind_of_ok (eval_u16At (o + 2)), eval_bind, eval_within]
  rfl

/-- The attributes that a walk visits. -/
inductive Listed (m : Memory) : ℕ → ℕ → List Rtattr → Prop
  | nil {o len : ℕ} (h : AtEnd m o len) : Listed m o len []
  | cons {o len : ℕ} {attrs : List Rtattr} (h : ¬ AtEnd m o len)
      (hrest : Listed m (o + align4 (u16 m o)) (sub64 len (align4 (u16 m o))) attrs) :
      Listed m o len (load m o :: attrs)

variable {attrs : List Rtattr}

/-- A memory lists one sequence of attributes. -/
theorem Listed.unique {attrs' : List Rtattr} (h : Listed m o len attrs)
    (h' : Listed m o len attrs') : attrs = attrs' := by
  induction h generalizing attrs' with
  | nil hend =>
    cases h' with
    | nil => rfl
    | cons hnot => exact absurd hend hnot
  | cons hnot _ ih =>
    cases h' with
    | nil hend => exact absurd hend hnot
    | cons _ hrest => rw [ih hrest]

/-- In a memory with an end, the walks from an offset with large counts all visit the same
attributes. -/
theorem exists_listed (hzero : ∀ i ≥ 2 ^ 62, m i = 0) (o : ℕ) :
    ∃ attrs, ∀ len, 2 ^ 63 ≤ o + len → len < 2 ^ 64 → Listed m o len attrs := by
  induction hleft : 2 ^ 62 - o using Nat.strong_induction_on generalizing o with
  | _ left ih =>
    have hle := le_align4 (u16 m o)
    have hlt := u16_lt m o
    by_cases hend : u16 m o < 4
    · exact ⟨[], fun len _ _ => .nil (.inr (.inl hend))⟩
    have hinside : o < 2 ^ 62 := by
      by_contra ho
      exact hend (by simp [u16, hzero o (by omega), hzero (o + 1) (by omega)])
    obtain ⟨attrs, hattrs⟩ := ih _ (by omega) (o + align4 (u16 m o)) rfl
    refine ⟨load m o :: attrs, fun len hlen hlen' => .cons ?_ ?_⟩
    · rw [AtEnd]
      omega
    · have halign : align4 (u16 m o) ≤ 2 ^ 16 := by
        simp only [align4]
        omega
      rw [sub64_of_le (by omega) hlen']
      exact hattrs _ (by omega) (by omega)

/-- A walk is a fold over the attributes it visits. -/
theorem Listed.eval_walk (h : Listed m o len attrs) (hfuel : attrs.length < fuel) :
    (walk visit fuel o len st).eval m =
      attrs.foldlM (fun st a => (visit a st).eval m) st := by
  induction h generalizing fuel st with
  | nil hend =>
    obtain ⟨fuel, rfl⟩ := Nat.exists_eq_succ_of_ne_zero (Nat.ne_zero_of_lt hfuel)
    exact eval_walk_of_atEnd hend
  | cons hnot _ ih =>
    obtain ⟨fuel, rfl⟩ := Nat.exists_eq_succ_of_ne_zero (Nat.ne_zero_of_lt hfuel)
    rw [eval_walk_step hnot, List.foldlM_cons]
    exact congrArg _ (funext fun st' => ih (Nat.lt_of_succ_lt_succ hfuel))

/-- A walk that returns has visited all attributes. -/
theorem listed_of_eval_walk {st' : σ} (h : (walk visit fuel o len st).eval m = .ok st') :
    ∃ attrs, Listed m o len attrs ∧
      attrs.foldlM (fun st a => (visit a st).eval m) st = .ok st' := by
  induction fuel generalizing o len st with
  | zero => nomatch h
  | succ fuel ih =>
    by_cases hend : AtEnd m o len
    · exact ⟨[], .nil hend, (eval_walk_of_atEnd hend).symm.trans h⟩
    rw [eval_walk_step hend] at h
    cases hvisit : (visit (load m o) st).eval m with
    | error e => simp [hvisit, Except.bind] at h
    | ok st₁ =>
      rw [hvisit] at h
      obtain ⟨attrs, hlisted, hfold⟩ := ih h
      refine ⟨load m o :: attrs, .cons hend hlisted, ?_⟩
      rw [List.foldlM_cons, hvisit]
      exact hfold

/-- The bytes of an attribute with its padding. -/
def encode (type : ℕ) (value : List UInt8) : List UInt8 :=
  le16 (4 + value.length) ++ (le16 type ++
    (value ++ List.replicate (align4 value.length - value.length) 0))

/-- The size of an attribute with its padding. -/
@[simp] theorem length_encode (type : ℕ) (value : List UInt8) :
    (encode type value).length = align4 (4 + value.length) := by
  simp only [encode, List.length_append, length_le16, List.length_replicate, align4]
  omega

/-- The bytes of a list of attributes, given by their types and values. -/
def encodeAll (attrs : List (ℕ × List UInt8)) : List UInt8 := attrs.flatMap fun a => encode a.1 a.2

/-- No attributes. -/
@[simp] theorem encodeAll_nil : encodeAll [] = [] := rfl

/-- The first attribute and the rest. -/
@[simp] theorem encodeAll_cons (a : ℕ × List UInt8) (attrs : List (ℕ × List UInt8)) :
    encodeAll (a :: attrs) = encode a.1 a.2 ++ encodeAll attrs := List.flatMap_cons

/-- Attributes in two parts. -/
theorem encodeAll_append (as bs : List (ℕ × List UInt8)) :
    encodeAll (as ++ bs) = encodeAll as ++ encodeAll bs := List.flatMap_append

/-- The last attribute. -/
theorem encodeAll_append_singleton (attrs : List (ℕ × List UInt8)) (type : ℕ)
    (value : List UInt8) :
    encodeAll (attrs ++ [(type, value)]) = encodeAll attrs ++ encode type value := by
  rw [encodeAll_append, encodeAll_cons, encodeAll_nil, List.append_nil]

/-- Attributes end at a multiple of four. -/
theorem dvd_length_encodeAll (attrs : List (ℕ × List UInt8)) : 4 ∣ (encodeAll attrs).length := by
  induction attrs with
  | nil => exact Nat.dvd_zero 4
  | cons a attrs ih =>
    rw [encodeAll_cons, List.length_append, length_encode]
    exact Nat.dvd_add (Nat.dvd_mul_left 4 _) ih

/-- Every attribute has at least its header. -/
theorem length_le_length_encodeAll (attrs : List (ℕ × List UInt8)) :
    attrs.length ≤ (encodeAll attrs).length := by
  induction attrs with
  | nil => exact Nat.zero_le _
  | cons a attrs ih =>
    have hle := le_align4 (4 + a.2.length)
    rw [encodeAll_cons, List.length_append, length_encode, List.length_cons]
    omega

/-- The length of a list of attributes without the padding of the last one. -/
def listLength : List (ℕ × List UInt8) → ℕ
  | [] => 0
  | [a] => 4 + a.2.length
  | a :: b :: attrs => align4 (4 + a.2.length) + listLength (b :: attrs)

/-- The length in the header differs from the size by padding only. -/
theorem align4_listLength (attrs : List (ℕ × List UInt8)) :
    align4 (listLength attrs) = (encodeAll attrs).length := by
  induction attrs using listLength.induct with
  | case1 => rfl
  | case2 a => simp [listLength]
  | case3 a b attrs ih =>
    rw [listLength, encodeAll_cons, List.length_append, length_encode, ← ih]
    simp only [align4]
    omega

/-- The attributes of a list that stands at an offset. -/
def place : ℕ → List (ℕ × List UInt8) → List Rtattr
  | _, [] => []
  | o, a :: attrs => ⟨o, 4 + a.2.length, a.1⟩ :: place (o + align4 (4 + a.2.length)) attrs

/-- Every attribute has a place. -/
@[simp] theorem length_place (o : ℕ) (as : List (ℕ × List UInt8)) :
    (place o as).length = as.length := by
  induction as generalizing o with
  | nil => rfl
  | cons a as ih => rw [place, List.length_cons, ih, List.length_cons]

/-- The places of attributes in two parts. -/
theorem place_append (o : ℕ) (as bs : List (ℕ × List UInt8)) :
    place o (as ++ bs) = place o as ++ place (o + (encodeAll as).length) bs := by
  induction as generalizing o with
  | nil => rfl
  | cons a as ih =>
    rw [List.cons_append, place, ih, place, List.cons_append, encodeAll_cons, List.length_append,
      length_encode, Nat.add_assoc]

/-- The types and sizes of the attributes fit into their fields. -/
def Fits (attrs : List (ℕ × List UInt8)) : Prop :=
  ∀ a ∈ attrs, a.1 < 2 ^ 16 ∧ 4 + a.2.length < 2 ^ 16

/-- Types and lengths of 16 bits fit into the headers. -/
theorem fits_of_length {attrs : List (ℕ × List UInt8)} (htypes : ∀ a ∈ attrs, a.1 < 2 ^ 16)
    (hlen : (encodeAll attrs).length < 2 ^ 16) : Fits attrs := by
  intro a ha
  obtain ⟨as, bs, rfl⟩ := List.append_of_mem ha
  have hle := le_align4 (4 + a.2.length)
  rw [encodeAll_append, encodeAll_cons, List.length_append, List.length_append,
    length_encode] at hlen
  exact ⟨htypes a ha, by omega⟩

/-- The header of an encoded attribute is read back. -/
theorem load_of_holds {type : ℕ} {value : List UInt8} (h : Holds m o (encode type value))
    (htype : type < 2 ^ 16) (hlen : 4 + value.length < 2 ^ 16) :
    load m o = ⟨o, 4 + value.length, type⟩ ∧ Holds m (o + 4) value := by
  obtain ⟨hlen', h⟩ := holds_append.mp h
  obtain ⟨htype', h⟩ := holds_append.mp h
  obtain ⟨hvalue, -⟩ := holds_append.mp h
  simp only [length_le16, Nat.add_assoc, Nat.reduceAdd] at htype' hvalue
  exact ⟨by rw [load, hlen'.u16 hlen, htype'.u16 htype], hvalue⟩

/-! ### Attributes as they are stored -/

/-- The attributes stand one after another, whatever their padding holds. -/
def Stored (m : Memory) : ℕ → List (ℕ × List UInt8) → Prop
  | _, [] => True
  | o, a :: attrs => Holds m o (le16 (4 + a.2.length) ++ le16 a.1 ++ a.2) ∧
      Stored m (o + align4 (4 + a.2.length)) attrs

/-- Attributes in two parts of the memory. -/
theorem stored_append {as bs : List (ℕ × List UInt8)} :
    Stored m o (as ++ bs) ↔ Stored m o as ∧ Stored m (o + (encodeAll as).length) bs := by
  induction as generalizing o with
  | nil => simp [Stored]
  | cons a as ih =>
    rw [List.cons_append, Stored, Stored, ih, encodeAll_cons, List.length_append, length_encode,
      Nat.add_assoc, and_assoc]

/-- Bytes elsewhere do not matter. -/
theorem Stored.congr {m' : Memory} {values : List (ℕ × List UInt8)} (h : Stored m o values)
    (heq : ∀ i, o ≤ i → i < o + (encodeAll values).length → m' i = m i) :
    Stored m' o values := by
  induction values generalizing o with
  | nil => trivial
  | cons v values ih =>
    rw [encodeAll_cons, List.length_append, length_encode] at heq
    have hle := le_align4 (4 + v.2.length)
    refine ⟨h.1.congr fun i hi hlt => heq i hi ?_, ih h.2 fun i hi hlt => heq i ?_ ?_⟩
    · simp only [List.length_append, length_le16] at hlt
      omega
    · omega
    · omega

/-- Encoded attributes are stored. -/
theorem stored_of_holds {values : List (ℕ × List UInt8)} (h : Holds m o (encodeAll values)) :
    Stored m o values := by
  induction values generalizing o with
  | nil => trivial
  | cons v values ih =>
    rw [encodeAll_cons, holds_append, length_encode, encode, ← List.append_assoc,
      ← List.append_assoc] at h
    exact ⟨(holds_append.mp h.1).1, ih h.2⟩

section Stored

variable {values : List (ℕ × List UInt8)} {effects : List (σ → σ)}

private theorem Stored.load {v : ℕ × List UInt8} (h : Stored m o (v :: values))
    (hfits : Fits (v :: values)) :
    load m o = ⟨o, 4 + v.2.length, v.1⟩ ∧ Holds m (o + 4) v.2 := by
  obtain ⟨htype, hlen⟩ := hfits v List.mem_cons_self
  obtain ⟨hheader, hvalue⟩ := holds_append.mp h.1
  obtain ⟨hlen', htype'⟩ := holds_append.mp hheader
  have hu16 : u16 m (o + 2) = v.1 := htype'.u16 htype
  exact ⟨by rw [Rtattr.load, hlen'.u16 hlen, hu16], hvalue⟩

/-- A walk over a stored list visits its attributes. If the count leaves out the padding of the
last one, it wraps around and the walk goes on. -/
theorem Stored.listed_append {rest : List Rtattr} (h : Stored m o values) (hfits : Fits values)
    (hlen : listLength values ≤ len) (hsize : len < 2 ^ 64)
    (hrest : Listed m (o + (encodeAll values).length) (sub64 len (encodeAll values).length) rest) :
    Listed m o len (place o values ++ rest) := by
  induction values using listLength.induct generalizing o len with
  | case1 =>
    have hsub : sub64 len 0 = len := sub64_of_le (Nat.zero_le _) hsize
    simpa [place, hsub] using hrest
  | case2 a =>
    rw [encodeAll_cons, encodeAll_nil, List.append_nil] at hrest
    obtain ⟨hload, -⟩ := h.load hfits
    have hu16 : u16 m o = 4 + a.2.length := congrArg Rtattr.len hload
    rw [listLength] at hlen
    rw [place, place, ← hload, List.cons_append]
    refine .cons ?_ ?_
    · rw [AtEnd, hu16]
      omega
    · rwa [hu16, List.nil_append, ← length_encode a.1]
  | case3 a b attrs ih =>
    rw [encodeAll_cons, List.length_append, length_encode] at hrest
    obtain ⟨hload, -⟩ := h.load hfits
    have hu16 : u16 m o = 4 + a.2.length := congrArg Rtattr.len hload
    rw [listLength] at hlen
    have hle := le_align4 (4 + a.2.length)
    rw [place, ← hload, List.cons_append]
    refine .cons ?_ ?_
    · rw [AtEnd, hu16]
      omega
    · rw [hu16, sub64_of_le (by omega) hsize]
      refine ih h.2 (fun x hx => hfits x (List.mem_cons_of_mem _ hx)) (by omega) (by omega) ?_
      rw [Nat.add_assoc]
      convert hrest using 1
      simp only [sub64]
      omega

/-- If the count is right, the walk visits the attributes and ends. -/
theorem Stored.listed (h : Stored m o values) (hfits : Fits values)
    (hsize : (encodeAll values).length < 2 ^ 64) :
    Listed m o (encodeAll values).length (place o values) := by
  have hle := le_align4 (listLength values)
  rw [align4_listLength] at hle
  rw [← List.append_nil (place o values)]
  refine h.listed_append hfits hle hsize ?_
  rw [sub64_of_le le_rfl hsize, Nat.sub_self]
  exact .nil (.inl (by decide))

/-- A visit of an attribute with this type and value has this effect. -/
def Parses (visit : Rtattr → σ → Reader σ) (m : Memory) (value : ℕ × List UInt8)
    (effect : σ → σ) : Prop :=
  ∀ a st, a.type = value.1 → a.len = 4 + value.2.length → Holds m a.data value.2 →
    (visit a st).eval m = .ok (effect st)

/-- The visits of a stored list have the effects of its values, one after another. -/
theorem Stored.foldlM_place (h : Stored m o values) (hfits : Fits values)
    (hparse : List.Forall₂ (Parses visit m) values effects) :
    (place o values).foldlM (fun st a => (visit a st).eval m) st =
      .ok (effects.foldl (fun st effect => effect st) st) := by
  induction hparse generalizing o st with
  | nil => rfl
  | @cons v effect values effects hv _ ih =>
    have hvisit : (visit ⟨o, 4 + v.2.length, v.1⟩ st).eval m = .ok (effect st) :=
      hv _ st rfl rfl (h.load hfits).2
    rw [place, List.foldlM_cons, hvisit, List.foldl_cons]
    exact ih h.2 fun x hx => hfits x (List.mem_cons_of_mem _ hx)

/-- A walk over stored attributes has the effects of their values, one after another. -/
theorem Stored.eval_walk_effects (h : Stored m o values) (hfits : Fits values)
    (hsize : (encodeAll values).length < 2 ^ 64) (hfuel : values.length < fuel)
    (hparse : List.Forall₂ (Parses visit m) values effects) (st : σ) :
    (walk visit fuel o (encodeAll values).length st).eval m =
      .ok (effects.foldl (fun st effect => effect st) st) := by
  rw [(h.listed hfits hsize).eval_walk (by rwa [length_place]), h.foldlM_place hfits hparse]

end Stored

/-- Attributes that are ignored leave the result as it is. -/
theorem foldlM_of_ignored (h : ∀ a ∈ attrs, ∀ st, (visit a st).eval m = .ok st) :
    attrs.foldlM (fun st a => (visit a st).eval m) st = .ok st := by
  induction attrs with
  | nil => rfl
  | cons a attrs ih =>
    obtain ⟨ha, hattrs⟩ := List.forall_mem_cons.mp h
    rw [List.foldlM_cons, ha st]
    exact ih hattrs

/-- Collect the types and values of the attributes. -/
def collect (a : Rtattr) (st : List (ℕ × List UInt8)) : Reader (List (ℕ × List UInt8)) :=
  read a.data (a.len - 4) fun m => st ++ [(a.type, slice m a.data (a.len - 4))]

private theorem parses_collect (v : ℕ × List UInt8) : Parses collect m v (· ++ [v]) := by
  intro a st htype hlen hvalue
  rw [collect, eval_read, htype, hlen, Nat.add_sub_cancel_left, hvalue.slice]

/-- A walk finds the attributes that are stored. -/
theorem Stored.eval_walk {values st : List (ℕ × List UInt8)} (h : Stored m o values)
    (hfits : Fits values) (hsize : (encodeAll values).length < 2 ^ 64)
    (hfuel : values.length < fuel) :
    (walk collect fuel o (encodeAll values).length st).eval m = .ok (st ++ values) := by
  have hparse : List.Forall₂ (Parses collect m) values (values.map fun v => (· ++ [v])) :=
    List.forall₂_map_right_iff.mpr (List.forall₂_same.mpr fun v _ => parses_collect v)
  rw [h.eval_walk_effects hfits hsize hfuel hparse, List.foldl_map, List.foldl_append_eq_append,
    ← List.flatMap_def, List.flatMap_singleton']

/-! ### Attributes that a message contains -/

/-- The attribute has this type and value. -/
def IsAt (m : Memory) (a : Rtattr) (value : ℕ × List UInt8) : Prop :=
  a.type = value.1 ∧ a.len = 4 + value.2.length ∧ Holds m a.data value.2

/-- At a place there is one attribute. -/
theorem IsAt.unique {a : Rtattr} {v w : ℕ × List UInt8} (h : IsAt m a v) (h' : IsAt m a w) :
    v = w := by
  obtain ⟨htype, hlen, hvalue⟩ := h
  obtain ⟨htype', hlen', hvalue'⟩ := h'
  have hlength : v.2.length = w.2.length := by omega
  exact Prod.ext (htype.symm.trans htype') (by rw [← hvalue.slice, hlength, hvalue'.slice])

private theorem exists_isAt_place_iff {value : ℕ × List UInt8} {values : List (ℕ × List UInt8)}
    (h : Stored m o values) (hfits : Fits values) :
    (∃ a ∈ place o values, IsAt m a value) ↔ value ∈ values := by
  induction values generalizing o with
  | nil => simp [place]
  | cons v values ih =>
    have hv : IsAt m ⟨o, 4 + v.2.length, v.1⟩ v := ⟨rfl, rfl, (h.load hfits).2⟩
    have hhead : IsAt m ⟨o, 4 + v.2.length, v.1⟩ value ↔ value = v :=
      ⟨fun hvalue => hvalue.unique hv, fun heq => heq ▸ hv⟩
    simp only [place, List.mem_cons, exists_eq_or_imp, hhead,
      ih h.2 (List.forall_mem_cons.mp hfits).2]

private theorem exists_type_of_mem_place {a : Rtattr} {values : List (ℕ × List UInt8)}
    (h : a ∈ place o values) : ∃ v ∈ values, v.1 = a.type := by
  induction values generalizing o with
  | nil => cases h
  | cons v values ih =>
    rcases List.mem_cons.mp h with rfl | h
    · exact ⟨v, List.mem_cons_self, rfl⟩
    · obtain ⟨w, hw, htype⟩ := ih h
      exact ⟨w, List.mem_cons_of_mem _ hw, htype⟩

/-- A walk over `len` bytes visits an attribute with this type and value. -/
def Has (m : Memory) (o len : ℕ) (value : ℕ × List UInt8) : Prop :=
  ∃ attrs, Listed m o len attrs ∧ ∃ a ∈ attrs, IsAt m a value

/-- A walk over `len` bytes visits an attribute of this type that itself has the attribute. -/
def HasNested (m : Memory) (o len type : ℕ) (value : ℕ × List UInt8) : Prop :=
  ∃ attrs, Listed m o len attrs ∧ ∃ a ∈ attrs, a.type = type ∧ Has m a.data (a.len - 4) value

section Contents

variable {values : List (ℕ × List UInt8)} {value : ℕ × List UInt8}
  (h : Holds m o (encodeAll values)) (hfits : Fits values)
  (hsize : (encodeAll values).length < 2 ^ 64)

include h hfits hsize

/-- The memory has the attributes that were encoded and no others. -/
theorem has_encodeAll_iff : Has m o (encodeAll values).length value ↔ value ∈ values := by
  have hlisted := (stored_of_holds h).listed hfits hsize
  rw [← exists_isAt_place_iff (stored_of_holds h) hfits]
  constructor
  · rintro ⟨attrs, hattrs, hvalue⟩
    rwa [hattrs.unique hlisted] at hvalue
  · exact fun hvalue => ⟨_, hlisted, hvalue⟩

/-- It has none of a type that was not encoded. -/
theorem not_hasNested_encodeAll {type : ℕ} (htype : ∀ v ∈ values, v.1 ≠ type) :
    ¬ HasNested m o (encodeAll values).length type value := by
  rintro ⟨attrs, hattrs, a, ha, rfl, -⟩
  rw [hattrs.unique ((stored_of_holds h).listed hfits hsize)] at ha
  obtain ⟨v, hv, heq⟩ := exists_type_of_mem_place ha
  exact htype v hv heq

end Contents

/-- A walk looks only at bytes below the bound, and each attribute that it visits satisfies `P`.
The count of the bytes that remain may wrap around. -/
inductive Inside (m : Memory) (bound : ℕ) (P : Rtattr → Prop) : ℕ → ℕ → Prop
  | short {o len : ℕ} (h : len < 4) : Inside m bound P o len
  | ended {o len : ℕ} (hread : o + 2 ≤ bound) (h : AtEnd m o len) : Inside m bound P o len
  | cons {o len : ℕ} (h : ¬ AtEnd m o len) (hread : o + 4 ≤ bound) (hP : P (.load m o))
      (hrest : Inside m bound P (o + align4 (u16 m o)) (sub64 len (align4 (u16 m o)))) :
      Inside m bound P o len

variable {P : Rtattr → Prop} {bound : ℕ}

/-- A walk is safe exactly if it stays inside the bound and `P` says which visits are safe. A fuel
of one for each header is enough. -/
theorem safe_walk_iff (hfuel : bound < o + 4 * fuel) (hpos : 0 < fuel)
    (hvisit : ∀ a st, Safe m (min bound a.stop) (visit a st) ↔ P a) :
    Safe m bound (walk visit fuel o len st) ↔ Inside m bound P o len := by
  induction fuel generalizing o len st with
  | zero => omega
  | succ fuel ih =>
    rw [walk]
    split
    next hlen => exact iff_of_true (safe_pure st) (.short hlen)
    next hlen =>
    rw [u16At, safe_read_bind_iff]
    split
    next hend =>
      refine ⟨fun h => .ended h.1 (.inr hend), fun h => ⟨?_, safe_pure st⟩⟩
      cases h with
      | short h => exact absurd h hlen
      | ended hread => exact hread
      | cons h => exact absurd (.inr hend) h
    next hend =>
    have hnot : ¬ AtEnd m o len := not_or.mpr ⟨hlen, hend⟩
    have hle := le_align4 (u16 m o)
    have hload : (⟨o, u16 m o, u16 m (o + 2)⟩ : Rtattr) = load m o := rfl
    have hstop : o + u16 m o = (load m o).stop := rfl
    rw [u16At, safe_read_bind_iff, hload, hstop]
    by_cases hread : o + 4 ≤ bound
    · rw [safe_bind_iff_and fun st => ih (by omega) (by omega), safe_within_iff, hvisit]
      constructor
      · rintro ⟨-, -, hP, hrest⟩
        exact .cons hnot hread hP hrest
      · intro h
        cases h with
        | short h => exact absurd h hlen
        | ended _ h => exact absurd h hnot
        | cons _ _ hP hrest => exact ⟨by omega, hread, hP, hrest⟩
    · refine iff_of_false (fun h => hread h.2.1) fun h => ?_
      cases h with
      | short h => exact hlen h
      | ended _ h => exact hnot h
      | cons _ h => exact hread h

end Rtattr

end Bytes
