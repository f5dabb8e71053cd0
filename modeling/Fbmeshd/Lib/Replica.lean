import Mathlib.Data.List.Induction

/-!
# Replicas

A world has items under keys. A change is announced by a message, and the messages are handled
in order by a replica. Now and then a snapshot of the world is handled between two messages, before
messages that are older than the snapshot. Each item belongs to a base, such as the entry of its
container, and the replica loses what it is told about items of a base it does not know. Before
anything is covered, a change may also go by without an announcement. Its keys are then stale until
they are announced.

What no message on its way is about, and is not stale, is as the world has it, or missing from the
replica. It is not missing once a snapshot has covered it.
-/

/-- How a replica handles messages. -/
structure Replica (ρ μ κ β : Type*) where
  /-- What a message says about a key: nothing, or the item that is there now, if any. -/
  writes : μ → κ → Option (Option β)
  base : κ → κ
  handle : ρ → μ → ρ
  view : ρ → κ → Option β
  Good : ρ → Prop
  Proper : μ → Prop
  base_base : ∀ k, base (base k) = base k
  /-- A message is about the items of one base. -/
  base_eq : ∀ {m k k'}, writes m k ≠ none → writes m k' ≠ none → base k = base k'
  /-- No base goes away. -/
  writes_base : ∀ {m k}, writes m (base k) ≠ some none
  good_handle : ∀ {r m}, Good r → Proper m → Good (handle r m)
  view_eq_none : ∀ {r k}, Good r → view r (base k) = none → view r k = none
  view_handle : ∀ {r m}, Good r → Proper m →
    (∀ k, writes m k ≠ none → writes m (base k) ≠ none ∨ view r (base k) ≠ none) →
    ∀ k, view (handle r m) k = (writes m k).getD (view r k)
  view_handle_of_unknown : ∀ {r m k}, Good r → Proper m → writes m k ≠ none →
    writes m (base k) = none → view r (base k) = none → view (handle r m) = view r

namespace Replica

variable {ρ μ κ β : Type*} {R : Replica ρ μ κ β} {w : κ → Option β} {r : ρ} {m : μ} {k : κ}
  {ms q : List μ} {covered stale : κ → Prop}

section Definitions

variable (R)

/-- The world after a change. -/
def apply (m : μ) (w : κ → Option β) : κ → Option β := fun k => (R.writes m k).getD (w k)

/-- Some of the messages are about the key. -/
def Mentions (ms : List μ) (k : κ) : Prop := ∃ m ∈ ms, R.writes m k ≠ none

/-- All that the message says is so. -/
def Holds (w : κ → Option β) (m : μ) : Prop := ∀ k v, R.writes m k = some v → w k = v

/-- The last message about a key says what is so, unless the key is stale. -/
def Latest (w : κ → Option β) (stale : κ → Prop) : List μ → Prop
  | [] => True
  | m :: q =>
    (∀ k v, R.writes m k = some v → ¬ stale k → ¬ R.Mentions q k → w k = v) ∧ Latest w stale q

/-- A base that is covered is known before a message is about one of its items. -/
def Announced (covered : κ → Prop) : (κ → Prop) → List μ → Prop
  | _, [] => True
  | known, m :: q =>
    (∀ k, R.writes m k ≠ none → covered (R.base k) →
      R.writes m (R.base k) ≠ none ∨ known (R.base k)) ∧
    Announced covered (fun b => known b ∨ R.writes m b ≠ none) q

/-- The messages on their way tell the story of the world. -/
structure History (w : κ → Option β) (q : List μ) (stale : κ → Prop) : Prop where
  grounded : ∀ k, w (R.base k) = none → w k = none
  proper : ∀ m ∈ q, R.Proper m
  rooted : ∀ m ∈ q, ∀ k, R.writes m k ≠ none → w (R.base k) ≠ none
  latest : R.Latest w stale q

/-- The replica follows the world, up to the messages on their way and to stale keys. -/
structure Follows (w : κ → Option β) (q : List μ) (covered stale : κ → Prop) (r : ρ) : Prop where
  good : R.Good r
  right : ∀ k, ¬ stale k → ¬ R.Mentions q k → R.view r k = w k ∨ R.view r k = none
  complete : ∀ k, covered k → ¬ stale k → ¬ R.Mentions q k → R.view r k = w k
  fresh : ∀ k, covered (R.base k) → R.view r (R.base k) = none → w k ≠ none → R.Mentions q k
  announced : R.Announced covered (fun b => R.view r b ≠ none) q

/-- The messages describe the keys of a set as they are. -/
structure Snapshot (w : κ → Option β) (S : κ → Prop) (ms : List μ) : Prop where
  proper : ∀ m ∈ ms, R.Proper m
  holds : ∀ m ∈ ms, R.Holds w m
  all : ∀ k, S k → w k ≠ none → R.Mentions ms k

end Definitions

/-- A message leaves what it is not about. -/
theorem apply_of_none (h : R.writes m k = none) : R.apply m w k = w k := by
  rw [apply, h, Option.getD_none]

/-- It sets what it is about. -/
theorem apply_of_some {v : Option β} (h : R.writes m k = some v) : R.apply m w k = v := by
  rw [apply, h, Option.getD_some]

private theorem mentions_cons : R.Mentions (m :: q) k ↔ R.writes m k ≠ none ∨ R.Mentions q k := by
  simp [Mentions]

private theorem mentions_concat :
    R.Mentions (q ++ [m]) k ↔ R.Mentions q k ∨ R.writes m k ≠ none := by
  simp [Mentions, or_and_right, exists_or]

private theorem apply_base_ne_none (h : w (R.base k) ≠ none) : R.apply m w (R.base k) ≠ none := by
  cases hm : R.writes m (R.base k) with
  | none => rwa [apply_of_none hm]
  | some v =>
    rw [apply_of_some hm]
    rintro rfl
    exact R.writes_base hm

section Announced

variable {known known' : κ → Prop}

/-- More may be known. -/
theorem Announced.mono (h : R.Announced covered known q)
    (hknown : ∀ k, known (R.base k) → known' (R.base k)) : R.Announced covered known' q := by
  induction q generalizing known known' with
  | nil => trivial
  | cons m q ih =>
    refine ⟨fun k hk hc => (h.1 k hk hc).imp_right (hknown k), ih h.2 fun k hk => ?_⟩
    exact hk.imp_left (hknown k)

/-- A message is posted whose base is covered, announced or known. -/
theorem Announced.concat (h : R.Announced covered known q)
    (hm : ∀ k, R.writes m k ≠ none → covered (R.base k) →
      R.writes m (R.base k) ≠ none ∨ known (R.base k) ∨ R.Mentions q (R.base k)) :
    R.Announced covered known (q ++ [m]) := by
  induction q generalizing known with
  | nil =>
    refine ⟨fun k hk hc => (hm k hk hc).imp_right fun h => h.resolve_right ?_, trivial⟩
    simp [Mentions]
  | cons m' q ih =>
    refine ⟨h.1, ih h.2 fun k hk hc => (hm k hk hc).imp_right fun hb => ?_⟩
    rw [mentions_cons] at hb
    tauto

/-- More bases are covered, which are known. -/
theorem Announced.or {S : κ → Prop} (h : R.Announced covered known q)
    (hS : ∀ m ∈ q, ∀ k, R.writes m k ≠ none → S (R.base k) → known (R.base k)) :
    R.Announced (fun k => covered k ∨ S k) known q := by
  induction q generalizing known with
  | nil => trivial
  | cons m q ih =>
    obtain ⟨hm, hq⟩ := List.forall_mem_cons.mp hS
    refine ⟨fun k hk hc => hc.elim (h.1 k hk) fun hs => .inr (hm k hk hs), ih h.2 ?_⟩
    exact fun m' hm' k hk hs => .inl (hq m' hm' k hk hs)

end Announced

/-- A change is posted. -/
theorem Latest.concat (h : R.Latest w stale q) (m : μ) :
    R.Latest (R.apply m w) (fun k => stale k ∧ R.writes m k = none) (q ++ [m]) := by
  induction q with
  | nil => exact ⟨fun k v hv _ _ => apply_of_some hv, trivial⟩
  | cons m' q ih =>
    refine ⟨fun k v hv hstale hk => ?_, ih h.2⟩
    obtain ⟨hq, hm⟩ := not_or.mp (mt mentions_concat.mpr hk)
    have hm := not_not.mp hm
    rw [apply_of_none hm]
    exact h.1 k v hv (fun hs => hstale ⟨hs, hm⟩) hq

/-- A change is not posted, and what it is about becomes stale unless nothing posted is about it. -/
theorem Latest.miss {stale' : κ → Prop} (h : R.Latest w stale q)
    (hold : ∀ k, stale k → stale' k)
    (hnew : ∀ k, R.writes m k ≠ none → stale' k ∨ ¬ R.Mentions q k) :
    R.Latest (R.apply m w) stale' q := by
  induction q with
  | nil => trivial
  | cons m' q ih =>
    refine ⟨fun k v hv hstale hk => ?_, ih h.2 fun k hk => (hnew k hk).imp_right ?_⟩
    · cases hm : R.writes m k with
      | none =>
        rw [apply_of_none hm]
        exact h.1 k v hv (mt (hold k) hstale) hk
      | some v' =>
        refine absurd ?_ ((hnew k (by simp [hm])).resolve_left hstale)
        exact mentions_cons.mpr (.inl (by simp [hv]))
    · exact mt fun hq => mentions_cons.mpr (.inr hq)

/-- The base of what has changed is there. -/
theorem apply_base_of_writes (hk : R.writes m k ≠ none)
    (hbase : ∀ k, R.writes m k ≠ none → R.writes m (R.base k) ≠ none ∨ w (R.base k) ≠ none) :
    R.apply m w (R.base k) ≠ none := by
  obtain hnew | hold := hbase k hk
  · obtain ⟨v, hv⟩ := Option.ne_none_iff_exists'.mp hnew
    rw [apply_of_some hv]
    rintro rfl
    exact R.writes_base hv
  · exact apply_base_ne_none hold

namespace History

private theorem grounded_apply (h : R.History w q stale)
    (hbase : ∀ k, R.writes m k ≠ none → R.writes m (R.base k) ≠ none ∨ w (R.base k) ≠ none)
    (hk : R.apply m w (R.base k) = none) : R.apply m w k = none := by
  have hm : R.writes m k = none := by
    by_contra hne
    exact apply_base_of_writes hne hbase hk
  rw [apply_of_none hm]
  exact h.grounded k (by_contra fun hne => apply_base_ne_none hne hk)

/-- A change is announced. -/
theorem change (h : R.History w q stale) (hm : R.Proper m)
    (hbase : ∀ k, R.writes m k ≠ none → R.writes m (R.base k) ≠ none ∨ w (R.base k) ≠ none) :
    R.History (R.apply m w) (q ++ [m]) fun k => stale k ∧ R.writes m k = none := by
  refine ⟨fun k => h.grounded_apply hbase, ?_, ?_, h.latest.concat m⟩
  · simpa [or_imp, forall_and] using ⟨h.proper, hm⟩
  · intro m' hm' k hk
    obtain hm' | hm' := List.mem_append.mp hm'
    · exact apply_base_ne_none (h.rooted m' hm' k hk)
    · obtain rfl := List.mem_singleton.mp hm'
      exact apply_base_of_writes hk hbase

/-- A change goes by without an announcement. -/
theorem miss {stale' : κ → Prop} (h : R.History w q stale)
    (hbase : ∀ k, R.writes m k ≠ none → R.writes m (R.base k) ≠ none ∨ w (R.base k) ≠ none)
    (hold : ∀ k, stale k → stale' k)
    (hnew : ∀ k, R.writes m k ≠ none → stale' k ∨ ¬ R.Mentions q k) :
    R.History (R.apply m w) q stale' :=
  ⟨fun _ => h.grounded_apply hbase, h.proper,
    fun m' hm' k hk => apply_base_ne_none (h.rooted m' hm' k hk), h.latest.miss hold hnew⟩

/-- The first message is taken. -/
theorem tail (h : R.History w (m :: q) stale) : R.History w q stale :=
  ⟨h.grounded, fun m' hm' => h.proper m' (List.mem_cons_of_mem m hm'),
    fun m' hm' => h.rooted m' (List.mem_cons_of_mem m hm'), h.latest.2⟩

end History

/-- A base that is known stays known. -/
theorem view_base_handle (hr : R.Good r) (hm : R.Proper m) (h : R.view r (R.base k) ≠ none) :
    R.view (R.handle r m) (R.base k) ≠ none := by
  by_cases hall : ∀ k, R.writes m k ≠ none →
      R.writes m (R.base k) ≠ none ∨ R.view r (R.base k) ≠ none
  · rw [R.view_handle hr hm hall]
    exact apply_base_ne_none h
  · push Not at hall
    obtain ⟨k', hk', hnew, hold⟩ := hall
    rwa [R.view_handle_of_unknown hr hm hk' hnew hold]

/-- A message about a base makes it known. -/
theorem view_base_of_writes (hr : R.Good r) (hm : R.Proper m) (h : R.writes m (R.base k) ≠ none) :
    R.view (R.handle r m) (R.base k) ≠ none := by
  obtain ⟨v, hv⟩ := Option.ne_none_iff_exists'.mp h
  have hall : ∀ k', R.writes m k' ≠ none →
      R.writes m (R.base k') ≠ none ∨ R.view r (R.base k') ≠ none := by
    intro k' hk'
    rw [R.base_eq hk' h, R.base_base]
    exact .inl h
  rw [R.view_handle hr hm hall, hv, Option.getD_some]
  rintro rfl
  exact R.writes_base hv

/-- The two things that may come of a message. -/
theorem view_handle_cases (hr : R.Good r) (hm : R.Proper m) :
    (∀ k, R.view (R.handle r m) k = R.apply m (R.view r) k) ∨
      (R.view (R.handle r m) = R.view r ∧ ∃ k, R.writes m k ≠ none ∧
        R.writes m (R.base k) = none ∧ R.view r (R.base k) = none) := by
  by_cases hall : ∀ k, R.writes m k ≠ none →
      R.writes m (R.base k) ≠ none ∨ R.view r (R.base k) ≠ none
  · exact .inl (R.view_handle hr hm hall)
  · push Not at hall
    obtain ⟨k, hk, hnew, hold⟩ := hall
    exact .inr ⟨R.view_handle_of_unknown hr hm hk hnew hold, k, hk, hnew, hold⟩

namespace Follows

/-- A change of the world. -/
theorem change (h : R.Follows w q covered stale r)
    (hbase : ∀ k, R.writes m k ≠ none → R.writes m (R.base k) ≠ none ∨ w (R.base k) ≠ none) :
    R.Follows (R.apply m w) (q ++ [m]) covered (fun k => stale k ∧ R.writes m k = none) r := by
  refine ⟨h.good, fun k hs hk => ?_, fun k hc hs hk => ?_, fun k hc hview hk => ?_, ?_⟩
  · obtain ⟨hq, hm⟩ := not_or.mp (mt mentions_concat.mpr hk)
    have hm := not_not.mp hm
    rw [apply_of_none hm]
    exact h.right k (fun hold => hs ⟨hold, hm⟩) hq
  · obtain ⟨hq, hm⟩ := not_or.mp (mt mentions_concat.mpr hk)
    have hm := not_not.mp hm
    rw [apply_of_none hm]
    exact h.complete k hc (fun hold => hs ⟨hold, hm⟩) hq
  · rw [mentions_concat]
    by_cases hm : R.writes m k = none
    · rw [apply_of_none hm] at hk
      exact .inl (h.fresh k hc hview hk)
    · exact .inr hm
  · refine h.announced.concat fun k hk hc => (hbase k hk).imp_right fun hw => ?_
    by_cases hview : R.view r (R.base k) = none
    · refine .inr (h.fresh (R.base k) (by rwa [R.base_base]) (by rwa [R.base_base]) hw)
    · exact .inl hview

/-- A change of the world that goes by without an announcement, while nothing is covered. -/
theorem miss {stale' : κ → Prop} (h : R.Follows w q covered stale r) (hc : ∀ k, ¬ covered k)
    (hold : ∀ k, stale k → stale' k)
    (hnew : ∀ k, R.writes m k ≠ none → stale' k ∨ R.view r k = none) :
    R.Follows (R.apply m w) q covered stale' r := by
  refine ⟨h.good, fun k hs hk => ?_, fun k hk => absurd hk (hc k), fun k hk => absurd hk (hc _),
    h.announced⟩
  cases hm : R.writes m k with
  | none =>
    rw [apply_of_none hm]
    exact h.right k (mt (hold k) hs) hk
  | some v => exact .inr ((hnew k (by simp [hm])).resolve_left hs)

/-- A message that says what is so, out of turn. -/
theorem hear (h : R.Follows w q covered stale r) (hm : R.Proper m) (hholds : R.Holds w m) :
    R.Follows w q covered stale (R.handle r m) := by
  have hvalue : ∀ k, R.view (R.handle r m) k = w k ∨ R.view (R.handle r m) k = R.view r k := by
    intro k
    obtain hall | ⟨hsame, -⟩ := view_handle_cases h.good hm
    · rw [hall]
      cases hv : R.writes m k with
      | none => exact .inr (apply_of_none hv)
      | some v => exact .inl ((apply_of_some hv).trans (hholds k v hv).symm)
    · exact .inr (by rw [hsame])
  refine ⟨R.good_handle h.good hm, fun k hs hk => ?_, fun k hc hs hk => ?_,
    fun k hc hview => ?_, ?_⟩
  · exact (hvalue k).elim .inl fun heq => heq ▸ h.right k hs hk
  · exact (hvalue k).elim id fun heq => heq.trans (h.complete k hc hs hk)
  · refine h.fresh k hc ?_
    by_contra hne
    exact view_base_handle h.good hm hne hview
  · exact h.announced.mono fun k hk => view_base_handle h.good hm hk

/-- The next message on its way. -/
theorem next (h : R.Follows w (m :: q) covered stale r) (hhist : R.History w (m :: q) stale)
    (hclosed : ∀ k, covered k → covered (R.base k)) :
    R.Follows w q covered stale (R.handle r m) := by
  have hm : R.Proper m := hhist.proper m List.mem_cons_self
  have hunmentioned {k : κ} (hk : ¬ R.Mentions q k) (hwrites : R.writes m k = none) :
      ¬ R.Mentions (m :: q) k := by
    rw [mentions_cons]
    exact not_or.mpr ⟨not_not.mpr hwrites, hk⟩
  refine ⟨R.good_handle h.good hm, fun k hs hk => ?_, fun k hc hs hk => ?_,
    fun k hc hview hk => ?_, ?_⟩
  · cases hv : R.writes m k with
    | none =>
      obtain hall | ⟨hsame, -⟩ := view_handle_cases h.good hm
      · rw [hall, apply_of_none hv]
        exact h.right k hs (hunmentioned hk hv)
      · rw [hsame]
        exact h.right k hs (hunmentioned hk hv)
    | some v =>
      obtain hall | ⟨hsame, k', hk', -, hunknown⟩ := view_handle_cases h.good hm
      · rw [hall, apply_of_some hv]
        exact .inl (hhist.latest.1 k v hv hs hk).symm
      · rw [hsame]
        refine .inr (R.view_eq_none h.good ?_)
        rw [R.base_eq (by simp [hv]) hk', hunknown]
  · cases hv : R.writes m k with
    | none =>
      obtain hall | ⟨hsame, -⟩ := view_handle_cases h.good hm
      · rw [hall, apply_of_none hv]
        exact h.complete k hc hs (hunmentioned hk hv)
      · rw [hsame]
        exact h.complete k hc hs (hunmentioned hk hv)
    | some v =>
      obtain hall | ⟨-, k', hk', hnew, hunknown⟩ := view_handle_cases h.good hm
      · rw [hall, apply_of_some hv]
        exact (hhist.latest.1 k v hv hs hk).symm
      · have hbase : R.base k' = R.base k := R.base_eq hk' (by simp [hv])
        obtain hb | hb := h.announced.1 k' hk' (hbase ▸ hclosed k hc)
        · exact absurd hnew hb
        · exact absurd hunknown hb
  · have hold : R.view r (R.base k) = none := by
      by_contra hne
      exact view_base_handle h.good hm hne hview
    refine (mentions_cons.mp (h.fresh k hc hold hk)).resolve_left fun hwrites => ?_
    obtain hb | hb := h.announced.1 k hwrites hc
    · exact view_base_of_writes h.good hm hb hview
    · exact hb hold
  · refine h.announced.2.mono fun k hk => ?_
    obtain hold | hnew := hk
    · exact view_base_handle h.good hm hold
    · exact view_base_of_writes h.good hm hnew

/-- Several messages that say what is so. -/
theorem hear_all (h : R.Follows w q covered stale r) (hproper : ∀ m ∈ ms, R.Proper m)
    (hholds : ∀ m ∈ ms, R.Holds w m) : R.Follows w q covered stale (ms.foldl R.handle r) := by
  induction ms generalizing r with
  | nil => exact h
  | cons m ms ih =>
    obtain ⟨hm, hms⟩ := List.forall_mem_cons.mp hproper
    obtain ⟨hmh, hmsh⟩ := List.forall_mem_cons.mp hholds
    exact ih (h.hear hm hmh) hms hmsh

end Follows

private theorem view_base_foldl (hr : R.Good r) (hproper : ∀ m ∈ ms, R.Proper m)
    (h : R.view r (R.base k) ≠ none ∨ R.Mentions ms (R.base k)) :
    R.view (ms.foldl R.handle r) (R.base k) ≠ none := by
  induction ms generalizing r with
  | nil => exact h.resolve_right (by simp [Mentions])
  | cons m ms ih =>
    obtain ⟨hm, hms⟩ := List.forall_mem_cons.mp hproper
    refine ih (R.good_handle hr hm) hms ?_
    rw [mentions_cons, ← or_assoc] at h
    refine h.imp_left fun hk => ?_
    exact hk.elim (view_base_handle hr hm) (view_base_of_writes hr hm)

/-- A key that is mentioned by messages that say what is so, and whose base is known. -/
theorem view_foldl (hr : R.Good r) (hproper : ∀ m ∈ ms, R.Proper m)
    (hholds : ∀ m ∈ ms, R.Holds w m) (hbase : R.base k = k ∨ R.view r (R.base k) ≠ none)
    (h : R.view r k = w k ∨ R.Mentions ms k) : R.view (ms.foldl R.handle r) k = w k := by
  induction ms generalizing r with
  | nil => exact h.resolve_right (by simp [Mentions])
  | cons m ms ih =>
    obtain ⟨hm, hms⟩ := List.forall_mem_cons.mp hproper
    obtain ⟨hmh, hmsh⟩ := List.forall_mem_cons.mp hholds
    refine ih (R.good_handle hr hm) hms hmsh (hbase.imp_right (view_base_handle hr hm)) ?_
    rw [mentions_cons] at h
    obtain hall | ⟨hsame, k', hk', hnew, hunknown⟩ := view_handle_cases hr hm
    · rw [hall]
      cases hv : R.writes m k with
      | none =>
        rw [apply_of_none hv]
        exact h.imp_right fun h => h.resolve_left (not_not.mpr hv)
      | some v => exact .inl ((apply_of_some hv).trans (hmh k v hv).symm)
    · rw [hsame]
      refine h.imp_right fun h => h.resolve_left fun hk => ?_
      rw [← R.base_eq hk hk'] at hnew hunknown
      obtain heq | hne := hbase
      · exact hk (heq ▸ hnew)
      · exact hne hunknown

/-- A snapshot covers its keys, if the bases of the keys are covered or among the keys. -/
theorem Follows.snapshot {S : κ → Prop} (h : R.Follows w q covered stale r)
    (hhist : R.History w q stale) (hbase : ∀ k, S k → R.base k = k ∨ covered (R.base k))
    (hms : R.Snapshot w S ms) :
    R.Follows w q (fun k => covered k ∨ S k) stale (ms.foldl R.handle r) := by
  have hall := h.hear_all hms.proper hms.holds
  have hknown {k : κ} (hs : S (R.base k)) (hw : w (R.base k) ≠ none) :
      R.view (ms.foldl R.handle r) (R.base k) ≠ none :=
    view_base_foldl h.good hms.proper (.inr (hms.all _ hs hw))
  refine ⟨hall.good, hall.right, fun k hc hfresh hk => ?_, fun k hc hview hk => ?_, ?_⟩
  · obtain hc | hs := hc
    · exact hall.complete k hc hfresh hk
    · by_cases hw : w k = none
      · rw [hw]
        exact (hall.right k hfresh hk).elim (·.trans hw) id
      · refine view_foldl h.good hms.proper hms.holds ((hbase k hs).imp_right fun hc hview => ?_)
          (.inr (hms.all k hs hw))
        exact hk (h.fresh k hc hview hw)
  · obtain hc | hs := hc
    · exact hall.fresh k hc hview hk
    · exact absurd hview (hknown hs (mt (hhist.grounded k) hk))
  · exact hall.announced.or fun m hm k hk hs => hknown hs (hhist.rooted m hm k hk)

/-- A replica that knows nothing follows a world that is not covered. -/
theorem follows_empty (hr : R.Good r) (h : ∀ k, R.view r k = none) (hc : ∀ k, ¬ covered k) :
    R.Follows w [] covered stale r :=
  ⟨hr, fun k _ _ => .inr (h k), fun k hk => absurd hk (hc k), fun _ hk => absurd hk (hc _),
    trivial⟩

end Replica
