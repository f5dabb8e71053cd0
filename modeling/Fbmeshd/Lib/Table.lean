import Mathlib.Data.List.AList

/-!
# Association tables

Mathlib's `AList` has insertion and lookup. A table that is purged in place also needs
to keep only the entries that satisfy a test, and a family of tables needs lookup after one of
them has changed.
-/

namespace AList

universe u v

variable {α : Type u} {β : α → Type v}

/-- Keep the entries that satisfy `p`. -/
def filterEntries (p : ∀ a, β a → Bool) (t : AList β) : AList β :=
  ⟨t.entries.filter fun e => p e.1 e.2, t.nodupKeys.sublist List.filter_sublist⟩

variable [DecidableEq α] {p : ∀ a, β a → Bool} {t : AList β} {a : α}

/-- The entries that are kept. -/
theorem mem_lookup_filterEntries {b : β a} :
    b ∈ (t.filterEntries p).lookup a ↔ b ∈ t.lookup a ∧ p a b = true := by
  rw [mem_lookup_iff, mem_lookup_iff]
  exact List.mem_filter

/-- Set an entry that is not there yet. -/
def emplace (a : α) (b : β a) (t : AList β) : AList β :=
  if (t.lookup a).isSome then t else t.insert a b

/-- The other keys keep their values. -/
theorem lookup_emplace_of_ne {a' : α} {b : β a} (h : a' ≠ a) :
    (t.emplace a b).lookup a' = t.lookup a' := by
  unfold emplace
  split
  · rfl
  · exact lookup_insert_ne h

/-- An entry that is new is set. -/
theorem lookup_emplace_eq_some {γ : Type v} {t : AList fun _ : α => γ} {b : γ}
    (hnew : t.lookup a = none) {a' : α} {b' : γ} :
    (t.emplace a b).lookup a' = some b' ↔ t.lookup a' = some b' ∨ a' = a ∧ b' = b := by
  by_cases ha : a' = a
  · subst ha
    rw [emplace, hnew, if_neg (by simp), lookup_insert, Option.some_inj]
    simp [eq_comm]
  · simp [lookup_emplace_of_ne ha, ha]

/-- What holds of the entries of a table holds after another one was set. -/
theorem forall_lookup_emplace {P : ∀ a, β a → Prop} {b : β a}
    (ht : ∀ a b, t.lookup a = some b → P a b) (hb : P a b) :
    ∀ a' b', (t.emplace a b).lookup a' = some b' → P a' b' := by
  intro a' b' h
  unfold emplace at h
  split at h
  · exact ht a' b' h
  · by_cases ha : a' = a
    · subst ha
      rw [lookup_insert] at h
      exact Option.some.inj h ▸ hb
    · exact ht a' b' (by rwa [lookup_insert_ne ha] at h)

section View

variable {σ τ : Type*} (step : σ → Sigma β → σ) (view : σ → τ)

omit [DecidableEq α] in
private theorem view_foldl_of_notMem (hlocal : ∀ s e, e.1 ≠ a → view (step s e) = view s)
    {l : List (Sigma β)} (ha : a ∉ l.keys) (s : σ) : view (l.foldl step s) = view s := by
  induction l generalizing s with
  | nil => rfl
  | cons e l ih =>
    rw [List.keys_cons, List.mem_cons, not_or] at ha
    rw [List.foldl_cons, ih ha.2, hlocal s e (Ne.symm ha.1)]

/-- If entries under other keys do not change a part of the state, a loop over a table changes it
by the entry under this key, if there is one. -/
theorem view_foldl_entries (a : α) (hlocal : ∀ s e, e.1 ≠ a → view (step s e) = view s)
    (hcongr : ∀ s s' b, view s = view s' → view (step s ⟨a, b⟩) = view (step s' ⟨a, b⟩))
    (t : AList β) (s : σ) :
    view (t.entries.foldl step s) = (t.lookup a).elim (view s) fun b => view (step s ⟨a, b⟩) := by
  obtain ⟨l, hl⟩ := t
  show view (l.foldl step s) = (l.dlookup a).elim _ _
  induction l generalizing s with
  | nil => rfl
  | cons e l ih =>
    obtain ⟨hnew, hrest⟩ := List.nodupKeys_cons.mp hl
    by_cases he : e.1 = a
    · subst he
      rw [List.foldl_cons, view_foldl_of_notMem step view hlocal hnew, List.dlookup_cons_eq]
      rfl
    · have hsame := hlocal s e he
      obtain ⟨k, b⟩ := e
      rw [List.foldl_cons, ih _ hrest, List.dlookup_cons_ne _ _ (Ne.symm he), hsame]
      cases l.dlookup a with
      | none => rfl
      | some b => exact hcongr _ _ b hsame

end View

/-- An entry that a count leaves out, before and after, can be set without changing the count. -/
theorem countP_entries_insert {b : β a} {q : Sigma β → Bool} (hnew : q ⟨a, b⟩ = false)
    (hold : ∀ b', t.lookup a = some b' → q ⟨a, b'⟩ = false) :
    (t.insert a b).entries.countP q = t.entries.countP q := by
  rw [entries_insert, List.countP_cons_of_neg (by simp [hnew])]
  by_cases ha : a ∈ t.entries.keys
  · obtain ⟨b', before, after, -, hsplit, herase⟩ := List.exists_of_kerase ha
    have hmem : t.lookup a = some b' := by
      rw [← Option.mem_def, mem_lookup_iff, hsplit]
      exact List.mem_append_right _ List.mem_cons_self
    rw [herase, hsplit, List.countP_append, List.countP_append,
      List.countP_cons_of_neg (by simp [hold b' hmem])]
  · rw [List.kerase_of_notMem_keys ha]

/-- Entries are counted on a list that has one item for each of them. -/
theorem countP_entries_eq {γ : Type*} {key : γ → α} {xs : List γ} {q : Sigma β → Bool}
    {p : γ → Bool} (hnodup : (xs.map key).Nodup)
    (h : ∀ a, (∃ b, t.lookup a = some b ∧ q ⟨a, b⟩ = true) ↔ ∃ x ∈ xs, key x = a ∧ p x = true) :
    t.entries.countP q = xs.countP p := by
  have hentries : ((t.entries.filter q).map Sigma.fst).Nodup :=
    t.nodupKeys.sublist List.filter_sublist
  have hitems : ((xs.filter p).map key).Nodup := hnodup.sublist (List.filter_sublist.map _)
  have hperm : ((t.entries.filter q).map Sigma.fst).Perm ((xs.filter p).map key) := by
    refine (List.perm_ext_iff_of_nodup hentries hitems).mpr fun a => ?_
    simp only [List.mem_map, List.mem_filter]
    constructor
    · rintro ⟨⟨a, b⟩, ⟨hmem, hq⟩, rfl⟩
      obtain ⟨x, hx, hkey, hp⟩ := (h a).mp ⟨b, mem_lookup_iff.mpr hmem, hq⟩
      exact ⟨x, ⟨hx, hp⟩, hkey⟩
    · rintro ⟨x, ⟨hx, hp⟩, rfl⟩
      obtain ⟨b, hb, hq⟩ := (h (key x)).mpr ⟨x, hx, rfl, hp⟩
      exact ⟨⟨key x, b⟩, ⟨mem_lookup_iff.mp hb, hq⟩, rfl⟩
  rw [List.countP_eq_length_filter, List.countP_eq_length_filter]
  simpa using hperm.length_eq

section Family

variable {ι : Type*} [DecidableEq ι] {V : Type v} (tables : ι → AList fun _ : α => V)
  (i j : ι) (a b : α)

/-- Lookup after an entry of one table of a family was erased. -/
theorem lookup_update_erase :
    (Function.update tables i ((tables i).erase a) j).lookup b =
      if j = i ∧ b = a then none else (tables j).lookup b := by
  by_cases hj : j = i
  · subst hj
    by_cases hb : b = a
    · subst hb
      simp
    · simp [hb]
  · simp [hj]

/-- Lookup after an entry of one table of a family was set. -/
theorem lookup_update_insert (v : V) :
    (Function.update tables i ((tables i).insert a v) j).lookup b =
      if j = i ∧ b = a then some v else (tables j).lookup b := by
  by_cases hj : j = i
  · subst hj
    by_cases hb : b = a
    · subst hb
      simp
    · simp [hb]
  · simp [hj]

end Family

/-- The one entry of a table. -/
theorem lookup_singleton_eq_some {V : Type v} {a b : α} {v w : V} :
    (AList.singleton a v : AList fun _ : α => V).lookup b = some w ↔ b = a ∧ w = v := by
  rw [← Option.mem_def, mem_lookup_iff, singleton_entries, List.mem_singleton, Sigma.mk.injEq,
    heq_eq_eq]

end AList
