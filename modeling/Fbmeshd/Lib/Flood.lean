import Mathlib.Data.Finset.Card
import Mathlib.Order.Bounds.Basic
import Fbmeshd.Lib.DistanceVector

/-!
# A flood computes shortest routes

The destination announces itself once, no message is lost, and a vertex passes on every
announcement it accepts, up to a hop limit. If the limit is at least the number of vertices,
the ranks are shortest distances once no message is left.

A message has passed as many different vertices as it has made hops, because a vertex it
has passed would not accept it again. So the limit never stops one.
-/

namespace DistanceVector

variable {V : Type*}

/-- The walks from `D` along the links, with their total cost. -/
inductive Walk (links : Links V) (D : V) : V → ℕ → Prop
  | nil : Walk links D D 0
  | snoc {u v : V} {r c : ℕ} (hwalk : Walk links D u r) (hcost : links.cost v u = some c) :
      Walk links D v (r + c)

/-- The vertex `u` announces the rank `r`: it is the destination, or it has this label. -/
def State.Announces (s : State V) (D u : V) (r : ℕ) : Prop :=
  (u = D ∧ r = 0) ∨ ∃ l, s.label u = some l ∧ l.rank = r

/-- The receiver of `m` keeps its route: it is the destination, does not hear the sender, or
has a route that is no worse. -/
def State.Ignores (s : State V) (links : Links V) (D : V) (m : Message V) : Prop :=
  m.dst = D ∨ links.cost m.dst m.src = none ∨
    ∃ l w, s.label m.dst = some l ∧ links.cost m.dst m.src = some w ∧ l.rank ≤ m.rank + w

/-- The state right after the only announcement of the destination. -/
structure FloodStart (links : Links V) (D : V) (s : State V) : Prop where
  unlabelled : ∀ v, s.label v = none
  announced : ∀ m ∈ s.flight, m.src = D ∧ m.rank = 0 ∧ m.hops = 0
  everyone : ∀ v c, links.cost v D = some c → ∃ m ∈ s.flight, m.dst = v

variable [DecidableEq V]

/-- The steps of a lossless flood with a hop limit. -/
inductive FloodStep (links : Links V) (D : V) (limit : ℕ) : State V → State V → Prop
  | ignore {s : State V} {before after : List (Message V)} {m : Message V}
      (hflight : s.flight = before ++ m :: after) (hignores : s.Ignores links D m) :
      FloodStep links D limit s { s with flight := before ++ after }
  | accept {s : State V} {before after out : List (Message V)} {m : Message V} {w : ℕ}
      (hflight : s.flight = before ++ m :: after)
      (hfirst : ∀ x ∈ before, x.src = m.src → x.dst ≠ m.dst) (hdst : m.dst ≠ D)
      (hcost : links.cost m.dst m.src = some w)
      (hadmits : ∀ l, s.label m.dst = some l → l.nextHop = m.src ∨ m.rank + w < l.rank)
      (hout : ∀ x ∈ out, x.src = m.dst ∧ x.rank = m.rank + w ∧ x.hops = m.hops + 1)
      (hall : m.hops + 1 < limit → ∀ v c, links.cost v m.dst = some c → ∃ x ∈ out, x.dst = v) :
      FloodStep links D limit s (s.accept m w (before ++ after) out)

/-- The invariant of a flood. -/
structure FloodInvariant (links : Links V) (D : V) (nodes : Finset V) (s : State V) : Prop
    extends Invariant links D s where
  source : ∀ m ∈ s.flight, m.src = D → m.rank = 0
  direct : ∀ v l, s.label v = some l → l.nextHop = D → links.cost v D = some l.rank
  walked : ∀ m ∈ s.flight, Walk links D m.src m.rank
  attained : ∀ v l, s.label v = some l →
    ∃ r c, Walk links D l.nextHop r ∧ links.cost v l.nextHop = some c ∧ l.rank = r + c
  /-- A message has passed one vertex more than it has made hops, and all of them rank no
  higher than it does. -/
  visited : ∀ m ∈ s.flight, ∃ passed ⊆ nodes, passed.card = m.hops + 1 ∧
    ∀ u ∈ passed, u = D ∨ ∃ l, s.label u = some l ∧ l.rank ≤ m.rank
  /-- What a vertex announces is on its way to each neighbour, or has been used there. -/
  relaxed : ∀ u r v c, s.Announces D u r → links.cost v u = some c → v ≠ D →
    (∃ m ∈ s.flight, m.src = u ∧ m.dst = v ∧ m.rank = r) ∨
      ∃ l, s.label v = some l ∧ l.rank ≤ r + c

namespace FloodInvariant

variable {links : Links V} {D : V} {nodes : Finset V} {s : State V}

omit [DecidableEq V] in
/-- The invariant holds at the start of a flood. -/
theorem start (h : FloodStart links D s) (hD : D ∈ nodes) : FloodInvariant links D nodes s := by
  have hbase : Invariant links D s := by
    constructor
    case ordered =>
      exact List.pairwise_of_forall_mem_list fun x hx _ _ hne => absurd (h.announced x hx).1 hne
    case sender => exact fun m hm hne => absurd (h.announced m hm).1 hne
    all_goals simp [h.unlabelled]
  refine ⟨hbase, fun m hm _ => (h.announced m hm).2.1, by simp [h.unlabelled], ?_, ?_, ?_, ?_⟩
  · intro m hm
    rw [(h.announced m hm).1, (h.announced m hm).2.1]
    exact .nil
  · simp [h.unlabelled]
  · intro m hm
    exact ⟨{D}, by simpa using hD, by simp [(h.announced m hm).2.2], by simp⟩
  · rintro u r v c (⟨rfl, rfl⟩ | ⟨l, hl, -⟩) hcost -
    · obtain ⟨m, hm, hdst⟩ := h.everyone v c hcost
      exact .inl ⟨m, hm, (h.announced m hm).1, hdst, (h.announced m hm).2.1⟩
    · simp [h.unlabelled] at hl

omit [DecidableEq V] in
/-- A message is ignored. -/
theorem ignore (h : FloodInvariant links D nodes s) {before after : List (Message V)}
    {m : Message V} (hflight : s.flight = before ++ m :: after) (hignores : s.Ignores links D m) :
    FloodInvariant links D nodes { s with flight := before ++ after } := by
  have hrest := State.rest_sublist hflight
  refine ⟨h.toInvariant.sublist hrest, fun x hx => h.source x (hrest.subset hx), h.direct,
    fun x hx => h.walked x (hrest.subset hx), h.attained,
    fun x hx => h.visited x (hrest.subset hx), ?_⟩
  intro u r v c hann hcost hv
  rcases h.relaxed u r v c hann hcost hv with ⟨x, hx, hsrc, hdst, hrank⟩ | hl
  · rcases State.eq_or_mem_rest hflight hx with rfl | hxrest
    · -- The ignored message itself: its receiver is not the destination and hears `u`.
      subst hsrc hdst hrank
      rcases hignores with hD | hnone | ⟨l, w, hl, hw, hle⟩
      · exact absurd hD hv
      · simp [hnone] at hcost
      · obtain rfl := Option.some.inj (hcost.symm.trans hw)
        exact .inr ⟨l, hl, hle⟩
    · exact .inl ⟨x, hxrest, hsrc, hdst, hrank⟩
  · exact .inr hl

section Accept

variable {before after out : List (Message V)} {m : Message V} {w : ℕ}

omit [DecidableEq V] in
/-- In a flood the destination never announces a worse rank. -/
theorem admits (h : FloodInvariant links D nodes s) (hm : m ∈ s.flight)
    (hcost : links.cost m.dst m.src = some w)
    (hadmits : ∀ l, s.label m.dst = some l → l.nextHop = m.src ∨ m.rank + w < l.rank) :
    ∀ l, s.label m.dst = some l → l.Admits D m.src m.rank w := by
  intro l hl
  rcases hadmits l hl with hhop | hlt
  · refine .inl ⟨hhop, fun hD => ?_⟩
    have hdirect := h.direct m.dst l hl (hhop.trans hD)
    rw [← hD, hcost] at hdirect
    rw [h.source m hm hD, Option.some.inj hdirect]
    omega
  · exact .inr hlt

omit [DecidableEq V] in
/-- A vertex does not accept a message that has passed it. -/
theorem not_mem_visited (h : FloodInvariant links D nodes s) (hm : m ∈ s.flight)
    (hdst : m.dst ≠ D) (hcost : links.cost m.dst m.src = some w)
    (hadmits : ∀ l, s.label m.dst = some l → l.Admits D m.src m.rank w) {passed : Finset V}
    (hpassed : ∀ u ∈ passed, u = D ∨ ∃ l, s.label u = some l ∧ l.rank ≤ m.rank) :
    m.dst ∉ passed := by
  intro hmem
  rcases hpassed _ hmem with hD | ⟨l, hl, hle⟩
  · exact hdst hD
  · have hrank := h.rank_le hm hl hcost (hadmits l hl)
    have hpos := links.pos _ _ _ hcost
    omega

/-- The vertices a message has passed, together with its receiver, are different vertices of
the network. -/
theorem visited_insert (h : FloodInvariant links D nodes s)
    (hnodes : ∀ v u c, links.cost v u = some c → v ∈ nodes) (hm : m ∈ s.flight)
    (hdst : m.dst ≠ D) (hcost : links.cost m.dst m.src = some w)
    (hadmits : ∀ l, s.label m.dst = some l → l.Admits D m.src m.rank w) :
    ∃ passed ⊆ nodes, passed.card = m.hops + 2 ∧
      ∀ u ∈ passed, u = D ∨ u = m.dst ∨ ∃ l, s.label u = some l ∧ l.rank ≤ m.rank := by
  obtain ⟨passed, hsub, hcard, hranks⟩ := h.visited m hm
  have hnot := h.not_mem_visited hm hdst hcost hadmits hranks
  refine ⟨insert m.dst passed, Finset.insert_subset (hnodes _ _ _ hcost) hsub, ?_, ?_⟩
  · rw [Finset.card_insert_of_notMem hnot, hcard]
  · intro u hu
    rcases Finset.mem_insert.mp hu with rfl | hu
    · exact .inr (.inl rfl)
    · rcases hranks u hu with hD | hl
      · exact .inl hD
      · exact .inr (.inr hl)

/-- After an acceptance the new rank is on its way to all neighbours, and everything else
that was announced has still been used. -/
theorem relaxed_accept (h : FloodInvariant links D nodes s)
    (hflight : s.flight = before ++ m :: after) (hdst : m.dst ≠ D)
    (hcost : links.cost m.dst m.src = some w)
    (hadmits : ∀ l, s.label m.dst = some l → l.Admits D m.src m.rank w)
    (hout : ∀ x ∈ out, x.src = m.dst ∧ x.rank = m.rank + w ∧ x.hops = m.hops + 1)
    (hall : ∀ v c, links.cost v m.dst = some c → ∃ x ∈ out, x.dst = v) {u v : V} {r c : ℕ}
    (hann : (s.accept m w (before ++ after) out).Announces D u r)
    (hc : links.cost v u = some c) (hv : v ≠ D) :
    (∃ x ∈ before ++ after ++ out, x.src = u ∧ x.dst = v ∧ x.rank = r) ∨
      ∃ l, (s.accept m w (before ++ after) out).label v = some l ∧ l.rank ≤ r + c := by
  have hm : m ∈ s.flight := by simp [hflight]
  have hself := s.accept_label_self m w (before ++ after) out
  by_cases hu : u = m.dst
  · subst hu
    obtain rfl : r = m.rank + w := by
      rcases hann with ⟨hD, -⟩ | ⟨l, hl, rfl⟩
      · exact absurd hD hdst
      · exact congrArg Label.rank (Option.some.inj (hl.symm.trans hself))
    obtain ⟨x, hx, rfl⟩ := hall v c hc
    exact .inl ⟨x, List.mem_append_right _ hx, (hout x hx).1, rfl, (hout x hx).2.1⟩
  · have hann' : s.Announces D u r := by
      rcases hann with hD | ⟨l, hl, hr⟩
      · exact .inl hD
      · exact .inr ⟨l, (s.accept_label_of_ne m w _ out hu).symm.trans hl, hr⟩
    rcases h.relaxed u r v c hann' hc hv with ⟨x, hx, hsrc, hxdst, hxr⟩ | ⟨l, hl, hle⟩
    · rcases State.eq_or_mem_rest hflight hx with rfl | hxrest
      · subst hsrc hxdst hxr
        obtain rfl := Option.some.inj (hcost.symm.trans hc)
        exact .inr ⟨_, hself, le_rfl⟩
      · exact .inl ⟨x, List.mem_append_left _ hxrest, hsrc, hxdst, hxr⟩
    · obtain ⟨l', hl', hle'⟩ := h.label_accept hm hcost hadmits (before ++ after) out hl
      exact .inr ⟨l', hl', hle'.trans hle⟩

/-- A message is accepted and announced further, up to the limit. -/
theorem accept (h : FloodInvariant links D nodes s) {limit : ℕ}
    (hnodes : ∀ v u c, links.cost v u = some c → v ∈ nodes) (hlimit : nodes.card ≤ limit)
    (hflight : s.flight = before ++ m :: after)
    (hfirst : ∀ x ∈ before, x.src = m.src → x.dst ≠ m.dst) (hdst : m.dst ≠ D)
    (hcost : links.cost m.dst m.src = some w)
    (hadmits : ∀ l, s.label m.dst = some l → l.nextHop = m.src ∨ m.rank + w < l.rank)
    (hout : ∀ x ∈ out, x.src = m.dst ∧ x.rank = m.rank + w ∧ x.hops = m.hops + 1)
    (hall : m.hops + 1 < limit → ∀ v c, links.cost v m.dst = some c → ∃ x ∈ out, x.dst = v) :
    FloodInvariant links D nodes (s.accept m w (before ++ after) out) := by
  have hm : m ∈ s.flight := by simp [hflight]
  have hrest := State.rest_sublist hflight
  have hadmits' := h.admits hm hcost hadmits
  have hself := s.accept_label_self m w (before ++ after) out
  have hother {v : V} (hv : v ≠ m.dst) := s.accept_label_of_ne m w (before ++ after) out hv
  have hrank {v : V} {l : Label V} (hl : s.label v = some l) :=
    h.label_accept hm hcost hadmits' (before ++ after) out hl
  obtain ⟨passed, hsub, hcard, hranks⟩ := h.visited_insert hnodes hm hdst hcost hadmits'
  refine ⟨h.toInvariant.accept hflight hfirst hdst hcost hadmits'
    fun x hx => ⟨(hout x hx).1, (hout x hx).2.1⟩, ?_, ?_, ?_, ?_, ?_, ?_⟩
  · intro x hx hsrc
    rcases List.mem_append.mp hx with hx | hx
    · exact h.source x (hrest.subset hx) hsrc
    · exact absurd ((hout x hx).1.symm.trans hsrc) hdst
  · intro v l hl hhop
    by_cases hv : v = m.dst
    · subst hv
      obtain rfl := Option.some.inj (hself.symm.trans hl)
      have hsrc : m.src = D := hhop
      rw [← hsrc, hcost, h.source m hm hsrc, Nat.zero_add]
    · exact h.direct v l ((hother hv).symm.trans hl) hhop
  · intro x hx
    rcases List.mem_append.mp hx with hx | hx
    · exact h.walked x (hrest.subset hx)
    · rw [(hout x hx).1, (hout x hx).2.1]
      exact (h.walked m hm).snoc hcost
  · intro v l hl
    by_cases hv : v = m.dst
    · subst hv
      obtain rfl := Option.some.inj (hself.symm.trans hl)
      exact ⟨m.rank, w, h.walked m hm, hcost, rfl⟩
    · exact h.attained v l ((hother hv).symm.trans hl)
  · intro x hx
    rcases List.mem_append.mp hx with hx | hx
    · obtain ⟨passed, hsub, hcard, hranks⟩ := h.visited x (hrest.subset hx)
      refine ⟨passed, hsub, hcard, fun u hu => ?_⟩
      rcases hranks u hu with hD | ⟨l, hl, hle⟩
      · exact .inl hD
      · obtain ⟨l', hl', hle'⟩ := hrank hl
        exact .inr ⟨l', hl', hle'.trans hle⟩
    · refine ⟨passed, hsub, by rw [hcard, (hout x hx).2.2], fun u hu => ?_⟩
      rw [(hout x hx).2.1]
      rcases hranks u hu with hD | rfl | ⟨l, hl, hle⟩
      · exact .inl hD
      · exact .inr ⟨_, hself, le_rfl⟩
      · obtain ⟨l', hl', hle'⟩ := hrank hl
        exact .inr ⟨l', hl', by omega⟩
  · -- The message is within the hop limit, as the vertices it has passed are different ones.
    have hwithin := Finset.card_le_card hsub
    exact fun u r v c => h.relaxed_accept hflight hdst hcost hadmits' hout (hall (by omega))

end Accept

/-- One step of the flood. -/
theorem step (h : FloodInvariant links D nodes s) {limit : ℕ}
    (hnodes : ∀ v u c, links.cost v u = some c → v ∈ nodes) (hlimit : nodes.card ≤ limit)
    {s' : State V} (hstep : FloodStep links D limit s s') : FloodInvariant links D nodes s' := by
  cases hstep with
  | ignore hflight hignores => exact h.ignore hflight hignores
  | accept hflight hfirst hdst hcost hadmits hout hall =>
    exact h.accept hnodes hlimit hflight hfirst hdst hcost hadmits hout hall

omit [DecidableEq V] in
/-- Once no message is left, no walk is shorter than the label of its end. -/
theorem rank_le_walk (h : FloodInvariant links D nodes s) (hquiet : s.flight = []) {v : V} {r : ℕ}
    (hwalk : Walk links D v r) : v = D ∨ ∃ l, s.label v = some l ∧ l.rank ≤ r := by
  induction hwalk with
  | nil => exact .inl rfl
  | @snoc u v r c _ hcost ih =>
    by_cases hv : v = D
    · exact .inl hv
    · right
      have hrelaxed {r' : ℕ} (hann : s.Announces D u r') :
          ∃ l, s.label v = some l ∧ l.rank ≤ r' + c := by
        simpa [hquiet] using h.relaxed u r' v c hann hcost hv
      rcases ih with hu | ⟨l, hl, hle⟩
      · obtain ⟨l', hl', hle'⟩ := hrelaxed (.inl ⟨hu, rfl⟩)
        exact ⟨l', hl', by omega⟩
      · obtain ⟨l', hl', hle'⟩ := hrelaxed (.inr ⟨l, hl, rfl⟩)
        exact ⟨l', hl', by omega⟩

omit [DecidableEq V] in
/-- Once no message is left, every other vertex some walk leads to has the least cost of a
walk as its rank, and a least walk arrives from its next hop. -/
theorem shortest (h : FloodInvariant links D nodes s) (hquiet : s.flight = []) {v : V}
    (hv : v ≠ D) (hreach : ∃ r, Walk links D v r) :
    ∃ l, s.label v = some l ∧ IsLeast {r | Walk links D v r} l.rank ∧
      ∃ r c, Walk links D l.nextHop r ∧ links.cost v l.nextHop = some c ∧ l.rank = r + c := by
  obtain ⟨r, hwalk⟩ := hreach
  obtain ⟨l, hl, -⟩ := (h.rank_le_walk hquiet hwalk).resolve_left hv
  obtain ⟨r', c, hwalk', hcost, hrank⟩ := h.attained v l hl
  refine ⟨l, hl, ⟨?_, ?_⟩, r', c, hwalk', hcost, hrank⟩
  · change Walk links D v l.rank
    rw [hrank]
    exact hwalk'.snoc hcost
  · intro r'' hr''
    obtain ⟨l', hl', hle⟩ := (h.rank_le_walk hquiet hr'').resolve_left hv
    obtain rfl := Option.some.inj (hl.symm.trans hl')
    exact hle

end FloodInvariant

end DistanceVector
