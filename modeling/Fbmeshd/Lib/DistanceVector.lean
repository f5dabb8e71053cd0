import Mathlib.Data.Nat.Init
import Mathlib.Logic.Function.Basic
import Mathlib.Logic.Relation
import Mathlib.Order.Basic
import Mathlib.Order.Nat

/-!
# Ranked routes to one destination

Vertices announce to their neighbours how far a destination is, over channels that keep
their order but may lose messages. A vertex follows its next hop whatever it announces, and
changes to another one only for a smaller rank. The rank of a vertex then never rises, each
vertex ranks above its next hop, and the routes have no cycle.

A rank is a natural number. A protocol with sequence numbers puts a newer number below an
older one.
-/

namespace DistanceVector

/-- An announcement on its way from `src` to `dst`, which has passed `hops` vertices. -/
structure Message (V : Type*) where
  src : V
  dst : V
  rank : ℕ
  hops : ℕ

/-- The route of a vertex. -/
structure Label (V : Type*) where
  rank : ℕ
  nextHop : V

/-- The routes of all vertices and the messages in flight, in the order of sending. -/
structure State (V : Type*) where
  label : V → Option (Label V)
  flight : List (Message V)

variable {V : Type*}

/-- The vertex `v` routes through `u`. -/
def State.RoutesThrough (s : State V) (v u : V) : Prop :=
  ∃ l, s.label v = some l ∧ l.nextHop = u

/-- The links: `cost v u` is what `v` adds to a rank announced by `u`, if it hears `u`. -/
structure Links (V : Type*) where
  cost : V → V → Option ℕ
  pos : ∀ v u w, cost v u = some w → 0 < w
  irrefl : ∀ v, cost v v = none

/-- An announcement of rank `rank` from `src`, heard at cost `w`, may replace a route: it
comes from the next hop, or it ranks strictly lower. The destination itself never
announces a rank that is worse for the vertices behind it. -/
def Label.Admits (l : Label V) (D src : V) (rank w : ℕ) : Prop :=
  (l.nextHop = src ∧ (src = D → rank + w ≤ l.rank)) ∨ rank + w < l.rank

/-- Taking out one message leaves the others in order. -/
theorem State.rest_sublist {s : State V} {before after : List (Message V)} {m : Message V}
    (hflight : s.flight = before ++ m :: after) : (before ++ after).Sublist s.flight := by
  rw [hflight]
  exact (List.sublist_cons_self m after).append_left before

/-- A message in flight is the one that is taken, or it remains. -/
theorem State.eq_or_mem_rest {s : State V} {before after : List (Message V)} {m x : Message V}
    (hflight : s.flight = before ++ m :: after) (hx : x ∈ s.flight) :
    x = m ∨ x ∈ before ++ after := by
  rw [hflight, List.mem_append, List.mem_cons] at hx
  rw [List.mem_append]
  rcases hx with hx | hx | hx
  · exact .inr (.inl hx)
  · exact .inl hx
  · exact .inr (.inr hx)

variable [DecidableEq V]

/-- The state after the receiver of `m` has taken its route and sent `out`. -/
def State.accept (s : State V) (m : Message V) (w : ℕ) (rest out : List (Message V)) : State V :=
  { label := Function.update s.label m.dst (some ⟨m.rank + w, m.src⟩)
    flight := rest ++ out }

/-- The receiver takes the announced rank and its own cost. -/
@[simp] theorem State.accept_label_self (s : State V) (m : Message V) (w : ℕ)
    (rest out : List (Message V)) :
    (s.accept m w rest out).label m.dst = some ⟨m.rank + w, m.src⟩ :=
  Function.update_self ..

/-- The other nodes keep their labels. -/
theorem State.accept_label_of_ne (s : State V) (m : Message V) (w : ℕ)
    (rest out : List (Message V)) {v : V} (hv : v ≠ m.dst) :
    (s.accept m w rest out).label v = s.label v :=
  Function.update_of_ne hv ..

/-- The steps of the protocol for the destination `D`. -/
inductive Step (links : Links V) (D : V) : State V → State V → Prop
  /-- The destination announces itself. -/
  | originate {s : State V} {out : List (Message V)} (hout : ∀ m ∈ out, m.src = D) :
      Step links D s { s with flight := s.flight ++ out }
  /-- A message is lost, or ignored by its receiver. -/
  | discard {s : State V} {before after : List (Message V)} {m : Message V}
      (hflight : s.flight = before ++ m :: after) :
      Step links D s { s with flight := before ++ after }
  /-- The oldest message of a channel is accepted and announced further. -/
  | accept {s : State V} {before after out : List (Message V)} {m : Message V} {w : ℕ}
      (hflight : s.flight = before ++ m :: after)
      (hfirst : ∀ x ∈ before, x.src = m.src → x.dst ≠ m.dst) (hdst : m.dst ≠ D)
      (hcost : links.cost m.dst m.src = some w)
      (hadmits : ∀ l, s.label m.dst = some l → l.Admits D m.src m.rank w)
      (hout : ∀ x ∈ out, x.src = m.dst ∧ x.rank = m.rank + w) :
      Step links D s (s.accept m w (before ++ after) out)

/-- The invariant of the protocol. Messages of the destination are left out of it, as the
destination has no rank. -/
structure Invariant (links : Links V) (D : V) (s : State V) : Prop where
  dest : s.label D = none
  /-- On each channel the ranks do not rise. -/
  ordered : s.flight.Pairwise fun x y =>
    x.src ≠ D → x.src = y.src → x.dst = y.dst → y.rank ≤ x.rank
  /-- A vertex ranks no higher than what it has announced. -/
  sender : ∀ m ∈ s.flight, m.src ≠ D → ∃ l, s.label m.src = some l ∧ l.rank ≤ m.rank
  linked : ∀ v l, s.label v = some l → ∃ w, links.cost v l.nextHop = some w
  /-- A vertex ranks above its next hop. -/
  above : ∀ v l w, s.label v = some l → links.cost v l.nextHop = some w → l.nextHop ≠ D →
    ∃ l', s.label l.nextHop = some l' ∧ l'.rank + w ≤ l.rank
  /-- Nothing its next hop still has to tell a vertex raises its rank. -/
  pending : ∀ v l w, s.label v = some l → links.cost v l.nextHop = some w → l.nextHop ≠ D →
    ∀ m ∈ s.flight, m.src = l.nextHop → m.dst = v → m.rank + w ≤ l.rank

namespace Invariant

variable {links : Links V} {D : V} {s : State V}

omit [DecidableEq V] in
/-- A state with no routes and no messages. -/
theorem init (hlabel : ∀ v, s.label v = none) (hflight : s.flight = []) :
    Invariant links D s := by
  constructor <;> simp [hlabel, hflight]

omit [DecidableEq V] in
/-- An admitted message does not raise the rank of its receiver. -/
theorem rank_le (h : Invariant links D s) {m : Message V} {l : Label V} {w : ℕ}
    (hm : m ∈ s.flight) (hl : s.label m.dst = some l)
    (hcost : links.cost m.dst m.src = some w) (hadmits : l.Admits D m.src m.rank w) :
    m.rank + w ≤ l.rank := by
  rcases hadmits with ⟨hhop, hdest⟩ | hlt
  · by_cases hD : m.src = D
    · exact hdest hD
    · exact h.pending m.dst l w hl (hhop ▸ hcost) (hhop ▸ hD) m hm hhop.symm rfl
  · exact hlt.le

omit [DecidableEq V] in
/-- The destination announces itself. -/
theorem originate (h : Invariant links D s) {out : List (Message V)}
    (hout : ∀ m ∈ out, m.src = D) :
    Invariant links D { s with flight := s.flight ++ out } := by
  refine ⟨h.dest, ?_, ?_, h.linked, h.above, ?_⟩
  · refine List.pairwise_append.mpr ⟨h.ordered, ?_, ?_⟩
    · exact List.pairwise_of_forall_mem_list fun x hx y _ hne => absurd (hout x hx) hne
    · intro x hx y hy hne heq
      exact absurd (heq.trans (hout y hy)) hne
  · intro m hm hne
    rcases List.mem_append.mp hm with hm | hm
    · exact h.sender m hm hne
    · exact absurd (hout m hm) hne
  · intro v l w hl hcost hne m hm hsrc hdst
    rcases List.mem_append.mp hm with hm | hm
    · exact h.pending v l w hl hcost hne m hm hsrc hdst
    · exact absurd (hsrc.symm.trans (hout m hm)) hne

omit [DecidableEq V] in
/-- Fewer messages in the same order keep the invariant. -/
theorem sublist (h : Invariant links D s) {flight : List (Message V)}
    (hsub : flight.Sublist s.flight) : Invariant links D { s with flight } := by
  refine ⟨h.dest, h.ordered.sublist hsub, ?_, h.linked, h.above, ?_⟩
  · exact fun m hm => h.sender m (hsub.subset hm)
  · exact fun v l w hl hcost hne m hm => h.pending v l w hl hcost hne m (hsub.subset hm)

section Accept

variable {before after out : List (Message V)} {m : Message V} {w : ℕ}

/-- The labels after an acceptance: ranks have not risen, and no label is lost. -/
theorem label_accept (h : Invariant links D s) (hm : m ∈ s.flight)
    (hcost : links.cost m.dst m.src = some w)
    (hadmits : ∀ l, s.label m.dst = some l → l.Admits D m.src m.rank w)
    (rest out : List (Message V)) {v : V} {l : Label V} (hl : s.label v = some l) :
    ∃ l', (s.accept m w rest out).label v = some l' ∧ l'.rank ≤ l.rank := by
  by_cases hv : v = m.dst
  · subst hv
    exact ⟨_, s.accept_label_self m w rest out, h.rank_le hm hl hcost (hadmits l hl)⟩
  · exact ⟨l, (s.accept_label_of_ne m w rest out hv).trans hl, le_rfl⟩

omit [DecidableEq V] in
/-- Behind the oldest message of a channel only messages of no higher rank are left. -/
theorem rank_le_of_first (h : Invariant links D s) (hflight : s.flight = before ++ m :: after)
    (hfirst : ∀ x ∈ before, x.src = m.src → x.dst ≠ m.dst) (hne : m.src ≠ D) {x : Message V}
    (hx : x ∈ before ++ after) (hsrc : x.src = m.src) (hdst : x.dst = m.dst) :
    x.rank ≤ m.rank := by
  rcases List.mem_append.mp hx with hx | hx
  · exact absurd hdst (hfirst x hx hsrc)
  · have hord := h.ordered
    rw [hflight] at hord
    have hlater := (List.pairwise_append.mp hord).2.1
    exact (List.pairwise_cons.mp hlater).1 x hx hne hsrc.symm hdst.symm

omit [DecidableEq V] in
/-- What a vertex has announced before ranks no lower than what it announces now. -/
theorem ordered_append (h : Invariant links D s) (hm : m ∈ s.flight)
    (hcost : links.cost m.dst m.src = some w)
    (hadmits : ∀ l, s.label m.dst = some l → l.Admits D m.src m.rank w)
    (hout : ∀ x ∈ out, x.src = m.dst ∧ x.rank = m.rank + w) {rest : List (Message V)}
    (hrest : rest.Sublist s.flight) :
    (rest ++ out).Pairwise fun x y =>
      x.src ≠ D → x.src = y.src → x.dst = y.dst → y.rank ≤ x.rank := by
  refine List.pairwise_append.mpr ⟨h.ordered.sublist hrest, ?_, ?_⟩
  · refine List.pairwise_of_forall_mem_list fun x hx y hy _ _ _ => ?_
    rw [(hout x hx).2, (hout y hy).2]
  · intro x hx y hy hne heq _
    obtain ⟨l, hl, hle⟩ := h.sender x (hrest.subset hx) hne
    rw [heq, (hout y hy).1] at hl
    have hadmitted := h.rank_le hm hl hcost (hadmits l hl)
    rw [(hout y hy).2]
    omega

/-- A message is accepted and announced further. -/
theorem accept (h : Invariant links D s) (hflight : s.flight = before ++ m :: after)
    (hfirst : ∀ x ∈ before, x.src = m.src → x.dst ≠ m.dst) (hdst : m.dst ≠ D)
    (hcost : links.cost m.dst m.src = some w)
    (hadmits : ∀ l, s.label m.dst = some l → l.Admits D m.src m.rank w)
    (hout : ∀ x ∈ out, x.src = m.dst ∧ x.rank = m.rank + w) :
    Invariant links D (s.accept m w (before ++ after) out) := by
  have hm : m ∈ s.flight := by simp [hflight]
  have hrest := State.rest_sublist hflight
  have hself := s.accept_label_self m w (before ++ after) out
  have hother {v : V} (hv : v ≠ m.dst) := s.accept_label_of_ne m w (before ++ after) out hv
  have hloop : m.src ≠ m.dst := by
    intro heq
    simp [heq, links.irrefl] at hcost
  have hrank {v : V} {l : Label V} (hl : s.label v = some l) :=
    h.label_accept hm hcost hadmits (before ++ after) out hl
  refine ⟨?_, h.ordered_append hm hcost hadmits hout hrest, ?_, ?_, ?_, ?_⟩
  · rw [hother (Ne.symm hdst), h.dest]
  · intro x hx hne
    rcases List.mem_append.mp hx with hx | hx
    · obtain ⟨l, hl, hle⟩ := h.sender x (hrest.subset hx) hne
      obtain ⟨l', hl', hle'⟩ := hrank hl
      exact ⟨l', hl', hle'.trans hle⟩
    · rw [(hout x hx).1, (hout x hx).2]
      exact ⟨_, hself, le_rfl⟩
  · intro v l hl
    by_cases hv : v = m.dst
    · subst hv
      obtain rfl := Option.some.inj (hself.symm.trans hl)
      exact ⟨w, hcost⟩
    · exact h.linked v l ((hother hv).symm.trans hl)
  · intro v l c hl hc hne
    by_cases hv : v = m.dst
    · subst hv
      obtain rfl := Option.some.inj (hself.symm.trans hl)
      obtain rfl := Option.some.inj (hcost.symm.trans hc)
      obtain ⟨l', hl', hle⟩ := h.sender m hm hne
      exact ⟨l', (hother hloop).trans hl', by dsimp only; omega⟩
    · obtain ⟨l', hl', hle⟩ := h.above v l c ((hother hv).symm.trans hl) hc hne
      obtain ⟨l'', hl'', hle'⟩ := hrank hl'
      exact ⟨l'', hl'', by omega⟩
  · intro v l c hl hc hne x hx hsrc hxdst
    by_cases hv : v = m.dst
    · subst hv
      obtain rfl := Option.some.inj (hself.symm.trans hl)
      obtain rfl := Option.some.inj (hcost.symm.trans hc)
      -- Only messages sent after `m` are left on its channel.
      rcases List.mem_append.mp hx with hx | hx
      · have hle := h.rank_le_of_first hflight hfirst hne hx hsrc hxdst
        dsimp only
        omega
      · exact absurd (hsrc.symm.trans (hout x hx).1) hloop
    · have hold := (hother hv).symm.trans hl
      rcases List.mem_append.mp hx with hx | hx
      · exact h.pending v l c hold hc hne x (hrest.subset hx) hsrc hxdst
      · obtain ⟨l', hl', hle⟩ := h.above v l c hold hc hne
        rw [← hsrc, (hout x hx).1] at hl'
        have := h.rank_le hm hl' hcost (hadmits l' hl')
        rw [(hout x hx).2]
        omega

end Accept

/-- One step. -/
theorem step (h : Invariant links D s) {s' : State V} (hstep : Step links D s s') :
    Invariant links D s' := by
  cases hstep with
  | originate hout => exact h.originate hout
  | discard hflight => exact h.sublist (State.rest_sublist hflight)
  | accept hflight hfirst hdst hcost hadmits hout =>
    exact h.accept hflight hfirst hdst hcost hadmits hout

omit [DecidableEq V] in
/-- The next hop of a vertex is the destination, or a vertex of lower rank with a route. -/
theorem nextHop_cases (h : Invariant links D s) {v : V} {l : Label V}
    (hl : s.label v = some l) :
    l.nextHop = D ∨ ∃ l', s.label l.nextHop = some l' ∧ l'.rank < l.rank := by
  by_cases hD : l.nextHop = D
  · exact .inl hD
  · obtain ⟨w, hw⟩ := h.linked v l hl
    obtain ⟨l', hl', hle⟩ := h.above v l w hl hw hD
    have := links.pos _ _ _ hw
    exact .inr ⟨l', hl', by omega⟩

omit [DecidableEq V] in
/-- Along a nonempty chain of next hops either the destination is reached, where no route
starts, or the rank falls. -/
theorem transGen_cases (h : Invariant links D s) {v u : V}
    (hvu : Relation.TransGen s.RoutesThrough v u) :
    ∃ l, s.label v = some l ∧ (u = D ∨ ∃ l', s.label u = some l' ∧ l'.rank < l.rank) := by
  induction hvu with
  | single hstep =>
    obtain ⟨l, hl, rfl⟩ := hstep
    exact ⟨l, hl, h.nextHop_cases hl⟩
  | tail _ hstep ih =>
    obtain ⟨l, hl, hmid⟩ := ih
    obtain ⟨l₁, hl₁, rfl⟩ := hstep
    refine ⟨l, hl, ?_⟩
    rcases hmid with rfl | ⟨l₂, hl₂, hlt⟩
    · simp [h.dest] at hl₁
    · obtain rfl := Option.some.inj (hl₁.symm.trans hl₂)
      rcases h.nextHop_cases hl₁ with hD | ⟨l', hl', hlt'⟩
      · exact .inl hD
      · exact .inr ⟨l', hl', hlt'.trans hlt⟩

omit [DecidableEq V] in
/-- The routes have no cycle. -/
theorem acyclic (h : Invariant links D s) (v : V) : ¬ Relation.TransGen s.RoutesThrough v v := by
  intro hvv
  obtain ⟨l, hl, rfl | ⟨l', hl', hlt⟩⟩ := h.transGen_cases hvv
  · simp [h.dest] at hl
  · obtain rfl := Option.some.inj (hl.symm.trans hl')
    exact absurd hlt (lt_irrefl _)

omit [DecidableEq V] in
/-- Every route leads to the destination. -/
theorem reaches (h : Invariant links D s) {v : V} {l : Label V} (hl : s.label v = some l) :
    Relation.TransGen s.RoutesThrough v D := by
  induction hr : l.rank using Nat.strong_induction_on generalizing v l with
  | _ r ih =>
    rcases h.nextHop_cases hl with hD | ⟨l', hl', hlt⟩
    · exact .single ⟨l, hl, hD⟩
    · exact .head ⟨l, hl, rfl⟩ (ih l'.rank (hr ▸ hlt) hl' rfl)

end Invariant

end DistanceVector
