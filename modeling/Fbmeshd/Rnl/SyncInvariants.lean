import Fbmeshd.Rnl.RouteSync

/-!
# Invariants of the synchronisations

The routes that a synchronisation adds come from its database, while it may delete any. What the
requests for such routes and the changes of the cache keep is kept by the whole synchronisation,
whether or not it throws.
-/

namespace Fbmeshd

open Fallible

namespace NetlinkSocket

variable {κ : Type*} [DecidableEq κ] {nl : NlSock κ} {A : Route → Prop}
  {J : NetlinkSocket κ → Prop} {s : NetlinkSocket κ}

omit [DecidableEq κ] in
/-- One cached route is erased. -/
theorem lookup_eraseUnicast (p q : UInt8) (d e : CIDRNetwork) (s : NetlinkSocket κ) :
    ((eraseUnicast p d s).unicastRoutesCache q).lookup e =
      if q = p ∧ e = d then none else (s.unicastRoutesCache q).lookup e :=
  AList.lookup_update_erase _ _ _ _ _

omit [DecidableEq κ] in
/-- One cached route is put in. -/
theorem lookup_emplaceUnicast (r : Route) (q : UInt8) (e : CIDRNetwork)
    (s : NetlinkSocket κ) :
    ((emplaceUnicast r s).unicastRoutesCache q).lookup e =
      if q = r.protocolId ∧ e = r.dst then some r else (s.unicastRoutesCache q).lookup e :=
  AList.lookup_update_insert _ _ _ _ _ _

omit [DecidableEq κ] in
/-- What holds of the cached routes of a protocol holds after one was erased. -/
theorem forall_lookup_eraseUnicast {q : UInt8} {Q : CIDRNetwork → Route → Prop}
    (h : ∀ d r, (s.unicastRoutesCache q).lookup d = some r → Q d r) (p : UInt8)
    (dest : CIDRNetwork) :
    ∀ d r, ((eraseUnicast p dest s).unicastRoutesCache q).lookup d = some r → Q d r := by
  intro d r hd
  rw [lookup_eraseUnicast] at hd
  split at hd
  next => simp at hd
  next => exact h d r hd

omit [DecidableEq κ] in
/-- And after another one was put in. -/
theorem forall_lookup_emplaceUnicast {q : UInt8} {Q : CIDRNetwork → Route → Prop}
    (h : ∀ d r, (s.unicastRoutesCache q).lookup d = some r → Q d r) {route : Route}
    (hroute : Q route.dst route) :
    ∀ d r, ((emplaceUnicast route s).unicastRoutesCache q).lookup d = some r → Q d r := by
  intro d r hd
  rw [lookup_emplaceUnicast] at hd
  split at hd
  next hnew =>
    cases hd
    rw [hnew.2]
    exact hroute
  next => exact h d r hd

/-- Requests to add a route with `A`, and to delete any, keep `J`. -/
structure RequestInvariant (nl : NlSock κ) (A : Route → Prop) (J : NetlinkSocket κ → Prop) :
    Prop where
  add : ∀ fail r, A r → Preserves J (request nl fail (.addRoute r))
  delete : ∀ fail r, Preserves J (request nl fail (.deleteRoute r))

/-- Changes of the unicast cache keep `J` as well. -/
structure UnicastInvariant (nl : NlSock κ) (A : Route → Prop) (J : NetlinkSocket κ → Prop) : Prop
    extends RequestInvariant nl A J where
  erase : ∀ protocol dest s, J s → J (eraseUnicast protocol dest s)
  emplace : ∀ r s, A r → J s → J (emplaceUnicast r s)

namespace UnicastInvariant

variable (h : UnicastInvariant nl A J)

include h

private theorem replaceUnicast {r : Route} (hr : A r) : Preserves J (replaceUnicast nl r) :=
  .andThen (fun s => h.erase _ _ s) (.andThen (h.add _ _ hr) fun s => h.emplace _ s hr)

/-- `doAddUpdateUnicastRoute` keeps the invariant. -/
theorem doAddUpdateUnicastRoute {r : Route} (hr : A r.withDefaultPriority) :
    Preserves J (doAddUpdateUnicastRoute nl r) := by
  intro s hJ
  obtain ⟨_, -, heq⟩ | ⟨-, ⟨-, heq⟩ | ⟨-, heq⟩ | ⟨old, -, heq⟩⟩ :=
    doAddUpdateUnicastRoute_cases nl r s <;> rw [heq]
  · exact hJ
  · exact hJ
  · exact h.replaceUnicast hr s hJ
  · exact Preserves.andThen (h.delete _ _) (h.replaceUnicast hr) s hJ

/-- So does one round of the deletions. -/
theorem deleteCached (protocol : UInt8) (dest : CIDRNetwork) :
    Preserves J (deleteCached nl protocol dest) := by
  intro s hJ
  unfold NetlinkSocket.deleteCached
  cases (s.unicastRoutesCache protocol).lookup dest with
  | none => exact hJ
  | some r =>
    obtain ⟨_, -, heq⟩ | ⟨-, ⟨-, heq⟩ | heq⟩ := doDeleteUnicastRoute_cases nl r s <;>
      dsimp only <;> rw [heq]
    · exact hJ
    · exact hJ
    · exact Preserves.andThen (h.delete _ _) (fun s => h.erase _ _ s) s hJ

/-- `doSyncUnicastRoutes` keeps the invariant. -/
theorem doSyncUnicastRoutes {order : IterationOrder CIDRNetwork} {protocol : UInt8}
    {db : NlUnicastRoutes} (hdb : ∀ d r, db.lookup d = some r → A r.withDefaultPriority) :
    Preserves J (doSyncUnicastRoutes nl order protocol db) := fun s =>
  Preserves.andThen (.forEach fun dest _ => h.deleteCached protocol dest)
    (.forEach fun _ he => h.doAddUpdateUnicastRoute (hdb _ _ (AList.mem_lookup_iff.mpr he))) s

end UnicastInvariant

namespace RequestInvariant

variable (h : RequestInvariant nl A J)

include h

/-- So does the deletion of a stale link route. -/
theorem deleteStaleLink (cache : NlLinkRoutes) (k : CIDRNetwork × String) :
    Preserves J (deleteStaleLink nl cache k) := by
  intro s hJ
  unfold NetlinkSocket.deleteStaleLink
  split
  · exact hJ
  · exact h.delete _ _ s hJ

/-- So does the addition of a new one. -/
theorem addNewLink {e : Σ _ : CIDRNetwork × String, Route} (he : A e.2) (cache : NlLinkRoutes) :
    Preserves J (addNewLink nl cache e) := by
  intro s hJ
  unfold NetlinkSocket.addNewLink
  split
  · exact hJ
  · exact h.add _ _ he s hJ

/-- `doSyncLinkRoutes` keeps the invariant, if the new cache does. -/
theorem doSyncLinkRoutes {protocol : UInt8} {db : NlLinkRoutes}
    (hdb : ∀ k r, db.lookup k = some r → A r)
    (hset : ∀ s, J s → J (setLinkRoutes protocol db s)) :
    Preserves J (doSyncLinkRoutes nl protocol db) := fun s =>
  Preserves.andThen (.forEach fun k _ => h.deleteStaleLink _ k)
    (.andThen (.forEach fun _ he => h.addNewLink (hdb _ _ (AList.mem_lookup_iff.mpr he)) _)
      fun s => hset s) s

end RequestInvariant

end NetlinkSocket

end Fbmeshd
