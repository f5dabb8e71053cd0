import Fbmeshd.Rnl.AddressSync

/-!
# What a synchronisation leaves behind

The addresses after a synchronisation follow from which of its requests were accepted. The
additions come first and change nothing that is there; the deletions leave the requested addresses
alone. So an address that was there and is requested is there at every moment. Whether the
addresses are the requested ones in the end depends on the answers, which are not looked at.
-/

namespace Fbmeshd

open Fallible

/-- The address has this place in the table of the kernel. -/
def IfAddress.IsAt (addr : IfAddress) (ifIndex : UInt32) (p : CIDRNetwork) : Prop :=
  addr.ifIndex = ifIndex ∧ addr.addrPrefix.map sentPrefix = some p

private theorem IfAddress.isAt_iff {addr : IfAddress} {ifIndex : UInt32} {p q : CIDRNetwork}
    (hq : addr.addrPrefix = some q) :
    addr.IsAt ifIndex p ↔ addr.ifIndex = ifIndex ∧ sentPrefix q = p := by
  simp [IsAt, hq]

/-- The request adds the address. -/
def AddressRequest.Adds (request : AddressRequest) (ifIndex : UInt32) (p : CIDRNetwork) : Prop :=
  ∃ addr, request = .add addr ∧ addr.IsAt ifIndex p

/-- The request deletes the address. -/
def AddressRequest.Deletes (request : AddressRequest) (ifIndex : UInt32) (p : CIDRNetwork) : Prop :=
  ∃ addr, request = .delete addr ∧ addr.IsAt ifIndex p

/-- A request to add the address was accepted. -/
def Added (xs : List AddressAttempt) (ifIndex : UInt32) (p : CIDRNetwork) : Prop :=
  ∃ x ∈ xs, x.Accepted ∧ x.request.Adds ifIndex p

/-- A request to delete the address was accepted. -/
def Deleted (xs : List AddressAttempt) (ifIndex : UInt32) (p : CIDRNetwork) : Prop :=
  ∃ x ∈ xs, x.Accepted ∧ x.request.Deletes ifIndex p

private theorem added_cons {x : AddressAttempt} {xs : List AddressAttempt} {ifIndex : UInt32}
    {p : CIDRNetwork} :
    Added (x :: xs) ifIndex p ↔ (x.Accepted ∧ x.request.Adds ifIndex p) ∨ Added xs ifIndex p := by
  simp [Added]

private theorem deleted_cons {x : AddressAttempt} {xs : List AddressAttempt} {ifIndex : UInt32}
    {p : CIDRNetwork} :
    Deleted (x :: xs) ifIndex p ↔
      (x.Accepted ∧ x.request.Deletes ifIndex p) ∨ Deleted xs ifIndex p := by
  simp [Deleted]

namespace AddressTable

variable {t : AddressTable} {ifIndex : UInt32} {p : CIDRNetwork} {addr : IfAddress}

private theorem set_self (scope : Option UInt8) : t.set ifIndex p scope ifIndex p = scope := by
  rw [set, Function.update_self, Function.update_self]

private theorem set_of_ne {i : UInt32} {q : CIDRNetwork} (h : ¬ (i = ifIndex ∧ q = p))
    (scope : Option UInt8) : t.set i q scope ifIndex p = t ifIndex p := by
  by_cases hindex : ifIndex = i
  · subst hindex
    rw [set, Function.update_self, Function.update_of_ne fun heq => h ⟨rfl, heq.symm⟩]
  · rw [set, Function.update_of_ne hindex]

/-- A request changes no address but its own. -/
theorem accept_of_not_isAt (request : AddressRequest) (h : ¬ request.addr.IsAt ifIndex p) :
    t.accept request ifIndex p = t ifIndex p := by
  cases request with
  | add addr =>
    cases hp : addr.addrPrefix with
    | none => simp only [accept, hp, Option.elim_none]
    | some q =>
      have hne := (IfAddress.isAt_iff hp).not.mp h
      simp only [accept, hp, Option.elim_some]
      split
      · exact set_of_ne hne _
      · rfl
  | delete addr =>
    cases hp : addr.addrPrefix with
    | none => simp only [accept, hp, Option.elim_none]
    | some q =>
      have hne := (IfAddress.isAt_iff hp).not.mp h
      simp only [accept, hp, Option.elim_some]
      exact set_of_ne hne _

private theorem accept_add (h : addr.IsAt ifIndex p) :
    t.accept (.add addr) ifIndex p =
      some ((t ifIndex p).getD (addr.scope.getD RT_SCOPE_UNIVERSE)) := by
  obtain ⟨rfl, hp⟩ := h
  obtain ⟨q, hq, rfl⟩ := Option.map_eq_some_iff.mp hp
  simp only [accept, hq, Option.elim_some]
  split
  next hnone => rw [set_self, hnone, Option.getD_none]
  next hsome =>
    obtain ⟨scope, hscope⟩ := Option.ne_none_iff_exists'.mp hsome
    rw [hscope, Option.getD_some]

private theorem accept_delete (h : addr.IsAt ifIndex p) :
    t.accept (.delete addr) ifIndex p = none := by
  obtain ⟨rfl, hp⟩ := h
  obtain ⟨q, hq, rfl⟩ := Option.map_eq_some_iff.mp hp
  simp only [accept, hq, Option.elim_some, set_self]

end AddressTable

/-- Requests with what came of them, from one table of addresses to another. -/
inductive AddressRun : AddressTable → List AddressAttempt → AddressTable → Prop
  | nil (t : AddressTable) : AddressRun t [] t
  | cons {t t' : AddressTable} {x : AddressAttempt} {xs : List AddressAttempt}
      (hx : x.table = if x.Accepted then t.accept x.request else t)
      (hrest : AddressRun x.table xs t') : AddressRun t (x :: xs) t'

/-- The kernel answers the `n`-th request in time, and accepts it if it could be sent. -/
def AddressSock.Accepts (nl : AddressSock) (n : ℕ) : Prop :=
  nl.timesOut n = false ∧ nl.reply n = 0

/-- A request is accepted if it can be encoded and the kernel accepts what comes at its place. -/
theorem AddressState.accepted_attempt_iff (nl : AddressSock) (s : AddressState)
    (request : AddressRequest) :
    (s.attempt nl request).Accepted ↔
      encodeIfAddress request.addr = .SUCCESS ∧ nl.Accepts s.attempts.length := by
  unfold AddressAttempt.Accepted attempt AddressSock.Accepts
  dsimp only
  cases encodeIfAddress request.addr <;> simp
  split <;> simp_all

/-- The requests of a fold over them are a run, and each is answered by its place. -/
theorem AddressState.run_after (nl : AddressSock) (requests : List AddressRequest)
    (s : AddressState) :
    ∃ xs, (requests.foldl (after nl) s).attempts = s.attempts ++ xs ∧
      xs.map AddressAttempt.request = requests ∧
      AddressRun s.table xs (requests.foldl (after nl) s).table ∧
      ∀ n x, xs[n]? = some x → (x.Accepted ↔ encodeIfAddress x.request.addr = .SUCCESS ∧
        nl.Accepts (s.attempts.length + n)) := by
  induction requests generalizing s with
  | nil => exact ⟨[], (List.append_nil _).symm, rfl, .nil _, by simp⟩
  | cons request requests ih =>
    obtain ⟨xs, hattempts, hrequests, hrun, haccepted⟩ := ih (s.after nl request)
    refine ⟨s.attempt nl request :: xs, ?_, ?_, .cons rfl hrun, fun n x hx => ?_⟩
    · rw [List.foldl_cons, hattempts, after, List.append_assoc, List.singleton_append]
    · rw [List.map_cons, hrequests]
      rfl
    · cases n with
      | zero =>
        obtain rfl := Option.some.inj hx
        exact s.accepted_attempt_iff nl request
      | succ n =>
        have hlength : (s.after nl request).attempts.length + n = s.attempts.length + (n + 1) := by
          rw [after, List.length_append, List.length_singleton]
          omega
        rw [← hlength]
        exact haccepted n x hx

section Step

variable {t : AddressTable} {x : AddressAttempt} {ifIndex : UInt32} {p : CIDRNetwork}

/-- What a request does to an address: it adds it unless it is there, it deletes it, or it leaves
it alone. -/
theorem AddressAttempt.step (hx : x.table = if x.Accepted then t.accept x.request else t) :
    (x.Accepted ∧ x.request.Adds ifIndex p ∧ x.table ifIndex p =
      some ((t ifIndex p).getD (x.request.addr.scope.getD RT_SCOPE_UNIVERSE))) ∨
    (x.Accepted ∧ x.request.Deletes ifIndex p ∧ x.table ifIndex p = none) ∨
    (¬ (x.Accepted ∧ x.request.Adds ifIndex p) ∧ ¬ (x.Accepted ∧ x.request.Deletes ifIndex p) ∧
      x.table ifIndex p = t ifIndex p) := by
  by_cases hacc : x.Accepted
  · rw [if_pos hacc] at hx
    by_cases hat : x.request.addr.IsAt ifIndex p
    · cases hrequest : x.request with
      | add addr =>
        rw [hrequest] at hx hat
        refine .inl ⟨hacc, ⟨addr, rfl, hat⟩, ?_⟩
        rw [hx]
        exact AddressTable.accept_add hat
      | delete addr =>
        rw [hrequest] at hx hat
        refine .inr (.inl ⟨hacc, ⟨addr, rfl, hat⟩, ?_⟩)
        rw [hx]
        exact AddressTable.accept_delete hat
    · refine .inr (.inr ⟨?_, ?_, by rw [hx, AddressTable.accept_of_not_isAt _ hat]⟩)
      · rintro ⟨-, addr, hrequest, haddr⟩
        rw [hrequest] at hat
        exact hat haddr
      · rintro ⟨-, addr, hrequest, haddr⟩
        rw [hrequest] at hat
        exact hat haddr
  · rw [if_neg hacc] at hx
    exact .inr (.inr ⟨fun h => hacc h.1, fun h => hacc h.1, by rw [hx]⟩)

end Step

namespace AddressRun

variable {t t' : AddressTable} {xs ys : List AddressAttempt} {ifIndex : UInt32} {p : CIDRNetwork}

private theorem split (h : AddressRun t (xs ++ ys) t') :
    ∃ t₁, AddressRun t xs t₁ ∧ AddressRun t₁ ys t' := by
  induction xs generalizing t with
  | nil => exact ⟨t, .nil t, h⟩
  | cons x xs ih =>
    cases h with
    | cons hx hrest =>
      obtain ⟨t₁, hfirst, hlast⟩ := ih hrest
      exact ⟨t₁, .cons hx hfirst, hlast⟩

/-- An address that is not deleted is there after every request. -/
theorem kept {scope : UInt8} (h : AddressRun t xs t') (ht : t ifIndex p = some scope)
    (hxs : ∀ x ∈ xs, ¬ x.request.Deletes ifIndex p) :
    t' ifIndex p = some scope ∧ ∀ x ∈ xs, x.table ifIndex p = some scope := by
  induction h with
  | nil => exact ⟨ht, List.forall_mem_nil _⟩
  | @cons t t' x xs hx _ ih =>
    obtain ⟨hhead, htail⟩ := List.forall_mem_cons.mp hxs
    have hnext : x.table ifIndex p = some scope := by
      rcases x.step hx (p := p) with ⟨-, -, hadd⟩ | ⟨-, hdelete, -⟩ | ⟨-, -, hsame⟩
      · rw [hadd, ht, Option.getD_some]
      · exact absurd hdelete hhead
      · exact hsame.trans ht
    obtain ⟨hend, hall⟩ := ih hnext htail
    exact ⟨hend, List.forall_mem_cons.mpr ⟨hnext, hall⟩⟩

/-- If nothing is deleted, an address that was missing is there once it has been added. -/
theorem added (h : AddressRun t xs t') (ht : t ifIndex p = none)
    (hxs : ∀ x ∈ xs, ¬ x.request.Deletes ifIndex p) :
    (¬ Added xs ifIndex p ∧ t' ifIndex p = none) ∨
      Added xs ifIndex p ∧ ∃ x ∈ xs, x.request.Adds ifIndex p ∧
        t' ifIndex p = some (x.request.addr.scope.getD RT_SCOPE_UNIVERSE) := by
  induction h with
  | nil => exact .inl ⟨by simp [Added], ht⟩
  | @cons t t' x xs hx hrest ih =>
    obtain ⟨hhead, htail⟩ := List.forall_mem_cons.mp hxs
    rw [added_cons]
    rcases x.step hx (p := p) with ⟨hacc, hadds, hnext⟩ | ⟨-, hdelete, -⟩ | ⟨hnot, -, hnext⟩
    · -- the first addition decides on the scope
      rw [ht, Option.getD_none] at hnext
      exact .inr ⟨.inl ⟨hacc, hadds⟩, x, List.mem_cons_self, hadds, (hrest.kept hnext htail).1⟩
    · exact absurd hdelete hhead
    · rcases ih (hnext.trans ht) htail with ⟨hnone, hend⟩ | ⟨hadded, y, hy, hadds, hend⟩
      · exact .inl ⟨not_or.mpr ⟨hnot, hnone⟩, hend⟩
      · exact .inr ⟨.inr hadded, y, List.mem_cons_of_mem _ hy, hadds, hend⟩

/-- If nothing is added, an address is as it was until it is deleted. -/
theorem deleted (h : AddressRun t xs t') (hxs : ∀ x ∈ xs, ¬ x.request.Adds ifIndex p) :
    (¬ Deleted xs ifIndex p ∧ t' ifIndex p = t ifIndex p) ∨
      Deleted xs ifIndex p ∧ t' ifIndex p = none := by
  induction h with
  | nil => exact .inl ⟨by simp [Deleted], rfl⟩
  | @cons t t' x xs hx hrest ih =>
    obtain ⟨hhead, htail⟩ := List.forall_mem_cons.mp hxs
    rw [deleted_cons]
    rcases x.step hx (p := p) with ⟨-, hadds, -⟩ | ⟨hacc, hdelete, hnext⟩ | ⟨-, hnot, hnext⟩
    · exact absurd hadds hhead
    · rw [hnext] at ih
      exact .inr ⟨.inl ⟨hacc, hdelete⟩, (ih htail).elim And.right And.right⟩
    · rcases ih htail with ⟨hnone, hend⟩ | ⟨hdeleted, hend⟩
      · exact .inl ⟨not_or.mpr ⟨hnot, hnone⟩, hend.trans hnext⟩
      · exact .inr ⟨.inr hdeleted, hend⟩

end AddressRun

/-! ### The synchronisation -/

/-- The address is requested. -/
def Requested (addrs : List IfAddress) (p : CIDRNetwork) : Prop :=
  ∃ addr ∈ addrs, addr.addrPrefix = some p

/-- The address is on the interface, with the family and the scope to synchronise. -/
def AddressTable.Managed (t : AddressTable) (ifIndex : UInt32) (family scope : UInt8)
    (p : CIDRNetwork) : Prop :=
  FamilyMatches family p ∧ ∃ addrScope, t ifIndex p = some addrScope ∧ ScopeMatches scope addrScope

/-- The requested addresses have the family and the scope to synchronise, and are written as the
kernel lists them. -/
structure RequestsMatch (addrs : List IfAddress) (family scope : UInt8) : Prop where
  family_matches : ∀ p, Requested addrs p → FamilyMatches family p
  scope_matches : ∀ addr ∈ addrs, ScopeMatches scope (addr.scope.getD RT_SCOPE_UNIVERSE)
  plain : ∀ p, Requested addrs p → p.1.Plain

/-- The kernel lists addresses that it has, none of them twice. It need not list all of them: the
status of the dump is not looked at. -/
structure AddressTable.Lists (t : AddressTable) (allAddrs : List IfAddress) : Prop where
  present : ∀ addr ∈ allAddrs, ∀ p, addr.addrPrefix = some p →
    t addr.ifIndex p = some (addr.scope.getD RT_SCOPE_UNIVERSE) ∧ p.1.Plain
  once : allAddrs.Pairwise fun a b =>
    a.ifIndex = b.ifIndex → a.addrPrefix = b.addrPrefix → a.addrPrefix = none

/-- No two of the addresses at hand are equal for `folly` and different for the kernel. -/
def AddressTable.ToldApart (ops : IPAddress.Operators) (t : AddressTable) (ifIndex : UInt32)
    (addrs : List IfAddress) : Prop :=
  ∀ p, t ifIndex p ≠ none ∨ Requested addrs p → ∀ q, t ifIndex q ≠ none ∨ Requested addrs q →
    ops.equal p.1 q.1 = true → p.1 = q.1

/-- A request of a synchronisation to delete a prefix. -/
def deletePrefix (ifIndex : UInt32) (scope : UInt8) (p : CIDRNetwork) : AddressRequest :=
  .delete { ifIndex, addrPrefix := some p, scope := some scope }

/-- How many of the listed addresses that are to be synchronised and not requested come before a
prefix. -/
def staleBefore (ops : IPAddress.Operators) (nl : AddressSock) (ifIndex : UInt32)
    (addrs : List IfAddress) (family scope : UInt8) (p : CIDRNetwork) : ℕ :=
  (nl.allAddrs.filterMap (IfAddress.selected ifIndex family scope)).countP fun q =>
    pairLess ops q p && !addrs.any (·.addrPrefix = some q)

/-- What a synchronisation does that completes with a value: it adds the requested addresses, then
it deletes those that are stale, each request being answered by its place. -/
structure SyncRun (ops : IPAddress.Operators) (nl : AddressSock) (ifIndex : UInt32)
    (addrs : List IfAddress) (family scope : UInt8) (t : AddressTable) (s : AddressState) where
  adds : List AddressAttempt
  deletes : List AddressAttempt
  between : AddressTable
  stale : List CIDRNetwork
  attempts_eq : s.attempts = adds ++ deletes
  run_adds : AddressRun t adds between
  run_deletes : AddressRun between deletes s.table
  requests_adds : adds.map AddressAttempt.request = addrs.map .add
  requests_deletes : deletes.map AddressAttempt.request = stale.map (deletePrefix ifIndex scope)
  index_eq : ∀ addr ∈ addrs, addr.ifIndex = ifIndex
  mem_stale : ∀ p ∈ stale, t.Managed ifIndex family scope p ∧ ¬ Requested addrs p ∧ p.1.Plain
  getElem?_stale : ∀ n p, stale[n]? = some p ↔
    p ∈ nl.allAddrs.filterMap (IfAddress.selected ifIndex family scope) ∧ ¬ Requested addrs p ∧
      n = staleBefore ops nl ifIndex addrs family scope p
  accepted_iff : ∀ n x, s.attempts[n]? = some x → (x.Accepted ↔
    encodeIfAddress x.request.addr = .SUCCESS ∧ nl.Accepts n)

/-- A plain address is written as it is sent, -/
theorem IPAddress.Plain.sentPrefix_eq {p : CIDRNetwork} (h : p.1.Plain) : sentPrefix p = p :=
  Prod.ext h.unscoped_eq rfl

/-- and can be encoded. -/
theorem IPAddress.Plain.encodeIfAddress_eq {p : CIDRNetwork} (h : p.1.Plain) {addr : IfAddress}
    (haddr : addr.addrPrefix = some p) : encodeIfAddress addr = .SUCCESS := by
  simp only [encodeIfAddress, haddr]
  refine if_neg fun hfamily => ?_
  cases hip : p.1 with
  | empty => exact h.ne_empty hip
  | v4 bytes => exact hfamily.1 (by rw [hip]; rfl)
  | v6 bytes scopeId => exact hfamily.2 (by rw [hip]; rfl)

section Sync

variable {ops : IPAddress.Operators} {nl : AddressSock} {ifIndex : UInt32}
  {addrs : List IfAddress} {family scope : UInt8} {t : AddressTable}

/-- The call completes with a value whatever the kernel answers, once its checks have passed. -/
theorem syncIfAddress_eq {newPrefixes : List CIDRNetwork} {oldAddrs : List IfAddress}
    (hnew : collectPrefixes ifIndex addrs = .ok newPrefixes)
    (hold : getIfAddrs ifIndex family scope nl.allAddrs = .ok oldAddrs) (s : AddressState) :
    syncIfAddress ops nl ifIndex addrs family scope s =
      ((addrs.map AddressRequest.add ++
          (toDeletePrefixes ops (oldAddrs.filterMap IfAddress.addrPrefix) newPrefixes).map
            (deletePrefix ifIndex scope)).foldl (AddressState.after nl) s, none) := by
  rw [syncIfAddress, doSyncIfAddress, hnew]
  dsimp only
  rw [hold]
  dsimp only
  rw [andThen_of_none (by rw [forEach_modify]), forEach_modify, forEach_modify, List.foldl_append,
    List.foldl_map, List.foldl_map]
  have hadds : addrs.foldl (fun s addr => (AddressState.addIfAddress nl addr s).1) s =
      addrs.foldl (fun s addr => s.after nl (.add addr)) s :=
    List.foldl_ext _ _ _ fun s addr haddr => by
      rw [AddressState.addIfAddress, if_neg ((mem_of_collectPrefixes hnew).1 addr haddr).2]
  rw [hadds]
  rfl

/-- A call that completes with a value has passed its checks. -/
theorem exists_checked
    (hvalue : (syncIfAddress ops nl ifIndex addrs family scope ⟨t, []⟩).2 = none) :
    ∃ newPrefixes oldAddrs, collectPrefixes ifIndex addrs = .ok newPrefixes ∧
      getIfAddrs ifIndex family scope nl.allAddrs = .ok oldAddrs := by
  rw [syncIfAddress, doSyncIfAddress] at hvalue
  cases hnew : collectPrefixes ifIndex addrs with
  | error ex =>
    rw [hnew] at hvalue
    cases hvalue
  | ok newPrefixes =>
    cases hold : getIfAddrs ifIndex family scope nl.allAddrs with
    | error ex =>
      rw [hnew, hold] at hvalue
      cases hvalue
    | ok oldAddrs => exact ⟨newPrefixes, oldAddrs, rfl, rfl⟩

/-- The addresses of the dump that are to be synchronised are there. -/
theorem mem_selected (hdump : t.Lists nl.allAddrs) {p : CIDRNetwork}
    (hp : p ∈ nl.allAddrs.filterMap (IfAddress.selected ifIndex family scope)) :
    t.Managed ifIndex family scope p ∧ p.1.Plain := by
  obtain ⟨addr, haddr, hselected⟩ := List.mem_filterMap.mp hp
  obtain ⟨hq, hfamily, hscope, rfl⟩ := IfAddress.selected_eq_some.mp hselected
  obtain ⟨hpresent, hplain⟩ := hdump.present addr haddr p hq
  exact ⟨⟨hfamily, _, hpresent, hscope⟩, hplain⟩

/-- An address that is there and is to be synchronised is among those of the dump if it is listed
at all. -/
theorem mem_selected_iff (hdump : t.Lists nl.allAddrs) {p : CIDRNetwork}
    (hmanaged : t.Managed ifIndex family scope p) :
    p ∈ nl.allAddrs.filterMap (IfAddress.selected ifIndex family scope) ↔
      ∃ addr ∈ nl.allAddrs, addr.ifIndex = ifIndex ∧ addr.addrPrefix = some p := by
  rw [List.mem_filterMap]
  refine exists_congr fun addr => and_congr_right fun haddr => ?_
  rw [IfAddress.selected_eq_some]
  constructor
  · rintro ⟨hp, -, -, hindex⟩
    exact ⟨hindex.symm, hp⟩
  · rintro ⟨rfl, hp⟩
    obtain ⟨hfamily, addrScope, hthere, hscope⟩ := hmanaged
    obtain ⟨hpresent, -⟩ := hdump.present addr haddr p hp
    obtain rfl := Option.some.inj (hpresent.symm.trans hthere)
    exact ⟨hp, hfamily, hscope, rfl⟩

private theorem AddressTable.Managed.ne_none {p : CIDRNetwork}
    (h : t.Managed ifIndex family scope p) :
    t ifIndex p ≠ none := by
  obtain ⟨-, addrScope, ht, -⟩ := h
  simp [ht]

/-- The prefixes that a synchronisation has at hand can be compared. -/
theorem comparable_atHand (hmatch : RequestsMatch addrs family scope)
    (hdump : t.Lists nl.allAddrs) (hequal : t.ToldApart ops ifIndex addrs) :
    Comparable ops fun p =>
      p ∈ nl.allAddrs.filterMap (IfAddress.selected ifIndex family scope) ∨
        Requested addrs p where
  plain p hp := hp.elim (fun hold => (mem_selected hdump hold).2) (hmatch.plain p)
  apart p hp q hq := hequal p (hp.imp_left fun hold => (mem_selected hdump hold).1.ne_none) q
    (hq.imp_left fun hold => (mem_selected hdump hold).1.ne_none)

/-- The addresses to delete are those of the dump that are to be synchronised and not requested, in
the order of their prefixes. -/
theorem getElem?_toDelete (hmatch : RequestsMatch addrs family scope)
    (hdump : t.Lists nl.allAddrs) (hequal : t.ToldApart ops ifIndex addrs)
    {newPrefixes : List CIDRNetwork} {oldAddrs : List IfAddress}
    (hnew : collectPrefixes ifIndex addrs = .ok newPrefixes)
    (hold : getIfAddrs ifIndex family scope nl.allAddrs = .ok oldAddrs) (n : ℕ)
    (p : CIDRNetwork) :
    (toDeletePrefixes ops (oldAddrs.filterMap IfAddress.addrPrefix) newPrefixes)[n]? = some p ↔
      p ∈ nl.allAddrs.filterMap (IfAddress.selected ifIndex family scope) ∧ ¬ Requested addrs p ∧
        n = staleBefore ops nl ifIndex addrs family scope p := by
  have hrequested := (mem_of_collectPrefixes hnew).2
  have hleft (q : CIDRNetwork) : (!addrs.any (·.addrPrefix = some q)) = true ↔ q ∉ newPrefixes := by
    rw [hrequested]
    simp
  rw [filterMap_of_getIfAddrs hold,
    (comparable_atHand hmatch hdump hequal).getElem?_toDeletePrefixes (fun p => .inl)
      (fun p hp => .inr ((hrequested p).mp hp)) (nodup_selected hdump.once) hleft, hrequested]
  rfl

private theorem exists_syncRun (hmatch : RequestsMatch addrs family scope)
    (hdump : t.Lists nl.allAddrs)
    (hequal : t.ToldApart ops ifIndex addrs)
    (hvalue : (syncIfAddress ops nl ifIndex addrs family scope ⟨t, []⟩).2 = none) :
    Nonempty (SyncRun ops nl ifIndex addrs family scope t
      (syncIfAddress ops nl ifIndex addrs family scope ⟨t, []⟩).1) := by
  obtain ⟨newPrefixes, oldAddrs, hnew, hold⟩ := exists_checked hvalue
  rw [syncIfAddress_eq hnew hold]
  obtain ⟨xs, hattempts, hrequests, hrun, haccepted⟩ := AddressState.run_after nl
    (addrs.map AddressRequest.add ++
      (toDeletePrefixes ops (oldAddrs.filterMap IfAddress.addrPrefix) newPrefixes).map
        (deletePrefix ifIndex scope)) ⟨t, []⟩
  obtain ⟨adds, deletes, rfl, hadds, hdeletes⟩ := List.map_eq_append_iff.mp hrequests
  obtain ⟨between, hfirst, hlast⟩ := hrun.split
  have hstale := getElem?_toDelete hmatch hdump hequal hnew hold
  refine ⟨{
    adds, deletes, between
    stale := toDeletePrefixes ops (oldAddrs.filterMap IfAddress.addrPrefix) newPrefixes
    attempts_eq := hattempts
    run_adds := hfirst
    run_deletes := hlast
    requests_adds := hadds
    requests_deletes := hdeletes
    index_eq := fun addr haddr => ((mem_of_collectPrefixes hnew).1 addr haddr).1
    mem_stale := fun p hp => ?_
    getElem?_stale := hstale
    accepted_iff := fun n x hx => ?_ }⟩
  · obtain ⟨n, hn⟩ := List.mem_iff_getElem?.mp hp
    obtain ⟨hselected, hnot, -⟩ := (hstale n p).mp hn
    obtain ⟨hmanaged, hplain⟩ := mem_selected hdump hselected
    exact ⟨hmanaged, hnot, hplain⟩
  · rw [hattempts] at hx
    have hplace := haccepted n x hx
    rwa [List.length_nil, Nat.zero_add] at hplace

end Sync

namespace SyncRun

variable {ops : IPAddress.Operators} {nl : AddressSock} {ifIndex : UInt32}
  {addrs : List IfAddress} {family scope : UInt8} {t : AddressTable} {s : AddressState}
  (r : SyncRun ops nl ifIndex addrs family scope t s) {i : UInt32} {p : CIDRNetwork}

include r

/-- The additions are about the requested addresses, place by place. -/
theorem getElem?_adds {n : ℕ} {x : AddressAttempt} (hx : r.adds[n]? = some x) :
    ∃ addr, addrs[n]? = some addr ∧ x.request = .add addr := by
  have hrequest : (r.adds.map AddressAttempt.request)[n]? = some x.request := by
    rw [List.getElem?_map, hx, Option.map_some]
  rw [r.requests_adds, List.getElem?_map, Option.map_eq_some_iff] at hrequest
  obtain ⟨addr, haddr, heq⟩ := hrequest
  exact ⟨addr, haddr, heq.symm⟩

/-- The deletions are about the stale addresses, place by place. -/
theorem getElem?_deletes {n : ℕ} {x : AddressAttempt} (hx : r.deletes[n]? = some x) :
    ∃ p, r.stale[n]? = some p ∧ x.request = deletePrefix ifIndex scope p := by
  have hrequest : (r.deletes.map AddressAttempt.request)[n]? = some x.request := by
    rw [List.getElem?_map, hx, Option.map_some]
  rw [r.requests_deletes, List.getElem?_map, Option.map_eq_some_iff] at hrequest
  obtain ⟨p, hp, heq⟩ := hrequest
  exact ⟨p, hp, heq.symm⟩

private theorem not_deletes_of_mem_adds {x : AddressAttempt} (hx : x ∈ r.adds) :
    ¬ x.request.Deletes i p := by
  rintro ⟨addr, hdelete, -⟩
  obtain ⟨n, hn⟩ := List.mem_iff_getElem?.mp hx
  obtain ⟨addr', -, hadd⟩ := r.getElem?_adds hn
  cases hadd.symm.trans hdelete

private theorem not_adds_of_mem_deletes {x : AddressAttempt} (hx : x ∈ r.deletes) :
    ¬ x.request.Adds i p := by
  rintro ⟨addr, hadd, -⟩
  obtain ⟨n, hn⟩ := List.mem_iff_getElem?.mp hx
  obtain ⟨q, -, hdelete⟩ := r.getElem?_deletes hn
  cases hadd.symm.trans hdelete

/-- An addition adds a requested address, with a scope to synchronise. -/
theorem adds_of_mem_adds (hmatch : RequestsMatch addrs family scope) {x : AddressAttempt} {n : ℕ}
    (hx : r.adds[n]? = some x) (hadds : x.request.Adds i p) :
    i = ifIndex ∧ (∃ addr, addrs[n]? = some addr ∧ addr.addrPrefix = some p) ∧
      ScopeMatches scope (x.request.addr.scope.getD RT_SCOPE_UNIVERSE) := by
  obtain ⟨addr, haddr, hrequest⟩ := r.getElem?_adds hx
  obtain ⟨addr', hrequest', rfl, hat⟩ := hadds
  cases hrequest.symm.trans hrequest'
  have hmem := List.mem_of_getElem? haddr
  obtain ⟨q, hq, rfl⟩ := Option.map_eq_some_iff.mp hat
  refine ⟨r.index_eq addr hmem, ⟨addr, haddr, ?_⟩, ?_⟩
  · rw [(hmatch.plain q ⟨addr, hmem, hq⟩).sentPrefix_eq, hq]
  · rw [hrequest]
    exact hmatch.scope_matches addr hmem

/-- A deletion deletes a stale address. -/
theorem deletes_of_mem_deletes {x : AddressAttempt} {n : ℕ} (hx : r.deletes[n]? = some x)
    (hdeletes : x.request.Deletes i p) : i = ifIndex ∧ r.stale[n]? = some p := by
  obtain ⟨q, hq, hrequest⟩ := r.getElem?_deletes hx
  obtain ⟨addr, hrequest', rfl, hat⟩ := hdeletes
  cases hrequest.symm.trans hrequest'
  have hsent := (r.mem_stale q (List.mem_of_getElem? hq)).2.2.sentPrefix_eq
  obtain rfl : q = p := hsent.symm.trans (Option.some.inj hat)
  exact ⟨rfl, hq⟩

private theorem stale_of_deletes {x : AddressAttempt} (hx : x ∈ r.deletes)
    (hdeletes : x.request.Deletes i p) :
    i = ifIndex ∧ t.Managed ifIndex family scope p ∧ ¬ Requested addrs p := by
  obtain ⟨n, hn⟩ := List.mem_iff_getElem?.mp hx
  obtain ⟨hindex, hstale⟩ := r.deletes_of_mem_deletes hn hdeletes
  obtain ⟨hmanaged, hnot, -⟩ := r.mem_stale p (List.mem_of_getElem? hstale)
  exact ⟨hindex, hmanaged, hnot⟩

private theorem added_iff : Added s.attempts i p ↔ Added r.adds i p := by
  rw [r.attempts_eq]
  constructor
  · rintro ⟨x, hx, hacc, hadds⟩
    rcases List.mem_append.mp hx with hx | hx
    · exact ⟨x, hx, hacc, hadds⟩
    · exact absurd hadds (r.not_adds_of_mem_deletes hx)
  · rintro ⟨x, hx, hadds⟩
    exact ⟨x, List.mem_append_left _ hx, hadds⟩

private theorem deleted_iff : Deleted s.attempts i p ↔ Deleted r.deletes i p := by
  rw [r.attempts_eq]
  constructor
  · rintro ⟨x, hx, hacc, hdeletes⟩
    rcases List.mem_append.mp hx with hx | hx
    · exact absurd hdeletes (r.not_deletes_of_mem_adds hx)
    · exact ⟨x, hx, hacc, hdeletes⟩
  · rintro ⟨x, hx, hdeletes⟩
    exact ⟨x, List.mem_append_right _ hx, hdeletes⟩

/-- The `n`-th request is the addition of the `n`-th address. -/
theorem added_iff_accepts (hmatch : RequestsMatch addrs family scope) :
    Added s.attempts ifIndex p ↔
      ∃ n addr, addrs[n]? = some addr ∧ addr.addrPrefix = some p ∧ nl.Accepts n := by
  rw [r.added_iff]
  constructor
  · rintro ⟨x, hx, hacc, hadds⟩
    obtain ⟨n, hn⟩ := List.mem_iff_getElem?.mp hx
    obtain ⟨-, ⟨addr, haddr, hp⟩, -⟩ := r.adds_of_mem_adds hmatch hn hadds
    refine ⟨n, addr, haddr, hp, ((r.accepted_iff n x ?_).mp hacc).2⟩
    rw [r.attempts_eq, List.getElem?_append_left (List.getElem?_eq_some_iff.mp hn).1, hn]
  · rintro ⟨n, addr, haddr, hp, haccepts⟩
    have hmem := List.mem_of_getElem? haddr
    have hplain := hmatch.plain p ⟨addr, hmem, hp⟩
    have hrequest : (r.adds.map AddressAttempt.request)[n]? = some (.add addr) := by
      rw [r.requests_adds, List.getElem?_map, haddr, Option.map_some]
    rw [List.getElem?_map, Option.map_eq_some_iff] at hrequest
    obtain ⟨x, hx, heq⟩ := hrequest
    refine ⟨x, List.mem_of_getElem? hx, (r.accepted_iff n x ?_).mpr ⟨?_, haccepts⟩, addr, heq,
      r.index_eq addr hmem, ?_⟩
    · rw [r.attempts_eq, List.getElem?_append_left (List.getElem?_eq_some_iff.mp hx).1, hx]
    · rw [heq]
      exact hplain.encodeIfAddress_eq hp
    · rw [hp, Option.map_some, hplain.sentPrefix_eq]

/-- The deletions come after the additions, in the order of the prefixes. -/
theorem deleted_iff_accepts (hdump : t.Lists nl.allAddrs)
    (hmanaged : t.Managed ifIndex family scope p) (hnot : ¬ Requested addrs p) :
    Deleted s.attempts ifIndex p ↔
      (∃ addr ∈ nl.allAddrs, addr.ifIndex = ifIndex ∧ addr.addrPrefix = some p) ∧
        nl.Accepts (addrs.length + staleBefore ops nl ifIndex addrs family scope p) := by
  have hlength : r.adds.length = addrs.length := by
    simpa using congrArg List.length r.requests_adds
  have hplace (n : ℕ) : s.attempts[addrs.length + n]? = r.deletes[n]? := by
    rw [r.attempts_eq, ← hlength, List.getElem?_append_right (Nat.le_add_right _ _),
      Nat.add_sub_cancel_left]
  rw [r.deleted_iff, ← mem_selected_iff hdump hmanaged]
  constructor
  · rintro ⟨x, hx, hacc, hdeletes⟩
    obtain ⟨n, hn⟩ := List.mem_iff_getElem?.mp hx
    obtain ⟨-, hstale⟩ := r.deletes_of_mem_deletes hn hdeletes
    obtain ⟨hselected, -, rfl⟩ := (r.getElem?_stale n p).mp hstale
    exact ⟨hselected, ((r.accepted_iff _ x ((hplace _).trans hn)).mp hacc).2⟩
  · rintro ⟨hselected, haccepts⟩
    have hstale := (r.getElem?_stale _ p).mpr ⟨hselected, hnot, rfl⟩
    have hplain := (r.mem_stale p (List.mem_of_getElem? hstale)).2.2
    have hrequest : (r.deletes.map AddressAttempt.request)[staleBefore ops nl ifIndex addrs family
        scope p]? = some (deletePrefix ifIndex scope p) := by
      rw [r.requests_deletes, List.getElem?_map, hstale, Option.map_some]
    rw [List.getElem?_map, Option.map_eq_some_iff] at hrequest
    obtain ⟨x, hx, heq⟩ := hrequest
    refine ⟨x, List.mem_of_getElem? hx,
      (r.accepted_iff _ x ((hplace _).trans hx)).mpr ⟨?_, haccepts⟩, _, heq, rfl, ?_⟩
    · rw [heq]
      exact hplain.encodeIfAddress_eq rfl
    · rw [Option.map_some, hplain.sentPrefix_eq]

/-- What becomes of an address that is there. -/
theorem present {addrScope : UInt8} (ht : t i p = some addrScope) :
    (¬ Deleted s.attempts i p ∧ s.table i p = some addrScope) ∨
      (Deleted s.attempts i p ∧ s.table i p = none ∧ i = ifIndex ∧
        t.Managed ifIndex family scope p ∧ ¬ Requested addrs p) := by
  have hbetween := (r.run_adds.kept ht fun x => r.not_deletes_of_mem_adds).1
  rw [r.deleted_iff]
  rcases r.run_deletes.deleted fun x => r.not_adds_of_mem_deletes with hkept | ⟨hdeleted, hend⟩
  · exact .inl ⟨hkept.1, hkept.2.trans hbetween⟩
  · obtain ⟨x, hx, -, hdeletes⟩ := id hdeleted
    exact .inr ⟨hdeleted, hend, r.stale_of_deletes hx hdeletes⟩

/-- What becomes of an address that is missing. -/
theorem absent (hmatch : RequestsMatch addrs family scope) (ht : t i p = none) :
    (¬ Added s.attempts i p ∧ s.table i p = none) ∨
      (Added s.attempts i p ∧ i = ifIndex ∧ Requested addrs p ∧
        ∃ addrScope, s.table i p = some addrScope ∧ ScopeMatches scope addrScope) := by
  -- it is not deleted, because what is deleted was there
  have hend : s.table i p = r.between i p := by
    rcases r.run_deletes.deleted fun x => r.not_adds_of_mem_deletes with hkept | ⟨hdeleted, -⟩
    · exact hkept.2
    · obtain ⟨x, hx, -, hdeletes⟩ := hdeleted
      obtain ⟨rfl, hmanaged, -⟩ := r.stale_of_deletes hx hdeletes
      exact absurd ht hmanaged.ne_none
  rw [r.added_iff, hend]
  rcases r.run_adds.added ht fun x => r.not_deletes_of_mem_adds with
    hnone | ⟨hadded, x, hx, hadds, hsome⟩
  · exact .inl hnone
  · obtain ⟨n, hn⟩ := List.mem_iff_getElem?.mp hx
    obtain ⟨rfl, ⟨addr, haddr, hp⟩, hscope⟩ := r.adds_of_mem_adds hmatch hn hadds
    exact .inr ⟨hadded, rfl, ⟨addr, List.mem_of_getElem? haddr, hp⟩, _, hsome, hscope⟩

/-- The addresses are the requested ones if every request that was needed was accepted. -/
theorem exact_iff (hmatch : RequestsMatch addrs family scope) :
    (∀ p, s.table.Managed ifIndex family scope p ↔ Requested addrs p) ↔
      (∀ p, Requested addrs p → t.Managed ifIndex family scope p ∨
        t ifIndex p = none ∧ Added s.attempts ifIndex p) ∧
      ∀ p, t.Managed ifIndex family scope p → ¬ Requested addrs p →
        Deleted s.attempts ifIndex p := by
  constructor
  · intro hexact
    refine ⟨fun p hp => ?_, fun p hp hnot => ?_⟩
    · obtain ⟨hfamily, addrScope, hend, hscope⟩ := (hexact p).mpr hp
      cases ht : t ifIndex p with
      | none =>
        rcases r.absent hmatch ht with ⟨-, hnone⟩ | ⟨hadded, -⟩
        · cases hnone.symm.trans hend
        · exact .inr ⟨rfl, hadded⟩
      | some before =>
        rcases r.present ht with ⟨-, hkept⟩ | ⟨-, -, -, hmanaged, -⟩
        · cases hkept.symm.trans hend
          exact .inl ⟨hfamily, addrScope, ht, hscope⟩
        · exact .inl hmanaged
    · obtain ⟨hfamily, addrScope, ht, hscope⟩ := hp
      rcases r.present ht with ⟨-, hkept⟩ | ⟨hdeleted, -⟩
      · exact absurd ((hexact p).mp ⟨hfamily, addrScope, hkept, hscope⟩) hnot
      · exact hdeleted
  · rintro ⟨hadds, hdeletes⟩ p
    constructor
    · rintro ⟨hfamily, addrScope, hend, hscope⟩
      cases ht : t ifIndex p with
      | none =>
        rcases r.absent hmatch ht with ⟨-, hnone⟩ | ⟨-, -, hrequested, -⟩
        · cases hnone.symm.trans hend
        · exact hrequested
      | some before =>
        rcases r.present ht with ⟨hnot, hkept⟩ | ⟨-, hnone, -⟩
        · cases hkept.symm.trans hend
          by_contra hrequested
          exact hnot (hdeletes p ⟨hfamily, addrScope, ht, hscope⟩ hrequested)
        · cases hnone.symm.trans hend
    · intro hp
      rcases hadds p hp with ⟨hfamily, addrScope, ht, hscope⟩ | ⟨ht, hadded⟩
      · rcases r.present ht with ⟨-, hkept⟩ | ⟨-, -, -, -, hnot⟩
        · exact ⟨hfamily, addrScope, hkept, hscope⟩
        · exact absurd hp hnot
      · rcases r.absent hmatch ht with ⟨hnot, -⟩ | ⟨-, -, -, hend⟩
        · exact absurd hadded hnot
        · exact ⟨hmatch.family_matches p hp, hend⟩

/-- The other addresses stay as they are. -/
theorem others_unchanged (hmatch : RequestsMatch addrs family scope) {addrScope : UInt8}
    (hother : i ≠ ifIndex ∨ ¬ FamilyMatches family p ∨ ¬ ScopeMatches scope addrScope) :
    s.table i p = some addrScope ↔ t i p = some addrScope := by
  cases ht : t i p with
  | none =>
    rcases r.absent hmatch ht with ⟨-, hnone⟩ | ⟨-, hindex, hrequested, after, hend, hscope⟩
    · rw [hnone]
    · -- an address that is added is one of those to synchronise
      have hfamily := hmatch.family_matches p hrequested
      refine iff_of_false (fun hsome => ?_) (by simp)
      cases hend.symm.trans hsome
      rcases hother with hne | hne | hne
      · exact hne hindex
      · exact hne hfamily
      · exact hne hscope
  | some before =>
    rcases r.present ht with ⟨-, hkept⟩ | ⟨-, hnone, hindex, ⟨hfamily, after, ht', hscope⟩, -⟩
    · rw [hkept]
    · rw [hnone]
      subst hindex
      cases ht.symm.trans ht'
      refine iff_of_false (by simp) (fun hsome => ?_)
      cases hsome
      rcases hother with hne | hne | hne
      · exact hne rfl
      · exact hne hfamily
      · exact hne hscope

/-- An address that is there and requested is there after every request. -/
theorem never_lost (ht : t ifIndex p ≠ none) (hp : Requested addrs p) {x : AddressAttempt}
    (hx : x ∈ s.attempts) : x.table ifIndex p = t ifIndex p := by
  obtain ⟨addrScope, ht⟩ := Option.ne_none_iff_exists'.mp ht
  obtain ⟨hbetween, hadds⟩ := r.run_adds.kept ht fun x => r.not_deletes_of_mem_adds
  have hspared (x : AddressAttempt) (hx : x ∈ r.deletes) : ¬ x.request.Deletes ifIndex p :=
    fun hdeletes => (r.stale_of_deletes hx hdeletes).2.2 hp
  obtain ⟨-, hdeletes⟩ := r.run_deletes.kept hbetween hspared
  rw [r.attempts_eq] at hx
  rcases List.mem_append.mp hx with hx | hx
  · exact (hadds x hx).trans ht.symm
  · exact (hdeletes x hx).trans ht.symm

end SyncRun

/-- An address of the subnet `10.6.0.0/24`. -/
def subnetPrefix (host : UInt8) : CIDRNetwork := (.v4 ⟨[10, 6, 0, host], rfl⟩, 24)

/-- The address on the third interface. -/
def subnetAddress (host : UInt8) : IfAddress where
  addrPrefix := some (subnetPrefix host)
  ifIndex := 3
  scope := some RT_SCOPE_UNIVERSE

/-- The third interface has one address of the subnet. -/
def oneAddress (host : UInt8) : AddressTable :=
  AddressTable.set (fun _ _ => none) 3 (subnetPrefix host) (some RT_SCOPE_UNIVERSE)

private theorem requested_subnetAddress {host : UInt8} {p : CIDRNetwork}
    (h : Requested [subnetAddress host] p) : p = subnetPrefix host := by
  obtain ⟨addr, haddr, hp⟩ := h
  cases List.mem_singleton.mp haddr
  exact (Option.some.inj hp).symm

private theorem requestsMatch_subnetAddress (host : UInt8) :
    RequestsMatch [subnetAddress host] AF_INET RT_SCOPE_UNIVERSE where
  family_matches p hp := by
    rw [requested_subnetAddress hp]
    exact .inr rfl
  scope_matches addr haddr := by
    cases List.mem_singleton.mp haddr
    exact .inr rfl
  plain p hp := by
    rw [requested_subnetAddress hp]
    exact ⟨IPAddress.noConfusion, rfl⟩

private theorem lists_oneAddress (host : UInt8) : (oneAddress host).Lists [subnetAddress host] where
  present addr haddr p hp := by
    cases List.mem_singleton.mp haddr
    cases Option.some.inj hp
    exact ⟨AddressTable.set_self _, IPAddress.noConfusion, rfl⟩
  once := List.pairwise_singleton _ _

private theorem eq_of_oneAddress {host : UInt8} {i : UInt32} {p : CIDRNetwork}
    (h : oneAddress host i p ≠ none) : i = 3 ∧ p = subnetPrefix host := by
  by_contra hne
  exact h (AddressTable.set_of_ne (fun heq => hne ⟨heq.1.symm, heq.2.symm⟩) _)

private theorem toldApart_oneAddress (ops : IPAddress.Operators) (old new : UInt8) :
    (oneAddress old).ToldApart ops 3 [subnetAddress new] := by
  have hv4 (p : CIDRNetwork) (hp : oneAddress old 3 p ≠ none ∨ Requested [subnetAddress new] p) :
      ∃ bytes, p.1 = .v4 bytes := by
    rcases hp with hp | hp
    · exact ⟨_, congrArg Prod.fst (eq_of_oneAddress hp).2⟩
    · exact ⟨_, congrArg Prod.fst (requested_subnetAddress hp)⟩
  intro p hp q hq hequal
  obtain ⟨as, has⟩ := hv4 p hp
  obtain ⟨bs, hbs⟩ := hv4 q hq
  exact (ops.equal_iff_of_family (by rw [has, hbs]; rfl)).mp hequal

/-- To replace an address takes an addition and a deletion. -/
theorem syncIfAddress_subnet (nl : AddressSock) (hdump : nl.allAddrs = [subnetAddress 1])
    (s : AddressState) :
    syncIfAddress .byRank nl 3 [subnetAddress 2] AF_INET RT_SCOPE_UNIVERSE s =
      ((s.after nl (.add (subnetAddress 2))).after nl
        (deletePrefix 3 RT_SCOPE_UNIVERSE (subnetPrefix 1)), none) := by
  have hnew : collectPrefixes 3 [subnetAddress 2] = .ok [subnetPrefix 2] := rfl
  have hold : getIfAddrs 3 AF_INET RT_SCOPE_UNIVERSE nl.allAddrs = .ok [subnetAddress 1] := by
    rw [hdump]
    rfl
  have holdPrefixes : [subnetAddress 1].filterMap IfAddress.addrPrefix = [subnetPrefix 1] := rfl
  have hdelete : toDeletePrefixes .byRank [subnetPrefix 1] [subnetPrefix 2] =
      [subnetPrefix 1] := by decide
  rw [syncIfAddress_eq hnew hold, holdPrefixes, hdelete]
  rfl

end Fbmeshd
