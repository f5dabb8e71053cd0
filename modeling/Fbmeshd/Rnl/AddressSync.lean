import Fbmeshd.Lib.SetDifference
import Fbmeshd.Rnl.AddressOrder
import Fbmeshd.Rnl.NetlinkSocket

/-!
# Synchronising the addresses of an interface

`syncIfAddress` asks the kernel for the addresses of an interface, adds the requested ones and
deletes those that were there and are not requested. Each request returns a future, which is not
looked at. So the call succeeds whatever becomes of its requests.

The comparisons of addresses do not tell an IPv4 address from the IPv6 address it is mapped to.
-/

namespace Fbmeshd

open Fallible SetDifference

/-- The addresses of the kernel with their scopes, by interface and prefix. -/
abbrev AddressTable := UInt32 → CIDRNetwork → Option UInt8

/-- The requests for addresses. -/
inductive AddressRequest where
  | add (addr : IfAddress)
  | delete (addr : IfAddress)
  deriving DecidableEq

/-- The address that the request is about. -/
def AddressRequest.addr : AddressRequest → IfAddress
  | .add addr => addr
  | .delete addr => addr

/-- A prefix as it is sent. -/
def sentPrefix (p : CIDRNetwork) : CIDRNetwork := (p.1.unscoped, p.2)

namespace AddressTable

/-- Set or remove one address. -/
def set (t : AddressTable) (ifIndex : UInt32) (p : CIDRNetwork) (scope : Option UInt8) :
    AddressTable :=
  Function.update t ifIndex (Function.update (t ifIndex) p scope)

/-- The kernel accepts a request. The messages do not ask to replace an address that is there. -/
def accept (t : AddressTable) : AddressRequest → AddressTable
  | .add addr =>
    addr.addrPrefix.elim t fun p =>
      if t addr.ifIndex (sentPrefix p) = none then
        t.set addr.ifIndex (sentPrefix p) (some (addr.scope.getD RT_SCOPE_UNIVERSE))
      else t
  | .delete addr => addr.addrPrefix.elim t fun p => t.set addr.ifIndex (sentPrefix p) none

end AddressTable

/-- What address requests depend on: the error code, `0` for none, of the reply to the `n`-th
request, whether the wait for it times out, and what `getAllIfAddresses` returns. -/
structure AddressSock where
  reply : ℕ → ℕ
  timesOut : ℕ → Bool := fun _ => false
  allAddrs : List IfAddress

/-- A request, what came of it and the addresses afterwards. -/
structure AddressAttempt where
  request : AddressRequest
  outcome : Outcome
  table : AddressTable

/-- The kernel accepted the request. -/
def AddressAttempt.Accepted (x : AddressAttempt) : Prop := x.outcome = .answered 0

instance (x : AddressAttempt) : Decidable x.Accepted := inferInstanceAs (Decidable (_ = _))

/-- The addresses of the kernel and the requests so far. -/
structure AddressState where
  table : AddressTable
  attempts : List AddressAttempt := []

/-- The exceptions of the calls for addresses. -/
inductive IfAddressException where
  /-- "Failed to add If Address" -/
  | failedToAdd
  /-- "Failed to delete If Address" -/
  | failedToDelete
  /-- "Prefix must be set" -/
  | prefixNotSet
  /-- "Inconsistent ifIndex in addrs" -/
  | inconsistentIfIndex
  /-- "Prefix must be set when sync addresses" -/
  | prefixNotSetInSync
  /-- `folly::OptionalEmptyException` of an address with neither a prefix nor a family. -/
  | optionalEmpty
  deriving DecidableEq

/-- The status of a call, by `getReturnStatus` if the request was sent. -/
def Outcome.status (ignoredErrors : List ℕ) : Outcome → ResultCode
  | .notSent status => status
  | .answered errno => if errno ≠ 0 ∧ errno ∉ ignoredErrors then .SYSERR else .SUCCESS
  | .timedOut => .TIMEOUT

/-- `addOrDeleteIfAddress`; the attributes always fit into the message. -/
def encodeIfAddress (addr : IfAddress) : ResultCode :=
  match addr.addrPrefix with
  | none => .NO_IP
  | some p =>
    if p.1.family ≠ AF_INET ∧ p.1.family ≠ AF_INET6 then .INVALID_ADDRESS_FAMILY else .SUCCESS

namespace AddressState

variable (nl : AddressSock)

/-- What comes of a request in the present state. -/
def attempt (s : AddressState) (request : AddressRequest) : AddressAttempt :=
  let outcome :=
    match encodeIfAddress request.addr with
    | .SUCCESS =>
      if nl.timesOut s.attempts.length then .timedOut
      else .answered (nl.reply s.attempts.length)
    | status => .notSent status
  { request, outcome, table := if outcome = .answered 0 then s.table.accept request else s.table }

/-- The state after a request. -/
def after (s : AddressState) (request : AddressRequest) : AddressState :=
  let x := s.attempt nl request
  { table := x.table, attempts := s.attempts ++ [x] }

/-- `addIfAddress`. An address without a prefix has no family that `getFamily` could return. -/
def addIfAddress (addr : IfAddress) : Action AddressState IfAddressException := fun s =>
  if addr.addrPrefix = none then (s, some .optionalEmpty)
  else (s.after nl (.add addr),
    if (s.attempt nl (.add addr)).outcome.status [EEXIST] = .SUCCESS then none
    else some .failedToAdd)

/-- `delIfAddress`. -/
def delIfAddress (addr : IfAddress) : Action AddressState IfAddressException := fun s =>
  if addr.addrPrefix = none then (s, some .prefixNotSet)
  else (s.after nl (.delete addr),
    if (s.attempt nl (.delete addr)).outcome.status [EADDRNOTAVAIL] = .SUCCESS then none
    else some .failedToDelete)

end AddressState

/-- The family is among those to synchronise. -/
def FamilyMatches (family : UInt8) (p : CIDRNetwork) : Prop :=
  family = AF_UNSPEC ∨ family = p.1.family

/-- The scope is among those to synchronise. -/
def ScopeMatches (scope addrScope : UInt8) : Prop :=
  scope = RT_SCOPE_NOWHERE ∨ scope = addrScope

instance (family : UInt8) (p : CIDRNetwork) : Decidable (FamilyMatches family p) :=
  inferInstanceAs (Decidable (_ ∨ _))

instance (scope addrScope : UInt8) : Decidable (ScopeMatches scope addrScope) :=
  inferInstanceAs (Decidable (_ ∨ _))

/-- `getIfAddrs`, from the addresses of all interfaces. -/
def getIfAddrs (ifIndex : UInt32) (family scope : UInt8) :
    List IfAddress → Except IfAddressException (List IfAddress)
  | [] => .ok []
  | addr :: allAddrs =>
    match addr.addrPrefix with
    | none =>
      if family ≠ AF_UNSPEC then .error .optionalEmpty
      else getIfAddrs ifIndex family scope allAddrs
    | some p => do
      let addrs ← getIfAddrs ifIndex family scope allAddrs
      if FamilyMatches family p ∧ ScopeMatches scope (addr.scope.getD RT_SCOPE_UNIVERSE) ∧
          ifIndex = addr.ifIndex then
        .ok ({ addrPrefix := some p, ifIndex, scope := some scope } :: addrs)
      else .ok addrs

/-- The checks of `doSyncIfAddress`, which collect the prefixes. -/
def collectPrefixes (ifIndex : UInt32) :
    List IfAddress → Except IfAddressException (List CIDRNetwork)
  | [] => .ok []
  | addr :: addrs =>
    if addr.ifIndex ≠ ifIndex then .error .inconsistentIfIndex
    else
      match addr.addrPrefix with
      | none => .error .prefixNotSetInSync
      | some p => do
        let prefixes ← collectPrefixes ifIndex addrs
        .ok (p :: prefixes)

section Comparison

variable (ops : IPAddress.Operators)

/-- `PrefixCmp`. -/
def prefixCmp (lhs rhs : CIDRNetwork) : Bool :=
  if !ops.equal lhs.1 rhs.1 then ops.less lhs.1 rhs.1 else lhs.2 < rhs.2

/-- `operator<` of a pair. -/
def pairLess (lhs rhs : CIDRNetwork) : Bool :=
  ops.less lhs.1 rhs.1 || (!ops.less rhs.1 lhs.1 && lhs.2 < rhs.2)

/-- The prefixes to delete. -/
def toDeletePrefixes (oldPrefixes newPrefixes : List CIDRNetwork) : List CIDRNetwork :=
  difference (pairLess ops) (sort (prefixCmp ops) oldPrefixes) (sort (prefixCmp ops) newPrefixes)

end Comparison

section Sync

variable (ops : IPAddress.Operators) (nl : AddressSock)

/-- `doSyncIfAddress`. The futures of its requests are dropped. -/
def doSyncIfAddress (ifIndex : UInt32) (addrs : List IfAddress) (family scope : UInt8) :
    Action AddressState IfAddressException := fun s =>
  match collectPrefixes ifIndex addrs with
  | .error ex => (s, some ex)
  | .ok newPrefixes =>
    match getIfAddrs ifIndex family scope nl.allAddrs with
    | .error ex => (s, some ex)
    | .ok oldAddrs =>
      let oldPrefixes := oldAddrs.filterMap IfAddress.addrPrefix
      andThen
        (forEach (fun addr => modify fun s => (AddressState.addIfAddress nl addr s).1) addrs)
        (forEach (fun toDel => modify fun s =>
          (AddressState.delIfAddress nl
            { ifIndex, addrPrefix := some toDel, scope := some scope } s).1)
          (toDeletePrefixes ops oldPrefixes newPrefixes)) s

/-- `syncIfAddress`: the future holds what `doSyncIfAddress` throws. -/
def syncIfAddress (ifIndex : UInt32) (addrs : List IfAddress) (family scope : UInt8) :
    Action AddressState IfAddressException :=
  doSyncIfAddress ops nl ifIndex addrs family scope

end Sync

/-! ### Which addresses are deleted -/

section Comparison

variable {ops : IPAddress.Operators}

/-- The prefixes at hand: their addresses are plain, and `operator==` tells them apart. -/
structure Comparable (ops : IPAddress.Operators) (P : CIDRNetwork → Prop) : Prop where
  plain : ∀ p, P p → p.1.Plain
  apart : ∀ p, P p → ∀ q, P q → ops.equal p.1 q.1 = true → p.1 = q.1

variable {P : CIDRNetwork → Prop} (hP : Comparable ops P) {p q : CIDRNetwork}

include hP

/-- The addresses of two prefixes are the same, or one of them is less. -/
theorem Comparable.cases (hp : P p) (hq : P q) :
    p.1 = q.1 ∧ ops.less p.1 q.1 = false ∧ ops.less q.1 p.1 = false ∨
      ops.equal p.1 q.1 = false ∧
        (ops.less p.1 q.1 = true ∧ ops.less q.1 p.1 = false ∨
          ops.less p.1 q.1 = false ∧ ops.less q.1 p.1 = true) := by
  have hp' := hP.plain p hp
  have hq' := hP.plain q hq
  cases hequal : ops.equal p.1 q.1 with
  | true =>
    exact .inl ⟨hP.apart p hp q hq hequal, ops.not_less_of_equal hp' hq' hequal,
      ops.not_less_of_equal hq' hp' (ops.equal_symm hequal)⟩
  | false =>
    refine .inr ⟨rfl, ?_⟩
    rcases ops.less_total hp' hq' hequal with hless | hless
    · exact .inl ⟨hless, ops.less_asymm hp' hq' hless⟩
    · exact .inr ⟨ops.less_asymm hq' hp' hless, hless⟩

/-- The lists are sorted in the order in which they are compared. -/
theorem Comparable.prefixCmp_eq (hp : P p) (hq : P q) : prefixCmp ops p q = pairLess ops p q := by
  rcases hP.cases hp hq with ⟨heq, hpq, hqp⟩ | ⟨hequal, ⟨hpq, hqp⟩ | ⟨hpq, hqp⟩⟩
  · rw [heq] at hpq
    simp [prefixCmp, pairLess, heq, hpq]
  · simp [prefixCmp, pairLess, hequal, hpq]
  · simp [prefixCmp, pairLess, hequal, hpq, hqp]

/-- One prefix is less than another by its address or, for the same address, by its length. -/
theorem Comparable.pairLess_iff (hp : P p) (hq : P q) :
    pairLess ops p q = true ↔ ops.less p.1 q.1 = true ∨ p.1 = q.1 ∧ p.2 < q.2 := by
  have hirrefl : ops.less q.1 q.1 = false :=
    ops.not_less_of_equal (hP.plain q hq) (hP.plain q hq) (ops.equal_refl _)
  rcases hP.cases hp hq with ⟨heq, hpq, hqp⟩ | ⟨hequal, ⟨hpq, hqp⟩ | ⟨hpq, hqp⟩⟩
  · simp [pairLess, heq, hirrefl]
  · simp [pairLess, hpq]
  · have hne : p.1 ≠ q.1 := fun heq => by simp [heq] at hequal
    simp [pairLess, hpq, hqp, hne]

/-- Among the prefixes at hand the comparison is an order. -/
theorem Comparable.strictTotal : StrictTotal fun a b : {p // P p} => pairLess ops a b where
  asymm {a b} hab := by
    rw [hP.pairLess_iff a.2 b.2] at hab
    rw [← Bool.not_eq_true, hP.pairLess_iff b.2 a.2]
    have ha := hP.plain _ a.2
    have hb := hP.plain _ b.2
    rintro (hba | ⟨heq, hlen⟩)
    · rcases hab with hab | ⟨heq, -⟩
      · simp [ops.less_asymm ha hb hab] at hba
      · simp [heq, ops.not_less_of_equal hb hb (ops.equal_refl _)] at hba
    · rcases hab with hab | ⟨-, hlen'⟩
      · simp [heq, ops.not_less_of_equal ha ha (ops.equal_refl _)] at hab
      · exact absurd hlen (UInt8.lt_asymm hlen')
  trans {a b c} hab hbc := by
    rw [hP.pairLess_iff a.2 b.2] at hab
    rw [hP.pairLess_iff b.2 c.2] at hbc
    rw [hP.pairLess_iff a.2 c.2]
    rcases hab with hab | ⟨hab, hlen⟩
    · rcases hbc with hbc | ⟨hbc, -⟩
      · exact .inl (ops.less_trans (hP.plain _ a.2) (hP.plain _ b.2) (hP.plain _ c.2) hab hbc)
      · exact .inl (hbc ▸ hab)
    · rcases hbc with hbc | ⟨hbc, hlen'⟩
      · exact .inl (hab ▸ hbc)
      · exact .inr ⟨hab.trans hbc, UInt8.lt_trans hlen hlen'⟩
  total {a b} hab hba := by
    rw [← Bool.not_eq_true, hP.pairLess_iff a.2 b.2, not_or, not_and] at hab
    rw [← Bool.not_eq_true, hP.pairLess_iff b.2 a.2, not_or, not_and] at hba
    rcases hP.cases a.2 b.2 with ⟨heq, -⟩ | ⟨-, ⟨hless, -⟩ | ⟨-, hless⟩⟩
    · have hlen := UInt8.le_antisymm (UInt8.not_lt.mp (hba.2 heq.symm))
        (UInt8.not_lt.mp (hab.2 heq))
      exact Subtype.ext (Prod.ext heq hlen)
    · exact absurd hless hab.1
    · exact absurd hless hba.1

/-- The prefixes to delete are those that are not new, in their order. -/
theorem Comparable.getElem?_toDeletePrefixes {oldPrefixes newPrefixes : List CIDRNetwork}
    (hold : ∀ p ∈ oldPrefixes, P p) (hnew : ∀ p ∈ newPrefixes, P p) (honce : oldPrefixes.Nodup)
    {isLeft : CIDRNetwork → Bool} (hleft : ∀ q, isLeft q = true ↔ q ∉ newPrefixes) {n : ℕ} :
    (toDeletePrefixes ops oldPrefixes newPrefixes)[n]? = some p ↔
      p ∈ oldPrefixes ∧ p ∉ newPrefixes ∧
        n = oldPrefixes.countP fun q => pairLess ops q p && isLeft q :=
  getElem?_difference_sort_on hP.strictTotal (fun _ _ => hP.prefixCmp_eq) hold hnew honce hleft

end Comparison

/-- The prefixes that were asked for, all of one interface. -/
theorem mem_of_collectPrefixes {ifIndex : UInt32} {addrs : List IfAddress}
    {prefixes : List CIDRNetwork} (h : collectPrefixes ifIndex addrs = .ok prefixes) :
    (∀ addr ∈ addrs, addr.ifIndex = ifIndex ∧ addr.addrPrefix ≠ none) ∧
      ∀ p, p ∈ prefixes ↔ ∃ addr ∈ addrs, addr.addrPrefix = some p := by
  induction addrs generalizing prefixes with
  | nil =>
    obtain rfl := Except.ok.inj h
    simp
  | cons addr addrs ih =>
    rw [collectPrefixes] at h
    split at h
    · cases h
    next hindex =>
      split at h
      · cases h
      next p hp =>
        cases hrest : collectPrefixes ifIndex addrs with
        | error ex =>
          rw [hrest] at h
          cases h
        | ok rest =>
          rw [hrest] at h
          obtain rfl := Except.ok.inj h
          obtain ⟨haddrs, hmem⟩ := ih hrest
          have haddr : addr.addrPrefix ≠ none := by simp [hp]
          refine ⟨List.forall_mem_cons.mpr ⟨⟨not_not.mp hindex, haddr⟩, haddrs⟩, fun q => ?_⟩
          simp only [List.mem_cons, hmem, exists_eq_or_imp, hp, Option.some.injEq]
          rw [eq_comm]

/-- The prefix of an address that is one of those to synchronise. -/
def IfAddress.selected (ifIndex : UInt32) (family scope : UInt8) (addr : IfAddress) :
    Option CIDRNetwork :=
  addr.addrPrefix.filter fun p => FamilyMatches family p ∧
    ScopeMatches scope (addr.scope.getD RT_SCOPE_UNIVERSE) ∧ ifIndex = addr.ifIndex

section Old

variable {ifIndex : UInt32} {family scope : UInt8} {allAddrs oldAddrs : List IfAddress}

/-- Which prefixes are compared with them. -/
theorem IfAddress.selected_eq_some {addr : IfAddress} {p : CIDRNetwork} :
    addr.selected ifIndex family scope = some p ↔
      addr.addrPrefix = some p ∧ FamilyMatches family p ∧
        ScopeMatches scope (addr.scope.getD RT_SCOPE_UNIVERSE) ∧ ifIndex = addr.ifIndex := by
  simp [selected, Option.filter_eq_some_iff]

/-- The prefixes of `getIfAddrs` are the selected ones of the dump. -/
theorem filterMap_of_getIfAddrs (h : getIfAddrs ifIndex family scope allAddrs = .ok oldAddrs) :
    oldAddrs.filterMap IfAddress.addrPrefix =
      allAddrs.filterMap (IfAddress.selected ifIndex family scope) := by
  induction allAddrs generalizing oldAddrs with
  | nil =>
    obtain rfl := Except.ok.inj h
    rfl
  | cons addr allAddrs ih =>
    rw [getIfAddrs] at h
    cases hp : addr.addrPrefix with
    | none =>
      rw [hp] at h
      dsimp only at h
      split at h
      · cases h
      · rw [List.filterMap_cons, IfAddress.selected, hp, Option.filter_none]
        exact ih h
    | some p =>
      rw [hp] at h
      cases hrest : getIfAddrs ifIndex family scope allAddrs with
      | error ex =>
        rw [hrest] at h
        cases h
      | ok rest =>
        rw [hrest] at h
        change (if _ then _ else _) = _ at h
        split at h
        next hkeep =>
          obtain rfl := Except.ok.inj h
          have hselected := IfAddress.selected_eq_some.mpr ⟨hp, hkeep⟩
          rw [List.filterMap_cons, List.filterMap_cons, hselected]
          exact congrArg _ (ih hrest)
        next hskip =>
          obtain rfl := Except.ok.inj h
          have hselected : addr.selected ifIndex family scope = none :=
            Option.eq_none_iff_forall_ne_some.mpr fun q hq => by
              obtain ⟨hq, hkeep⟩ := IfAddress.selected_eq_some.mp hq
              obtain rfl := Option.some.inj (hp.symm.trans hq)
              exact hskip hkeep
          rw [List.filterMap_cons, hselected]
          exact ih hrest

/-- They are different if the dump lists an address once. -/
theorem nodup_selected
    (honce : allAddrs.Pairwise fun a b =>
      a.ifIndex = b.ifIndex → a.addrPrefix = b.addrPrefix → a.addrPrefix = none) :
    (allAddrs.filterMap (IfAddress.selected ifIndex family scope)).Nodup := by
  rw [List.Nodup, List.pairwise_filterMap]
  refine honce.imp fun {a b} hab p hp q hq hpq => ?_
  obtain ⟨hp, -, -, hindex⟩ := IfAddress.selected_eq_some.mp hp
  obtain ⟨hq, -, -, hindex'⟩ := IfAddress.selected_eq_some.mp hq
  have hnone := hab (hindex.symm.trans hindex') (by rw [hp, hq, hpq])
  cases hp.symm.trans hnone

end Old

end Fbmeshd
