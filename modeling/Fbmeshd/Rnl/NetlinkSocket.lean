import Fbmeshd.Lib.Fallible
import Fbmeshd.Rnl.Types
import Mathlib.Logic.Function.Basic

/-!
# The route caches of the netlink socket

`NetlinkSocket` keeps, per protocol, a cache of the routes it believes the kernel to hold and
sends the kernel the requests that its callers' changes amount to. The kernel is part of the
state: a request that is accepted changes it, one that is rejected does not. Each request is
recorded with what came of it.

The iteration order of an unordered container is a parameter wherever it matters.
-/

namespace Fbmeshd

open Fallible

/-- The calls on `NetlinkProtocolSocket` that change routes. -/
inductive RouteRequest where
  | addRoute (route : Route)
  | deleteRoute (route : Route)
  | addLabelRoute (route : Route)
  | deleteLabelRoute (route : Route)
  deriving DecidableEq

/-- Whether the request is an `RTM_NEWROUTE`. -/
def RouteRequest.isAdd : RouteRequest → Bool
  | .addRoute _ | .addLabelRoute _ => true
  | .deleteRoute _ | .deleteLabelRoute _ => false

/-- The errors that the request takes for success. -/
def RouteRequest.ignoredErrors : RouteRequest → List ℕ
  | .addRoute _ | .addLabelRoute _ => [EEXIST]
  | .deleteRoute _ | .deleteLabelRoute _ => [EEXIST, ESRCH, EINVAL]

/-- The routes of the kernel: per protocol, at most one for each key and for each label. -/
structure Kernel (κ : Type*) where
  routes : UInt8 → κ → Option Route
  labels : UInt8 → UInt32 → Option Route

section Kernel

variable {κ : Type*} (key : Route → κ)

/-- What the kernel holds where the request is about. -/
def Kernel.held (k : Kernel κ) : RouteRequest → Option Route
  | .addRoute r | .deleteRoute r => k.routes r.protocolId (key r)
  | .addLabelRoute r | .deleteLabelRoute r => r.mplsLabel.bind (k.labels r.protocolId)

variable [DecidableEq κ]

/-- Set or remove the route under one key of one protocol. -/
def Kernel.setRoute (k : Kernel κ) (protocol : UInt8) (key : κ) (r : Option Route) : Kernel κ :=
  { k with
    routes := Function.update k.routes protocol (Function.update (k.routes protocol) key r) }

/-- Set or remove the route for one label of one protocol. -/
def Kernel.setLabel (k : Kernel κ) (protocol : UInt8) (label : UInt32) (r : Option Route) :
    Kernel κ :=
  { k with
    labels := Function.update k.labels protocol (Function.update (k.labels protocol) label r) }

/-- The kernel accepts a request. -/
def Kernel.accept (k : Kernel κ) : RouteRequest → Kernel κ
  | .addRoute r => k.setRoute r.protocolId (key r) (some r)
  | .deleteRoute r => k.setRoute r.protocolId (key r) none
  | .addLabelRoute r => r.mplsLabel.elim k fun l => k.setLabel r.protocolId l (some r)
  | .deleteLabelRoute r => r.mplsLabel.elim k fun l => k.setLabel r.protocolId l none

end Kernel

/-- What the socket depends on: whether a request can be encoded, the key under which the kernel
keeps a route, the error code, `0` for none, of the reply to the `n`-th request, and whether the
wait for that reply times out. -/
structure NlSock (κ : Type*) where
  encode : RouteRequest → ResultCode
  key : Route → κ
  reply : ℕ → ℕ
  timesOut : ℕ → Bool := fun _ => false

/-- The kernel accepts every request, in time. -/
def NlSock.AcceptsAll {κ : Type*} (nl : NlSock κ) : Prop :=
  ∀ n, nl.timesOut n = false ∧ nl.reply n = 0

/-- What came of a request: it could not be encoded, it was answered, or the wait for the answer
timed out and the kernel did not act on it. -/
inductive Outcome where
  | notSent (status : ResultCode)
  | answered (errno : ℕ)
  | timedOut
  deriving DecidableEq

/-- A request, what came of it, and what the kernel held at the time. -/
structure Attempt where
  request : RouteRequest
  outcome : Outcome
  held : Option Route
  deriving DecidableEq

/-- The status of the call, by `getReturnStatus` if the request was sent. -/
def Attempt.status (x : Attempt) : ResultCode :=
  match x.outcome with
  | .notSent status => status
  | .answered errno =>
    if errno ≠ 0 ∧ errno ∉ x.request.ignoredErrors then .SYSERR else .SUCCESS
  | .timedOut => .TIMEOUT

/-- The kernel accepted the request. -/
def Attempt.Accepted (x : Attempt) : Prop := x.outcome = .answered 0

instance (x : Attempt) : Decidable x.Accepted := inferInstanceAs (Decidable (_ = _))

/-- The exceptions of `NetlinkSocket`, an `NlException` each but for the first two. -/
inductive NlException where
  /-- `folly::InvalidAddressFamilyException` of an address without a value. -/
  | invalidAddressFamily
  /-- `std::out_of_range` of `mplsRoutes.at(label)`. -/
  | outOfRange
  /-- "Invalid unicast route type for: {}" -/
  | invalidUnicastRoute (dest : CIDRNetwork)
  /-- "Invalid multicast address {}" -/
  | invalidMulticastAddress (dest : CIDRNetwork)
  /-- "Need set Iface name for multicast address {}" -/
  | needIfaceName (dest : CIDRNetwork)
  /-- "Unsupported route type {}" -/
  | unsupportedRouteType (type : UInt8)
  /-- "Unsupported MPLS route type {}" -/
  | unsupportedMplsRouteType (type : UInt8)
  /-- "Failed to delete route\n{}\nError: {}" -/
  | failedToDeleteOld (route : Route) (err : ResultCode)
  /-- "Could not add route\n{}\nError: {}" -/
  | couldNotAdd (route : Route) (err : ResultCode)
  /-- "Failed to delete route {} Error: {}" -/
  | failedToDelete (dest : CIDRNetwork) (err : ResultCode)
  /-- "Could not add mpls route\n{}\nError: {}" -/
  | couldNotAddMpls (route : Route) (err : ResultCode)
  /-- "Failed to delete MPLS {} Error: {}" -/
  | failedToDeleteMpls (label : UInt32) (err : ResultCode)
  /-- "Failed to add multicast route {} Error: {}" -/
  | failedToAddMulticast (dest : CIDRNetwork) (err : ResultCode)
  /-- "Failed to delete multicast route {} Error: {}" -/
  | failedToDeleteMulticast (dest : CIDRNetwork) (err : ResultCode)
  /-- "Could not add link Route to: {} dev {} Error: {}" -/
  | couldNotAddLink (dest : CIDRNetwork) (ifName : String) (err : ResultCode)
  /-- "Could not del link Route to: {} dev {} Error: {}" -/
  | couldNotDelLink (dest : CIDRNetwork) (ifName : String) (err : ResultCode)
  deriving DecidableEq

/-- An order in which the elements of an `unordered_set` are visited. -/
structure IterationOrder (α : Type*) where
  visit : List α → List α
  perm : ∀ l, (visit l).Perm l

/-- The order in which the elements happen to be listed. -/
def IterationOrder.given (α : Type*) : IterationOrder α := ⟨id, .refl⟩

/-- An order that begins with an element, where it is among those to be visited. -/
def IterationOrder.startingWith {α : Type*} [DecidableEq α] (a : α) : IterationOrder α where
  visit l := if a ∈ l then a :: l.erase a else l
  perm l := by
    split
    next hmem => exact (List.perm_cons_erase hmem).symm
    next => exact .refl l

/-- The caches of `NetlinkSocket`, its links with their interface indices, and the kernel. -/
structure NetlinkSocket (κ : Type*) where
  unicastRoutesCache : UInt8 → NlUnicastRoutes := fun _ => ∅
  mplsRoutesCache : UInt8 → NlMplsRoutes := fun _ => ∅
  mcastRoutesCache : UInt8 → NlLinkRoutes := fun _ => ∅
  linkRoutesCache : UInt8 → NlLinkRoutes := fun _ => ∅
  links : AList fun _ : String => UInt32 := ∅
  kernel : Kernel κ
  attempts : List Attempt := []

namespace NetlinkSocket

variable {κ : Type*} [DecidableEq κ] (nl : NlSock κ)

/-- What comes of a request in the present state. -/
def attempt (s : NetlinkSocket κ) (request : RouteRequest) : Attempt where
  request
  outcome :=
    match nl.encode request with
    | .SUCCESS =>
      if nl.timesOut s.attempts.length then .timedOut
      else .answered (nl.reply s.attempts.length)
    | status => .notSent status
  held := s.kernel.held nl.key request

/-- A call of `addRoute`, `deleteRoute`, `addLabelRoute` or `deleteLabelRoute` on the protocol
socket. A status other than `SUCCESS` is thrown. -/
def request (fail : ResultCode → NlException) (request : RouteRequest) :
    Action (NetlinkSocket κ) NlException := fun s =>
  let x := s.attempt nl request
  let s := { s with
    kernel := if x.Accepted then s.kernel.accept nl.key request else s.kernel
    attempts := s.attempts ++ [x] }
  if x.status = .SUCCESS then (s, none) else (s, some (fail x.status))

/-- A request changes the kernel, if it is accepted, and is recorded. -/
theorem request_eq (fail : ResultCode → NlException) (req : RouteRequest) (s : NetlinkSocket κ) :
    (request nl fail req s).1 =
      { s with
        kernel := if (s.attempt nl req).Accepted then s.kernel.accept nl.key req else s.kernel
        attempts := s.attempts ++ [s.attempt nl req] } := by
  simp only [request]
  split <;> rfl

/-- A request throws exactly if its status is not `SUCCESS`. -/
theorem request_result (fail : ResultCode → NlException) (req : RouteRequest)
    (s : NetlinkSocket κ) :
    (request nl fail req s).2 = none ↔ (s.attempt nl req).status = .SUCCESS := by
  simp only [request]
  split <;> simp_all

/-- `checkUnicastRoute`. -/
def checkUnicastRoute (route : Route) : Option NlException :=
  match route.dst.1.isMulticast with
  | none => some .invalidAddressFamily
  | some true => some (.invalidUnicastRoute route.dst)
  | some false =>
    match route.dst.1.isLinkLocal with
    | none => some .invalidAddressFamily
    | some true => some (.invalidUnicastRoute route.dst)
    | some false => none

/-- Erase a prefix from the unicast cache of a protocol. -/
def eraseUnicast (protocol : UInt8) (dest : CIDRNetwork) (s : NetlinkSocket κ) :
    NetlinkSocket κ :=
  { s with
    unicastRoutesCache := Function.update s.unicastRoutesCache protocol
      ((s.unicastRoutesCache protocol).erase dest) }

/-- Put a route into the unicast cache of its protocol. -/
def emplaceUnicast (route : Route) (s : NetlinkSocket κ) : NetlinkSocket κ :=
  { s with
    unicastRoutesCache := Function.update s.unicastRoutesCache route.protocolId
      ((s.unicastRoutesCache route.protocolId).insert route.dst route) }

/-- The end of `doAddUpdateUnicastRoute`. The cache entry is erased before the new route is
sent. -/
def replaceUnicast (route : Route) : Action (NetlinkSocket κ) NlException :=
  andThen (modify (eraseUnicast route.protocolId route.dst))
    (andThen (request nl (.couldNotAdd route) (.addRoute route)) (modify (emplaceUnicast route)))

/-- `doAddUpdateUnicastRoute`. An IPv6 route is not replaced by the kernel, so the old one is
deleted first. -/
def doAddUpdateUnicastRoute (route : Route) : Action (NetlinkSocket κ) NlException := fun s =>
  match checkUnicastRoute route with
  | some ex => (s, some ex)
  | none =>
    let iter := (s.unicastRoutesCache route.protocolId).lookup route.dst
    let route := route.withDefaultPriority
    match iter with
    | some old =>
      if old.eq route then (s, none)
      else if route.dst.1.isV6 then
        andThen (request nl (.failedToDeleteOld old) (.deleteRoute old))
          (replaceUnicast nl route) s
      else replaceUnicast nl route s
    | none => replaceUnicast nl route s

/-- What `doAddUpdateUnicastRoute` does: it throws, finds the route in the cache, or replaces
what is there, for IPv6 after a request to delete it. -/
theorem doAddUpdateUnicastRoute_cases (route : Route) (s : NetlinkSocket κ) :
    (∃ ex, checkUnicastRoute route = some ex ∧
        doAddUpdateUnicastRoute nl route s = (s, some ex)) ∨
      checkUnicastRoute route = none ∧
        ((s.unicastRoutesCache route.protocolId).lookup route.dst =
              some route.withDefaultPriority ∧
            doAddUpdateUnicastRoute nl route s = (s, none) ∨
          ((s.unicastRoutesCache route.protocolId).lookup route.dst = none ∨
              route.dst.1.isV6 = false) ∧
            doAddUpdateUnicastRoute nl route s = replaceUnicast nl route.withDefaultPriority s ∨
          ∃ old, (s.unicastRoutesCache route.protocolId).lookup route.dst = some old ∧
            doAddUpdateUnicastRoute nl route s =
              andThen (request nl (.failedToDeleteOld old) (.deleteRoute old))
                (replaceUnicast nl route.withDefaultPriority) s) := by
  simp only [doAddUpdateUnicastRoute]
  cases hcheck : checkUnicastRoute route with
  | some ex => exact .inl ⟨ex, rfl, rfl⟩
  | none =>
    refine .inr ⟨rfl, ?_⟩
    cases hiter : (s.unicastRoutesCache route.protocolId).lookup route.dst with
    | none => exact .inr (.inl ⟨.inl rfl, rfl⟩)
    | some old =>
      by_cases hsame : old.eq route.withDefaultPriority
      · exact .inl ⟨congrArg some (Route.eq_iff.mp hsame), if_pos hsame⟩
      by_cases hv6 : route.withDefaultPriority.dst.1.isV6
      · exact .inr (.inr ⟨old, rfl, by simp only [if_neg hsame, if_pos hv6]⟩)
      · refine .inr (.inl ⟨.inr ?_, by simp only [if_neg hsame, if_neg hv6]⟩)
        simpa using hv6

/-- The end of `doDeleteUnicastRoute`. -/
def removeUnicast (route : Route) : Action (NetlinkSocket κ) NlException :=
  andThen (request nl (.failedToDelete route.dst) (.deleteRoute route))
    (modify (eraseUnicast route.protocolId route.dst))

/-- `doDeleteUnicastRoute`. -/
def doDeleteUnicastRoute (route : Route) : Action (NetlinkSocket κ) NlException := fun s =>
  match checkUnicastRoute route with
  | some ex => (s, some ex)
  | none =>
    if ((s.unicastRoutesCache route.protocolId).lookup route.dst).isSome then
      removeUnicast nl route s
    else (s, none)

/-- What a deletion comes to: it is refused, there is nothing to delete, or it is sent. -/
theorem doDeleteUnicastRoute_cases (route : Route) (s : NetlinkSocket κ) :
    (∃ ex, checkUnicastRoute route = some ex ∧
        doDeleteUnicastRoute nl route s = (s, some ex)) ∨
      checkUnicastRoute route = none ∧
        ((s.unicastRoutesCache route.protocolId).lookup route.dst = none ∧
            doDeleteUnicastRoute nl route s = (s, none) ∨
          doDeleteUnicastRoute nl route s = removeUnicast nl route s) := by
  simp only [doDeleteUnicastRoute]
  cases hcheck : checkUnicastRoute route with
  | some ex => exact .inl ⟨ex, rfl, rfl⟩
  | none =>
    refine .inr ⟨rfl, ?_⟩
    cases (s.unicastRoutesCache route.protocolId).lookup route.dst with
    | none => exact .inl ⟨rfl, rfl⟩
    | some old => exact .inr rfl

/-- The body of the first loop of `doSyncUnicastRoutes`. -/
def deleteCached (protocolId : UInt8) (dest : CIDRNetwork) :
    Action (NetlinkSocket κ) NlException := fun s =>
  match (s.unicastRoutesCache protocolId).lookup dest with
  | none => (s, none)
  | some r => doDeleteUnicastRoute nl r s

/-- `doSyncUnicastRoutes`. -/
def doSyncUnicastRoutes (order : IterationOrder CIDRNetwork) (protocolId : UInt8)
    (syncDb : NlUnicastRoutes) : Action (NetlinkSocket κ) NlException := fun s =>
  let toDelete := (s.unicastRoutesCache protocolId).keys.filter
    fun dest => (syncDb.lookup dest).isNone
  andThen
    (forEach (deleteCached nl protocolId) (order.visit toDelete))
    (forEach (fun kv => doAddUpdateUnicastRoute nl kv.2) syncDb.entries) s

/-- Erase a label from the cache of a protocol. -/
def eraseMpls (protocol : UInt8) (label : UInt32) (s : NetlinkSocket κ) : NetlinkSocket κ :=
  { s with
    mplsRoutesCache := Function.update s.mplsRoutesCache protocol
      ((s.mplsRoutesCache protocol).erase label) }

/-- Put a route for a label into the cache of its protocol. -/
def emplaceMpls (label : UInt32) (route : Route) (s : NetlinkSocket κ) : NetlinkSocket κ :=
  { s with
    mplsRoutesCache := Function.update s.mplsRoutesCache route.protocolId
      ((s.mplsRoutesCache route.protocolId).insert label route) }

/-- The end of `doAddUpdateMplsRoute`. -/
def replaceMpls (label : UInt32) (mplsRoute : Route) : Action (NetlinkSocket κ) NlException :=
  andThen (modify (eraseMpls mplsRoute.protocolId label))
    (andThen (request nl (.couldNotAddMpls mplsRoute) (.addLabelRoute mplsRoute))
      (modify (emplaceMpls label mplsRoute)))

/-- `doAddUpdateMplsRoute`. -/
def doAddUpdateMplsRoute (mplsRoute : Route) : Action (NetlinkSocket κ) NlException := fun s =>
  match mplsRoute.mplsLabel with
  | none => (s, none)
  | some label =>
    match (s.mplsRoutesCache mplsRoute.protocolId).lookup label with
    | some old => if old.eq mplsRoute then (s, none) else replaceMpls nl label mplsRoute s
    | none => replaceMpls nl label mplsRoute s

/-- The same for a label route that is added. -/
theorem doAddUpdateMplsRoute_cases (mplsRoute : Route) (s : NetlinkSocket κ) :
    mplsRoute.mplsLabel = none ∧ doAddUpdateMplsRoute nl mplsRoute s = (s, none) ∨
      ∃ label, mplsRoute.mplsLabel = some label ∧
        ((s.mplsRoutesCache mplsRoute.protocolId).lookup label = some mplsRoute ∧
            doAddUpdateMplsRoute nl mplsRoute s = (s, none) ∨
          doAddUpdateMplsRoute nl mplsRoute s = replaceMpls nl label mplsRoute s) := by
  simp only [doAddUpdateMplsRoute]
  cases hlabel : mplsRoute.mplsLabel with
  | none => exact .inl ⟨rfl, rfl⟩
  | some label =>
    refine .inr ⟨label, rfl, ?_⟩
    dsimp only
    cases (s.mplsRoutesCache mplsRoute.protocolId).lookup label with
    | none => exact .inr rfl
    | some old =>
      by_cases hsame : old.eq mplsRoute
      · exact .inl ⟨congrArg some (Route.eq_iff.mp hsame), if_pos hsame⟩
      · exact .inr (if_neg hsame)

/-- The end of `doDeleteMplsRoute`. -/
def removeMpls (label : UInt32) (mplsRoute : Route) : Action (NetlinkSocket κ) NlException :=
  andThen (request nl (.failedToDeleteMpls label) (.deleteLabelRoute mplsRoute))
    (modify (eraseMpls mplsRoute.protocolId label))

/-- `doDeleteMplsRoute`. -/
def doDeleteMplsRoute (mplsRoute : Route) : Action (NetlinkSocket κ) NlException := fun s =>
  match mplsRoute.mplsLabel with
  | none => (s, none)
  | some label =>
    if ((s.mplsRoutesCache mplsRoute.protocolId).lookup label).isSome then
      removeMpls nl label mplsRoute s
    else (s, none)

/-- And for one that is deleted. -/
theorem doDeleteMplsRoute_cases (mplsRoute : Route) (s : NetlinkSocket κ) :
    mplsRoute.mplsLabel = none ∧ doDeleteMplsRoute nl mplsRoute s = (s, none) ∨
      ∃ label, mplsRoute.mplsLabel = some label ∧
        ((s.mplsRoutesCache mplsRoute.protocolId).lookup label = none ∧
            doDeleteMplsRoute nl mplsRoute s = (s, none) ∨
          doDeleteMplsRoute nl mplsRoute s = removeMpls nl label mplsRoute s) := by
  simp only [doDeleteMplsRoute]
  cases hlabel : mplsRoute.mplsLabel with
  | none => exact .inl ⟨rfl, rfl⟩
  | some label =>
    refine .inr ⟨label, rfl, ?_⟩
    dsimp only
    cases (s.mplsRoutesCache mplsRoute.protocolId).lookup label with
    | none => exact .inl ⟨rfl, rfl⟩
    | some old => exact .inr rfl

/-- The body of the first loop of `syncMplsRoutes`. -/
def deleteCachedMpls (protocolId : UInt8) (label : UInt32) :
    Action (NetlinkSocket κ) NlException := fun s =>
  match (s.mplsRoutesCache protocolId).lookup label with
  | none => (s, some .outOfRange)
  | some r => doDeleteMplsRoute nl r s

/-- `syncMplsRoutes`. -/
def syncMplsRoutes (order : IterationOrder UInt32) (protocolId : UInt8) (syncDb : NlMplsRoutes) :
    Action (NetlinkSocket κ) NlException := fun s =>
  let toDelete := (s.mplsRoutesCache protocolId).keys.filter
    fun label => (syncDb.lookup label).isNone
  andThen
    (forEach (deleteCachedMpls nl protocolId) (order.visit toDelete))
    (forEach (fun kv => doAddUpdateMplsRoute nl kv.2) syncDb.entries) s

/-- `checkMulticastRoute`. -/
def checkMulticastRoute (route : Route) : Except NlException String :=
  match route.dst.1.isMulticast with
  | none => .error .invalidAddressFamily
  | some false => .error (.invalidMulticastAddress route.dst)
  | some true =>
    match route.routeIfName with
    | none => .error (.needIfaceName route.dst)
    | some ifName => .ok ifName

/-- Put a multicast cache of a protocol in place. -/
def setMcast (protocol : UInt8) (routes : NlLinkRoutes) (s : NetlinkSocket κ) :
    NetlinkSocket κ :=
  { s with mcastRoutesCache := Function.update s.mcastRoutesCache protocol routes }

/-- `doAddMulticastRoute`. -/
def doAddMulticastRoute (route : Route) : Action (NetlinkSocket κ) NlException := fun s =>
  match checkMulticastRoute route with
  | .error ex => (s, some ex)
  | .ok ifName =>
    let mcastRoutes := s.mcastRoutesCache route.protocolId
    if (mcastRoutes.lookup (route.dst, ifName)).isSome then (s, none)
    else
      andThen (request nl (.failedToAddMulticast route.dst) (.addRoute route))
        (modify (setMcast route.protocolId (mcastRoutes.insert (route.dst, ifName) route))) s

/-- `doDeleteMulticastRoute`. -/
def doDeleteMulticastRoute (route : Route) : Action (NetlinkSocket κ) NlException := fun s =>
  match checkMulticastRoute route with
  | .error ex => (s, some ex)
  | .ok ifName =>
    let mcastRoutes := s.mcastRoutesCache route.protocolId
    match mcastRoutes.lookup (route.dst, ifName) with
    | none => (s, none)
    | some old =>
      andThen (request nl (.failedToDeleteMulticast route.dst) (.deleteRoute old))
        (modify (setMcast route.protocolId (mcastRoutes.erase (route.dst, ifName)))) s

/-- `addRoute`. -/
def addRoute (route : Route) : Action (NetlinkSocket κ) NlException :=
  if route.type = RTN_UNICAST ∨ route.type = RTN_BLACKHOLE then doAddUpdateUnicastRoute nl route
  else if route.type = RTN_MULTICAST then doAddMulticastRoute nl route
  else fun s => (s, some (.unsupportedRouteType route.type))

/-- `delRoute`. -/
def delRoute (route : Route) : Action (NetlinkSocket κ) NlException :=
  if route.type = RTN_UNICAST ∨ route.type = RTN_BLACKHOLE then doDeleteUnicastRoute nl route
  else if route.type = RTN_MULTICAST then doDeleteMulticastRoute nl route
  else fun s => (s, some (.unsupportedRouteType route.type))

/-- `addMplsRoute`. -/
def addMplsRoute (mplsRoute : Route) : Action (NetlinkSocket κ) NlException :=
  if mplsRoute.type = RTN_UNICAST then doAddUpdateMplsRoute nl mplsRoute
  else fun s => (s, some (.unsupportedMplsRouteType mplsRoute.type))

/-- `delMplsRoute`. -/
def delMplsRoute (mplsRoute : Route) : Action (NetlinkSocket κ) NlException :=
  if mplsRoute.type = RTN_UNICAST then doDeleteMplsRoute nl mplsRoute
  else fun s => (s, some (.unsupportedMplsRouteType mplsRoute.type))

/-- The body of the first loop of `doSyncLinkRoutes`. -/
def deleteStaleLink (linkRoutes : NlLinkRoutes) (k : CIDRNetwork × String) :
    Action (NetlinkSocket κ) NlException := fun s =>
  match linkRoutes.lookup k with
  | none => (s, none)
  | some r => request nl (.couldNotDelLink k.1 k.2) (.deleteRoute r) s

/-- The body of the second loop of `doSyncLinkRoutes`. -/
def addNewLink (linkRoutes : NlLinkRoutes) (kv : Σ _ : CIDRNetwork × String, Route) :
    Action (NetlinkSocket κ) NlException := fun s =>
  if (linkRoutes.lookup kv.1).isSome then (s, none)
  else request nl (.couldNotAddLink kv.1.1 kv.1.2) (.addRoute kv.2) s

/-- Swap in a link cache of a protocol. -/
def setLinkRoutes (protocol : UInt8) (routes : NlLinkRoutes) (s : NetlinkSocket κ) :
    NetlinkSocket κ :=
  { s with linkRoutesCache := Function.update s.linkRoutesCache protocol routes }

/-- `doSyncLinkRoutes`. The two databases are compared by their keys, and in the end the new one
is the cache. -/
def doSyncLinkRoutes (protocolId : UInt8) (syncDb : NlLinkRoutes) :
    Action (NetlinkSocket κ) NlException := fun s =>
  let linkRoutes := s.linkRoutesCache protocolId
  let toDel := linkRoutes.keys.filter fun k => (syncDb.lookup k).isNone
  andThen (forEach (deleteStaleLink nl linkRoutes) toDel)
    (andThen (forEach (addNewLink nl linkRoutes) syncDb.entries)
      (modify (setLinkRoutes protocolId syncDb))) s

/-- `getIfName`: the last link with the index, in the order in which they are visited. -/
def getIfName (ifIndex : UInt32) (s : NetlinkSocket κ) : String :=
  s.links.entries.foldl (fun ifName link => if link.2 = ifIndex then link.1 else ifName) ""

/-- The interface of a route with one next hop, by which `doUpdateRouteCache` keeps multicast and
link routes. -/
def routeInterface (route : Route) (s : NetlinkSocket κ) : Option String := do
  let nextHop ← route.soleNextHop
  let ifIndex ← nextHop.ifIndex
  some (s.getIfName ifIndex)

/-- `routes.erase(key)` and, for a valid route, `routes.emplace(key, route)`. -/
def updateEntry (k : CIDRNetwork × String) (route : Route) (routes : NlLinkRoutes) :
    NlLinkRoutes :=
  if route.isValid then (routes.erase k).insert k route else routes.erase k

/-- `doUpdateRouteCache`. -/
def doUpdateRouteCache (route : Route) (updateUnicastRoute : Bool) :
    Action (NetlinkSocket κ) NlException := fun s =>
  let flags := route.flags.getD 0
  let protocol := route.protocolId
  if route.routeTable ≠ RT_TABLE_MAIN ∨ flags &&& RTM_F_CLONED ≠ 0 then (s, none)
  else
    match route.dst.1.isMulticast with
    | none => (s, some .invalidAddressFamily)
    | some true =>
      match s.routeInterface route with
      | none => (s, none)
      | some ifName =>
        (s.setMcast protocol
          (updateEntry (route.dst, ifName) route (s.mcastRoutesCache protocol)), none)
    | some false =>
      if route.scope = RT_SCOPE_LINK then
        match s.routeInterface route with
        | none => (s, none)
        | some ifName =>
          (s.setLinkRoutes protocol
            (updateEntry (route.dst, ifName) route (s.linkRoutesCache protocol)), none)
      else if updateUnicastRoute ∧ route.isValid then
        (emplaceUnicast route (eraseUnicast protocol route.dst s), none)
      else (s, none)

/-- `doHandleRouteEvent` without a handler. The exceptions of `doUpdateRouteCache` are
swallowed. -/
def doHandleRouteEvent (route : Route) (updateUnicastRoute : Bool) (s : NetlinkSocket κ) :
    NetlinkSocket κ :=
  (doUpdateRouteCache route updateUnicastRoute s).1

/-- `updateRouteCache`, given the routes that `getAllRoutes` returns. -/
def updateRouteCache (routes : List Route) (s : NetlinkSocket κ) : NetlinkSocket κ :=
  routes.foldl (fun s route => doHandleRouteEvent route true s) s

end NetlinkSocket

end Fbmeshd
