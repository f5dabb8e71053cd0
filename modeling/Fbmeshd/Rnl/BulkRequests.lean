import Fbmeshd.Rnl.EncoderLimits
import Fbmeshd.Rnl.NetlinkSocket
import Fbmeshd.Rnl.ProtocolSocket

/-!
# Programming many routes at once

`addRoutes` and `deleteRoutes` encode their routes, queue the messages as one batch and wait for
all answers. A route that cannot be encoded is left out of the batch. `addRoute` and the other calls
for one route report such a route instead.

The queue takes as many messages as it has room for. The promises of the others are broken.
-/

namespace Fbmeshd

open Bytes

/-- The future of a request when the wait for it is over. -/
inductive RequestFuture where
  | value (status : ℤ)
  | brokenPromise
  | pending
  deriving DecidableEq

/-- What a request throws: a failure of the encoder that is not a status, or the exception of a
future without a value. -/
inductive RequestException where
  | encoding (failure : EncodeFailure)
  | brokenPromise
  | futureNotReady
  deriving DecidableEq

/-- A route to program with its next hops in the order of iteration, and the answer of the kernel
to its message, if one comes in time. -/
structure RouteEntry where
  route : Route
  paths : List NextHop
  answer : Option ℤ

namespace NetlinkProtocolSocket

/-- The loop of `getReturnStatus`. -/
def checkStatuses (ignoredErrors : List ℕ) : List RequestFuture → Except RequestException ResultCode
  | [] => .ok .SUCCESS
  | .value status :: futures =>
    if status.natAbs ≠ 0 ∧ status.natAbs ∉ ignoredErrors then .ok .SYSERR
    else checkStatuses ignoredErrors futures
  | .brokenPromise :: _ => .error .brokenPromise
  | .pending :: _ => .error .futureNotReady

/-- `getReturnStatus`. -/
def getReturnStatus (futures : List RequestFuture) (ignoredErrors : List ℕ) :
    Except RequestException ResultCode :=
  if futures.length = 0 then .ok .SUCCESS
  else if .pending ∈ futures then .ok .TIMEOUT
  else checkStatuses ignoredErrors futures

/-- The futures of messages that go to `addNetlinkMessage`, given the size of the queue. -/
def queueMessages (queueSize : ℕ) (msgs : List (Buffer × Option ℤ)) : List RequestFuture :=
  let accepted := acceptMessages queueSize msgs
  accepted.map (fun msg => msg.2.elim .pending .value) ++
    List.replicate (msgs.length - accepted.length) .brokenPromise

/-- What encoding returns: a message or a status. Other failures are thrown. -/
def encodeResult : Except EncodeFailure Buffer →
    Except RequestException (Except ResultCode Buffer)
  | .ok msg => .ok (.ok msg)
  | .error (.status status) => .ok (.error status)
  | .error failure => .error (.encoding failure)

/-- A call for one route. -/
def requestRoute (ignoredErrors : List ℕ) (queueSize : ℕ) (encoded : Except EncodeFailure Buffer)
    (answer : Option ℤ) : Except RequestException ResultCode := do
  match ← encodeResult encoded with
  | .error status => .ok status
  | .ok msg => getReturnStatus (queueMessages queueSize [(msg, answer)]) ignoredErrors

/-- `addRoute`. -/
def addRoute [EmptyBytes] (queueSize : ℕ) (e : RouteEntry) : Except RequestException ResultCode :=
  requestRoute [EEXIST] queueSize (NetlinkRouteMessage.addRoute e.route e.paths) e.answer

/-- `addLabelRoute`. -/
def addLabelRoute [EmptyBytes] (queueSize : ℕ) (e : RouteEntry) :
    Except RequestException ResultCode :=
  requestRoute [EEXIST] queueSize (NetlinkRouteMessage.addLabelRoute e.route e.paths) e.answer

/-- `deleteRoute`. -/
def deleteRoute [EmptyBytes] (queueSize : ℕ) (e : RouteEntry) :
    Except RequestException ResultCode :=
  requestRoute [EEXIST, ESRCH, EINVAL] queueSize (NetlinkRouteMessage.deleteRoute e.route) e.answer

/-- `deleteLabelRoute`. -/
def deleteLabelRoute (queueSize : ℕ) (e : RouteEntry) : Except RequestException ResultCode :=
  requestRoute [EEXIST, ESRCH, EINVAL] queueSize (NetlinkRouteMessage.deleteLabelRoute e.route)
    e.answer

/-- The loop of `addRoutes` and `deleteRoutes`, which collects the messages. -/
def encodeEntries (encode : RouteEntry → Except EncodeFailure Buffer) :
    List RouteEntry → Except RequestException (List (Buffer × Option ℤ))
  | [] => .ok []
  | e :: entries => do
    match ← encodeResult (encode e) with
    | .error _ => encodeEntries encode entries
    | .ok msg => do
      let msgs ← encodeEntries encode entries
      .ok ((msg, e.answer) :: msgs)

/-- A call for many routes. -/
def requestRoutes (ignoredErrors : List ℕ) (queueSize : ℕ)
    (encode : RouteEntry → Except EncodeFailure Buffer) (entries : List RouteEntry) :
    Except RequestException ResultCode := do
  let msgs ← encodeEntries encode entries
  getReturnStatus (queueMessages queueSize msgs) ignoredErrors

/-- How `addRoutes` encodes a route. -/
def encodeAdd [EmptyBytes] (e : RouteEntry) : Except EncodeFailure Buffer :=
  if e.route.family = AF_MPLS then NetlinkRouteMessage.addLabelRoute e.route e.paths
  else NetlinkRouteMessage.addRoute e.route e.paths

/-- How `deleteRoutes` encodes a route. -/
def encodeDelete [EmptyBytes] (e : RouteEntry) : Except EncodeFailure Buffer :=
  if e.route.family = AF_MPLS then NetlinkRouteMessage.deleteLabelRoute e.route
  else NetlinkRouteMessage.deleteRoute e.route

/-- `addRoutes`. -/
def addRoutes [EmptyBytes] (queueSize : ℕ) (entries : List RouteEntry) :
    Except RequestException ResultCode :=
  requestRoutes [EEXIST] queueSize encodeAdd entries

/-- `deleteRoutes`. -/
def deleteRoutes [EmptyBytes] (queueSize : ℕ) (entries : List RouteEntry) :
    Except RequestException ResultCode :=
  requestRoutes [EEXIST, ESRCH, EINVAL] queueSize encodeDelete entries

/-! ### When the calls succeed -/

/-- An answer that counts as success. -/
def Granted (ignoredErrors : List ℕ) (answer : Option ℤ) : Prop :=
  ∃ status, answer = some status ∧ (status = 0 ∨ status.natAbs ∈ ignoredErrors)

/-- The queue takes all of `n` messages. -/
def HasRoom (queueSize n : ℕ) : Prop := n = 0 ∨ queueSize + n < kMaxNlMessageQueue

private theorem HasRoom.one {queueSize n : ℕ} (h : HasRoom queueSize n) (hn : 0 < n) :
    HasRoom queueSize 1 := by
  unfold HasRoom at *
  omega

/-- Encoding gives a message. -/
def Encodes (x : Except EncodeFailure Buffer) : Prop := ∃ msg, x = .ok msg

/-- Encoding fails with a status. -/
def Refused (x : Except EncodeFailure Buffer) : Prop := ∃ code, x = .error (.status code)

/-- Encoding throws. -/
def Throws (x : Except EncodeFailure Buffer) : Prop :=
  ∃ failure, x = .error failure ∧ ∀ code, failure ≠ .status code

section Success

variable {ignoredErrors : List ℕ} {queueSize : ℕ} {futures : List RequestFuture}

private theorem checkStatuses_eq_success :
    checkStatuses ignoredErrors futures = .ok .SUCCESS ↔
      ∀ f ∈ futures, ∃ status, f = .value status ∧
        (status = 0 ∨ status.natAbs ∈ ignoredErrors) := by
  induction futures with
  | nil => simp [checkStatuses]
  | cons f futures ih =>
    rw [List.forall_mem_cons, ← ih]
    cases f with
    | value status =>
      simp only [checkStatuses, RequestFuture.value.injEq, exists_eq_left', ne_eq,
        Int.natAbs_eq_zero]
      split
      next hbad => simp [hbad.1, hbad.2]
      next hgood => simp [show status = 0 ∨ status.natAbs ∈ ignoredErrors by tauto]
    | brokenPromise => simp [checkStatuses]
    | pending => simp [checkStatuses]

/-- A call succeeds if each of its requests got an answer that counts as success. -/
theorem getReturnStatus_eq_success :
    getReturnStatus futures ignoredErrors = .ok .SUCCESS ↔
      ∀ f ∈ futures, ∃ status, f = .value status ∧
        (status = 0 ∨ status.natAbs ∈ ignoredErrors) := by
  rw [getReturnStatus]
  split
  next hnil => simp [List.length_eq_zero_iff.mp hnil]
  split
  next hpending =>
    constructor
    · intro h
      cases h
    · intro h
      obtain ⟨status, heq, -⟩ := h _ hpending
      cases heq
  · exact checkStatuses_eq_success

private theorem acceptMessages_eq_take {μ : Type*} (queueSize : ℕ) (msgs : List μ) :
    acceptMessages queueSize msgs = msgs.take (kMaxNlMessageQueue - 1 - queueSize) := by
  induction msgs generalizing queueSize with
  | nil => rw [acceptMessages, List.take_nil]
  | cons m msgs ih =>
    rw [acceptMessages]
    split
    next hroom =>
      rw [ih, show kMaxNlMessageQueue - 1 - queueSize =
        (kMaxNlMessageQueue - 1 - (queueSize + 1)) + 1 by omega, List.take_succ_cons]
    next hfull => rw [show kMaxNlMessageQueue - 1 - queueSize = 0 by omega, List.take_zero]

/-- The messages are all answered with success only if none of them is discarded. -/
theorem getReturnStatus_queueMessages (msgs : List (Buffer × Option ℤ)) :
    getReturnStatus (queueMessages queueSize msgs) ignoredErrors = .ok .SUCCESS ↔
      (∀ msg ∈ msgs, Granted ignoredErrors msg.2) ∧ HasRoom queueSize msgs.length := by
  have hvalue (msg : Buffer × Option ℤ) :
      (∃ status, msg.2.elim .pending .value = RequestFuture.value status ∧
        (status = 0 ∨ status.natAbs ∈ ignoredErrors)) ↔ Granted ignoredErrors msg.2 := by
    cases hanswer : msg.2 with
    | none => simp [Granted]
    | some status => simp [Granted]
  rw [getReturnStatus_eq_success, queueMessages, acceptMessages_eq_take, List.forall_mem_append,
    List.forall_mem_map]
  simp only [hvalue, List.length_take]
  by_cases hroom : HasRoom queueSize msgs.length
  · have hle : msgs.length ≤ kMaxNlMessageQueue - 1 - queueSize := by
      unfold HasRoom at hroom
      omega
    simp [List.take_of_length_le hle, Nat.min_eq_right hle, hroom]
  · have hlt : kMaxNlMessageQueue - 1 - queueSize < msgs.length := by
      unfold HasRoom at hroom
      omega
    simp only [hroom, and_false, iff_false, not_and]
    intro _ hbroken
    obtain ⟨status, heq, -⟩ := hbroken .brokenPromise
      (List.mem_replicate.mpr ⟨by omega, rfl⟩)
    cases heq

/-- The status of an attempt is what `getReturnStatus` returns for its message. -/
theorem getReturnStatus_eq_attempt_status {x : Attempt} {errno : ℕ}
    (hroom : HasRoom queueSize 1) (hx : x.outcome = .answered errno) (msg : Buffer) :
    getReturnStatus (queueMessages queueSize [(msg, some (-errno))]) x.request.ignoredErrors =
      .ok x.status := by
  have hqueue : queueMessages queueSize [(msg, some (-(errno : ℤ)))] = [.value (-errno)] := by
    have hlt : queueSize + 1 < kMaxNlMessageQueue := hroom.resolve_left Nat.one_ne_zero
    rw [queueMessages, acceptMessages, if_pos hlt, acceptMessages]
    rfl
  rw [hqueue, Attempt.status, hx]
  simp only [getReturnStatus, List.length_singleton, Nat.one_ne_zero, if_false,
    List.mem_singleton, reduceCtorEq, checkStatuses, Int.natAbs_neg, Int.natAbs_natCast]
  split <;> rfl

private theorem encodes_or_refused_or_throws (x : Except EncodeFailure Buffer) :
    Encodes x ∨ Refused x ∨ Throws x := by
  match x with
  | .ok msg => exact .inl ⟨msg, rfl⟩
  | .error (.status code) => exact .inr (.inl ⟨code, rfl⟩)
  | .error .optionalEmpty | .error .invalidAddressFamily | .error .checkFailed =>
    exact .inr (.inr ⟨_, rfl, fun _ h => by cases h⟩)

private theorem not_encodes_of_refused {x : Except EncodeFailure Buffer} (h : Refused x) :
    ¬ Encodes x := by
  obtain ⟨code, rfl⟩ := h
  rintro ⟨msg, hmsg⟩
  cases hmsg

private theorem not_throws_of_refused {x : Except EncodeFailure Buffer} (h : Refused x) :
    ¬ Throws x := by
  obtain ⟨code, rfl⟩ := h
  rintro ⟨failure, heq, hstatus⟩
  exact hstatus code (Except.error.inj heq).symm

private theorem not_encodes_of_throws {x : Except EncodeFailure Buffer} (h : Throws x) :
    ¬ Encodes x := by
  obtain ⟨failure, rfl, -⟩ := h
  rintro ⟨msg, hmsg⟩
  cases hmsg

private theorem encodeResult_of_throws {x : Except EncodeFailure Buffer} (h : Throws x) :
    ∃ ex, encodeResult x = .error ex := by
  obtain ⟨failure, rfl, hstatus⟩ := h
  cases failure with
  | status code => exact absurd rfl (hstatus code)
  | optionalEmpty => exact ⟨_, rfl⟩
  | invalidAddressFamily => exact ⟨_, rfl⟩
  | checkFailed => exact ⟨_, rfl⟩

/-- One route is programmed if it can be encoded, is queued and gets an answer that counts as
success. -/
theorem requestRoute_eq_success {encoded : Except EncodeFailure Buffer} {answer : Option ℤ}
    (hreported : encoded ≠ .error (.status .SUCCESS)) :
    requestRoute ignoredErrors queueSize encoded answer = .ok .SUCCESS ↔
      Encodes encoded ∧ Granted ignoredErrors answer ∧ HasRoom queueSize 1 := by
  rcases encodes_or_refused_or_throws encoded with hencodes | hrefused | hthrows
  · have hmsg := hencodes
    obtain ⟨msg, rfl⟩ := hmsg
    have hcall : requestRoute ignoredErrors queueSize (.ok msg) answer =
        getReturnStatus (queueMessages queueSize [(msg, answer)]) ignoredErrors := rfl
    rw [hcall, getReturnStatus_queueMessages]
    simp [hencodes]
  · have hnot := not_encodes_of_refused hrefused
    obtain ⟨code, rfl⟩ := hrefused
    have hcall : requestRoute ignoredErrors queueSize (.error (.status code)) answer =
        .ok code := rfl
    have hne : code ≠ .SUCCESS := fun h => hreported (h ▸ rfl)
    simp [hcall, hnot, hne]
  · obtain ⟨ex, hex⟩ := encodeResult_of_throws hthrows
    have hcall : requestRoute ignoredErrors queueSize encoded answer = .error ex := by
      rw [requestRoute, hex]
      rfl
    simp [hcall, not_encodes_of_throws hthrows]

variable {encode : RouteEntry → Except EncodeFailure Buffer} {entries : List RouteEntry}

/-- The messages of the routes that can be encoded. -/
def encodable (encode : RouteEntry → Except EncodeFailure Buffer) (entries : List RouteEntry) :
    List (Buffer × Option ℤ) :=
  entries.filterMap fun e => (encode e).toOption.map fun msg => (msg, e.answer)

/-- The loop leaves out the routes that cannot be encoded, unless one throws. -/
theorem encodeEntries_of_not_throws (h : ∀ e ∈ entries, ¬ Throws (encode e)) :
    encodeEntries encode entries = .ok (encodable encode entries) := by
  induction entries with
  | nil => rfl
  | cons e entries ih =>
    obtain ⟨he, hentries⟩ := List.forall_mem_cons.mp h
    rcases encodes_or_refused_or_throws (encode e) with ⟨msg, hmsg⟩ | ⟨code, hcode⟩ | hthrows
    · simp only [encodeEntries, hmsg, encodeResult, ih hentries, encodable, List.filterMap_cons,
        Except.toOption, Option.map_some]
      rfl
    · simp only [encodeEntries, hcode, encodeResult, encodable, List.filterMap_cons,
        Except.toOption, Option.map_none]
      exact ih hentries
    · exact absurd hthrows he

private theorem encodeEntries_of_throws (h : ∃ e ∈ entries, Throws (encode e)) :
    ∃ ex, encodeEntries encode entries = .error ex := by
  induction entries with
  | nil => simp at h
  | cons e entries ih =>
    have htail (hhead : ¬ Throws (encode e)) : ∃ e ∈ entries, Throws (encode e) := by
      obtain ⟨x, hx, hthrows⟩ := h
      rcases List.mem_cons.mp hx with rfl | hx
      · exact absurd hthrows hhead
      · exact ⟨x, hx, hthrows⟩
    rcases encodes_or_refused_or_throws (encode e) with hencodes | hrefused | hthrows
    · obtain ⟨ex, hex⟩ := ih (htail fun hthrows => not_encodes_of_throws hthrows hencodes)
      obtain ⟨msg, hmsg⟩ := hencodes
      exact ⟨ex, by rw [encodeEntries, hmsg, encodeResult, bind_of_ok rfl, hex]; rfl⟩
    · obtain ⟨ex, hex⟩ := ih (htail (not_throws_of_refused hrefused))
      obtain ⟨code, hcode⟩ := hrefused
      exact ⟨ex, by rw [encodeEntries, hcode, encodeResult, bind_of_ok rfl, hex]⟩
    · obtain ⟨ex, hex⟩ := encodeResult_of_throws hthrows
      exact ⟨ex, by rw [encodeEntries, hex]; rfl⟩

private theorem forall_encodable {P : Option ℤ → Prop} :
    (∀ msg ∈ encodable encode entries, P msg.2) ↔
      ∀ e ∈ entries, Encodes (encode e) → P e.answer := by
  simp only [encodable, List.mem_filterMap, Option.map_eq_some_iff]
  constructor
  · rintro h e he ⟨msg, hmsg⟩
    exact h _ ⟨e, he, msg, by rw [hmsg]; rfl, rfl⟩
  · rintro h _ ⟨e, he, msg, hmsg, rfl⟩
    refine h e he ⟨msg, ?_⟩
    cases hx : encode e with
    | ok msg' => rw [hx] at hmsg; exact congrArg _ (Option.some.inj hmsg)
    | error failure => rw [hx] at hmsg; cases hmsg

private theorem length_encodable_of_encodes (h : ∀ e ∈ entries, Encodes (encode e)) :
    (encodable encode entries).length = entries.length := by
  rw [encodable, List.length_filterMap_eq_countP, List.countP_eq_length]
  intro e he
  obtain ⟨msg, hmsg⟩ := h e he
  rw [hmsg]
  rfl

/-- A batch succeeds if no route throws and every route that can be encoded is queued and gets an
answer that counts as success. -/
theorem requestRoutes_eq_success :
    requestRoutes ignoredErrors queueSize encode entries = .ok .SUCCESS ↔
      (∀ e ∈ entries, ¬ Throws (encode e)) ∧
      (∀ e ∈ entries, Encodes (encode e) → Granted ignoredErrors e.answer) ∧
      HasRoom queueSize (encodable encode entries).length := by
  by_cases hthrows : ∀ e ∈ entries, ¬ Throws (encode e)
  · rw [requestRoutes, bind_of_ok (encodeEntries_of_not_throws hthrows),
      getReturnStatus_queueMessages, forall_encodable]
    exact (and_iff_right hthrows).symm
  · obtain ⟨ex, hex⟩ := encodeEntries_of_throws (by simpa using hthrows)
    have hcall : requestRoutes ignoredErrors queueSize encode entries = .error ex := by
      rw [requestRoutes, hex]
      rfl
    simp only [hcall, reduceCtorEq, hthrows, false_and]

/-- A batch and the calls for its routes one by one agree unless the batch leaves out a route and
succeeds with the others, or the routes are too many for the queue at once. -/
theorem requestRoutes_agrees_iff (hreported : ∀ e ∈ entries, encode e ≠ .error (.status .SUCCESS)) :
    (requestRoutes ignoredErrors queueSize encode entries = .ok .SUCCESS ↔
      ∀ e ∈ entries, requestRoute ignoredErrors queueSize (encode e) e.answer = .ok .SUCCESS) ↔
    ((∃ e ∈ entries, Refused (encode e)) →
      (∃ e ∈ entries, Throws (encode e)) ∨
      (∃ e ∈ entries, Encodes (encode e) ∧ ¬ Granted ignoredErrors e.answer) ∨
      ¬ HasRoom queueSize (encodable encode entries).length) ∧
    ((∀ e ∈ entries, Encodes (encode e) ∧ Granted ignoredErrors e.answer) →
      HasRoom queueSize 1 → HasRoom queueSize entries.length) := by
  have hsingle : (∀ e ∈ entries,
      requestRoute ignoredErrors queueSize (encode e) e.answer = .ok .SUCCESS) ↔
      ∀ e ∈ entries, Encodes (encode e) ∧ Granted ignoredErrors e.answer ∧ HasRoom queueSize 1 :=
    forall₂_congr fun e he => requestRoute_eq_success (hreported e he)
  rw [hsingle, requestRoutes_eq_success]
  by_cases hall : ∀ e ∈ entries, Encodes (encode e)
  · have hrefused : ¬ ∃ e ∈ entries, Refused (encode e) := fun ⟨e, he, h⟩ =>
      not_encodes_of_refused h (hall e he)
    have hthrows : ∀ e ∈ entries, ¬ Throws (encode e) := fun e he h =>
      not_encodes_of_throws h (hall e he)
    rw [length_encodable_of_encodes hall]
    constructor
    · intro hiff
      refine ⟨fun h => absurd h hrefused, fun hgood hroom => ?_⟩
      exact (hiff.mpr fun e he => ⟨(hgood e he).1, (hgood e he).2, hroom⟩).2.2
    · rintro ⟨-, hfits⟩
      constructor
      · rintro ⟨-, hgranted, hroom⟩ e he
        exact ⟨hall e he, hgranted e he (hall e he), hroom.one (List.length_pos_of_mem he)⟩
      · intro h
        refine ⟨hthrows, fun e he _ => (h e he).2.1, ?_⟩
        by_cases hnil : entries = []
        · exact .inl (List.length_eq_zero_iff.mpr hnil)
        · obtain ⟨e, he⟩ := List.exists_mem_of_ne_nil entries hnil
          exact hfits (fun e he => ⟨(h e he).1, (h e he).2.1⟩) (h e he).2.2
  · -- the single calls do not all succeed, so the batch must fail too
    constructor
    · intro hiff
      refine ⟨fun _ => ?_, fun hgood => absurd (fun e he => (hgood e he).1) hall⟩
      by_contra hgood
      push Not at hgood
      exact hall fun e he => (hiff.mp hgood e he).1
    · rintro ⟨hskip, -⟩
      constructor
      · rintro ⟨hthrows, hgranted, hroom⟩
        obtain ⟨x, hx, hnot⟩ : ∃ x ∈ entries, ¬ Encodes (encode x) := by simpa using hall
        have hrefused : Refused (encode x) :=
          ((encodes_or_refused_or_throws (encode x)).resolve_left hnot).resolve_right (hthrows x hx)
        rcases hskip ⟨x, hx, hrefused⟩ with ⟨e, he, h⟩ | ⟨e, he, h, hbad⟩ | hfull
        · exact absurd h (hthrows e he)
        · exact absurd (hgranted e he h) hbad
        · exact absurd hroom hfull
      · exact fun h => absurd (fun e he => (h e he).1) hall

end Success

/-! ### Adding and deleting routes -/

section Reported

open NetlinkRouteMessage

private theorem hopFailures_ne_success (route : Route) (path : NextHop) :
    HopFailures (· ≠ .status .SUCCESS) route path := by
  unfold HopFailures
  split <;> simp

/-- The encoder never fails with the status of success. -/
theorem encodeAdd_ne_success [EmptyBytes] (e : RouteEntry) :
    encodeAdd e ≠ .error (.status .SUCCESS) := by
  have hhops (b : Buffer) (o : ℕ) :
      ReachedFailures (· ≠ .status .SUCCESS) e.route e.paths b o :=
    fun _ path _ _ _ => hopFailures_ne_success e.route path
  have hfails : FailsWith (· ≠ .status .SUCCESS) (encodeAdd e) := by
    unfold encodeAdd
    split
    · exact failsWith_addLabelRoute (by decide) (fun _ => by decide) (fun _ => by decide)
        (hhops _ _)
    · exact failsWith_addRoute (by decide) (fun _ => by decide) (fun _ => by decide) (hhops _ _)
  exact fun h => hfails _ h rfl

private theorem encodeDelete_ne_success [EmptyBytes] (e : RouteEntry) :
    encodeDelete e ≠ .error (.status .SUCCESS) := by
  have hfails : FailsWith (· ≠ .status .SUCCESS) (encodeDelete e) := by
    unfold encodeDelete
    split
    · exact failsWith_deleteLabelRoute (by decide) fun _ => by decide
    · exact failsWith_deleteRoute (by decide) (fun _ => by decide) fun _ => by decide
  exact fun h => hfails _ h rfl

end Reported

/-- `addRoutes` agrees with the calls for its routes one by one, in whether all is well, exactly
under this condition. -/
theorem addRoutes_agrees_iff [EmptyBytes] (queueSize : ℕ) (entries : List RouteEntry) :
    (addRoutes queueSize entries = .ok .SUCCESS ↔
      ∀ e ∈ entries, (if e.route.family = AF_MPLS then addLabelRoute queueSize e
        else addRoute queueSize e) = .ok .SUCCESS) ↔
    ((∃ e ∈ entries, Refused (encodeAdd e)) →
      (∃ e ∈ entries, Throws (encodeAdd e)) ∨
      (∃ e ∈ entries, Encodes (encodeAdd e) ∧ ¬ Granted [EEXIST] e.answer) ∨
      ¬ HasRoom queueSize (encodable encodeAdd entries).length) ∧
    ((∀ e ∈ entries, Encodes (encodeAdd e) ∧ Granted [EEXIST] e.answer) →
      HasRoom queueSize 1 → HasRoom queueSize entries.length) := by
  have hone (e : RouteEntry) : (if e.route.family = AF_MPLS then addLabelRoute queueSize e
      else addRoute queueSize e) = requestRoute [EEXIST] queueSize (encodeAdd e) e.answer := by
    unfold encodeAdd
    split <;> rfl
  simp only [hone]
  exact requestRoutes_agrees_iff fun e _ => encodeAdd_ne_success e

/-- A route whose next hop has no gateway. -/
def gatewaylessEntry : RouteEntry where
  route := { dst := (.v4 ⟨[10, 8, 0, 0], rfl⟩, 16), family := AF_INET
             nextHops := {{ ifIndex := some 3 }} }
  paths := [{ ifIndex := some 3 }]
  answer := some 0

/-- Alone it is refused, in a batch it is left out without notice. -/
theorem refused_route_left_out :
    addRoutes 0 [gatewaylessEntry] = .ok .SUCCESS ∧
      addRoute 0 gatewaylessEntry = .ok .NO_NEXTHOP_IP := by
  decide

/-- The same holds of `deleteRoutes`. -/
theorem deleteRoutes_agrees [EmptyBytes] (queueSize : ℕ) {entries : List RouteEntry}
    (hencodes : ∀ e ∈ entries, ¬ Refused (encodeDelete e))
    (hroom : HasRoom queueSize entries.length) :
    deleteRoutes queueSize entries = .ok .SUCCESS ↔
      ∀ e ∈ entries, (if e.route.family = AF_MPLS then deleteLabelRoute queueSize e
        else deleteRoute queueSize e) = .ok .SUCCESS := by
  have hone (e : RouteEntry) : (if e.route.family = AF_MPLS then deleteLabelRoute queueSize e
      else deleteRoute queueSize e) =
        requestRoute [EEXIST, ESRCH, EINVAL] queueSize (encodeDelete e) e.answer := by
    unfold encodeDelete
    split <;> rfl
  simp only [hone]
  exact (requestRoutes_agrees_iff fun e _ => encodeDelete_ne_success e).mpr
    ⟨fun ⟨e, he, h⟩ => absurd h (hencodes e he), fun _ _ => hroom⟩

end NetlinkProtocolSocket

end Fbmeshd
