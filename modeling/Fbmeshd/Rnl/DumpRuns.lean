import Fbmeshd.Rnl.Dumps
import Fbmeshd.Rnl.RequestQueue

/-!
# What a dump returns

A dump returns what was stored in its cache while it waited. That is the answer of the kernel to its
request unless something else was stored there: the late answer to an earlier dump that gave up, or
a notification that happens to carry a number in flight.
-/

namespace Fbmeshd

namespace Dump

open NetlinkProtocolSocket

variable {s : State} {g : ℕ}

/-- `processMessage` puts the record into a cache. -/
def Heard.isStored (e : Heard) : Bool :=
  match e.record with
  | .addr addr =>
    addr.addrPrefix.isSome && e.request.any fun r => r.messageType = .GET_ALL_ADDRS
  | _ => e.request.isSome

/-- The kernel answers one of the requests. -/
def Heard.answers (ids : List ℕ) (e : Heard) : Bool :=
  e.isAnswer && e.request.any fun r => r.id ∈ ids

/-- What a cache holds after the given records, if it was empty before. -/
def stored (kind : Kind) (heard : List Heard) : List Record :=
  (heard.filter fun e => e.isStored && e.record.kind = kind).map Heard.record

/-- The answers to some requests that are kept. -/
def answersTo (ids : List ℕ) (heard : List Heard) : List Record :=
  (heard.filter fun e => e.answers ids && e.record.isKept).map Heard.record

namespace State

/-- The requests that were not discarded. -/
def requests (s : State) : List Request := s.socket.accepted ++ s.posted.flatten

def calls (s : State) : List Call := s.returned.map Return.call ++ s.caller.toList

end State

/-! ### What a message does -/

/-- A record changes the caches and the events, and nothing else. -/
theorem processMessage_eq (now : ℤ) {m : NlMessage} {seq : UInt32} {record : Record}
    (hm : recordOf m = some (seq, record)) (s : State) :
    processMessage now s m =
      { s with
        linkCache := (processMessage now s m).linkCache
        addressCache := (processMessage now s m).addressCache
        neighborCache := (processMessage now s m).neighborCache
        routeCache := (processMessage now s m).routeCache
        events := (processMessage now s m).events } := by
  cases m with
  | addr seq addr =>
    simp only [processMessage]
    rw [reportAddr_eq]
    split
    · rfl
    · split
      · split_ifs <;> rfl
      · rfl
  | route | link | neighbor =>
    simp only [processMessage]
    split_ifs <;> rfl
  | foreignAck | ack | noop | done | unknown => simp [recordOf] at hm

/-- The cache of the kind grows by the record, if it is stored. -/
theorem cache_processMessage (now : ℤ) {m : NlMessage} {seq : UInt32} {record : Record}
    (hm : recordOf m = some (seq, record)) (isAnswer : Bool) (kind : Kind) (s : State) :
    (processMessage now s m).cache kind =
      s.cache kind ++ stored kind [s.arriving seq record isAnswer] := by
  unfold State.arriving
  cases m with
  | addr seq addr =>
    obtain ⟨rfl, rfl⟩ : seq = _ ∧ Record.addr addr = record := by simpa [recordOf] using hm
    cases hprefix : addr.addrPrefix with
    | none => simp [processMessage, stored, Heard.isStored, hprefix]
    | some p =>
      cases hmap : s.socket.nlSeqNoMap seq with
      | none =>
        simp only [processMessage, hmap, hprefix]
        rw [reportAddr_eq]
        cases kind <;> simp [State.cache, stored, Heard.isStored, Record.kind]
      | some r =>
        by_cases hget : r.messageType = .GET_ALL_ADDRS
        · cases kind <;>
            simp [processMessage, hmap, hprefix, hget, State.cache, stored, Heard.isStored,
              Record.kind]
        · simp only [processMessage, hmap, hprefix, hget, if_false]
          rw [reportAddr_eq]
          cases kind <;> split_ifs <;>
            simp [State.cache, stored, Heard.isStored, Record.kind, hget]
  | route seq route | link seq link | neighbor seq neighbor =>
    obtain ⟨rfl, rfl⟩ : seq = _ ∧ _ = record := by simpa [recordOf] using hm
    cases hmap : s.socket.nlSeqNoMap seq <;> cases kind <;> simp only [processMessage, hmap] <;>
      split_ifs <;> simp_all [State.cache, stored, Heard.isStored, Record.kind]
  | foreignAck | ack | noop | done | unknown => simp [recordOf] at hm

/-! ### What the socket keeps -/

section Completed

variable {μ : Type*}

private theorem completed_sendNetlinkMessage (now : ℤ) (s : NetlinkProtocolSocket μ) :
    (sendNetlinkMessage now s).completed = s.completed := by
  by_cases hqueue : s.msgQueue = []
  · rw [sendNetlinkMessage_of_nil now hqueue]
  · rw [sendNetlinkMessage_of_ne_nil now hqueue]
    exact fillIov_induction (P := fun s' _ => s'.completed = s.completed)
      (fun _ _ _ _ _ hsame => hsame) _ rfl

private theorem completed_processAck (now : ℤ) (ack : UInt32) (s : NetlinkProtocolSocket μ) :
    (processAck now ack s).completed = s.completed := by
  by_cases hack : ack = s.lastSeqNo
  · rw [processAck_of_last now hack, completed_sendNetlinkMessage]
  · rw [processAck_of_ne now hack]

private theorem completed_setReturnStatusValue (seq : UInt32) (status : ℤ)
    (s : NetlinkProtocolSocket μ) :
    s.completed ⊆ (setReturnStatusValue seq status s).completed := by
  unfold setReturnStatusValue
  split
  · exact List.subset_append_left _ _
  · exact List.Subset.refl _

/-- A promise that has a value keeps it. -/
theorem completed_step {s s' : NetlinkProtocolSocket μ} (hstep : Step s s') :
    s.completed ⊆ s'.completed := by
  cases hstep with
  | add now nlmsgs =>
    simp only [addNetlinkMessage]
    split
    · exact List.Subset.refl _
    · rw [completed_sendNetlinkMessage]
      exact List.Subset.refl _
  | error now pid seq error =>
    rcases processError_eq (s := s) now pid seq error with heq | ⟨errors, acks, heq⟩
    · rw [heq]
      exact List.Subset.refl _
    · rw [heq, completed_processAck]
      exact completed_setReturnStatusValue seq error
        { s with log := s.log ++ [.replied seq error] }
  | done now seq =>
    refine List.Subset.trans ?_ (completed_setReturnStatusValue seq 0 _)
    rw [completed_processAck]
    exact List.Subset.refl _
  | timer _ _ =>
    rw [fireNlMessageTimer, completed_sendNetlinkMessage]
    exact List.Subset.refl _

/-- The requests that are accepted come first. -/
theorem acceptMessages_isPrefixOf (queueSize : ℕ) (msgs : List μ) :
    acceptMessages queueSize msgs <+: msgs := by
  induction msgs generalizing queueSize with
  | nil => exact List.prefix_rfl
  | cons m msgs ih =>
    unfold acceptMessages
    split
    · exact (List.prefix_cons_inj m).mpr (ih _)
    · exact List.nil_prefix

end Completed

/-! ### Bookkeeping -/

private theorem stored_append (kind : Kind) (xs ys : List Heard) :
    stored kind (xs ++ ys) = stored kind xs ++ stored kind ys := by
  simp [stored]

private theorem answersTo_append (ids : List ℕ) (xs ys : List Heard) :
    answersTo ids (xs ++ ys) = answersTo ids xs ++ answersTo ids ys := by
  simp [answersTo]

private theorem answersTo_eq_nil {ids : List ℕ} {xs : List Heard}
    (h : ∀ e ∈ xs, e.answers ids = false) :
    answersTo ids xs = [] := by
  have hnone : xs.filter (fun e => e.answers ids && e.record.isKept) = [] := by
    rw [List.filter_eq_nil_iff]
    intro e he
    simp [h e he]
  rw [answersTo, hnone, List.map_nil]

/-- What ties the promises, the caches and the calls to the records that came in. -/
structure Sound (g : ℕ) (s : State) : Prop where
  socket : SocketInvariant g s.socket
  distinct : (s.requests.map Request.id).Nodup
  fresh : ∀ r ∈ s.requests, r.id < s.nextId
  addresses : ∀ r ∈ s.requests, r.asks = some .addresses → r.messageType = .GET_ALL_ADDRS
  answered : ∀ e ∈ s.heard, e.isAnswer = true →
    ∃ r ∈ s.socket.accepted, e.request = some r ∧ r.asks = some e.record.kind
  ids : ∀ c ∈ s.calls, ∀ id ∈ c.ids, id < s.nextId
  asks : ∀ c ∈ s.calls, ∀ r ∈ s.requests, r.id ∈ c.ids → r.asks = c.kind
  during : ∀ c ∈ s.calls, c.during ⊆ s.heard
  waiting : ∀ w ∈ s.caller, answersTo w.ids s.heard = answersTo w.ids w.during ∧
    ∀ kind, w.kind = some kind → s.cache kind = stored kind w.during
  returned : ∀ r ∈ s.returned, ∃ kind, r.call.kind = some kind ∧
    (r.outcome ≠ .broken → r.records = stored kind r.call.during) ∧
    (r.outcome = .completed → answersTo r.call.ids s.heard = answersTo r.call.ids r.call.during ∧
      ∀ id ∈ r.call.ids, s.isCompleted id = true)

/-- A call has returned or waits. -/
theorem mem_calls {c : Call} :
    c ∈ s.calls ↔ (∃ r ∈ s.returned, r.call = c) ∨ s.caller = some c := by
  simp [State.calls]

private theorem mem_calls_hear {e : Heard} {c : Call} (hc : c ∈ (s.hear e).calls) :
    ∃ c' ∈ s.calls, c.ids = c'.ids ∧ c.kind = c'.kind ∧ c.during ⊆ c'.during ++ [e] := by
  rcases mem_calls.mp hc with hc | hc
  · exact ⟨c, mem_calls.mpr (.inl hc), rfl, rfl, List.subset_append_left _ _⟩
  · obtain ⟨w, hw, rfl⟩ := Option.map_eq_some_iff.mp hc
    exact ⟨w, mem_calls.mpr (.inr hw), rfl, rfl, List.Subset.refl _⟩

/-- A request is completed if its promise was set. -/
theorem isCompleted_iff {id : ℕ} :
    s.isCompleted id = true ↔ ∃ c ∈ s.socket.completed, c.2.1.id = id := by
  simp [State.isCompleted]

/-- No message makes a request accepted. -/
theorem accepted_processMessage (now : ℤ) (s : State) (m : NlMessage) :
    (processMessage now s m).socket.accepted = s.socket.accepted := by
  cases hm : recordOf m with
  | some p => rw [processMessage_eq now hm]
  | none =>
    cases m with
    | route | link | addr | neighbor => simp [recordOf] at hm
    | ack seq error =>
      rcases processError_eq (s := s.socket) now s.socket.pid seq error with heq | ⟨_, _, heq⟩ <;>
        simp [processMessage, heq]
    | done seq => simp [processMessage, processDone, setReturnStatusValue_eq]
    | unknown | foreignAck | noop => rfl

/-- Requests that were accepted stay so. -/
theorem length_accepted_step (m : Move) (s : State) :
    s.socket.accepted.length ≤ (step m s).socket.accepted.length := by
  have hclear : ∀ kind, (s.clear kind).socket = s.socket := by
    intro kind
    cases kind <;> rfl
  cases m with
  | getAllLinks | getAllIfAddresses | getAllNeighbors | getAllRoutes =>
    simp only [step, getAllLinks, getAllIfAddresses, getAllNeighbors, getAllRoutes, startGetAll]
    split <;> simp [post, hclear]
  | request messageTypes =>
    simp only [step, startRequests]
    split <;> simp [post]
  | setLinkEventCB | setAddrEventCB | setNeighborEventCB => exact le_rfl
  | finish =>
    simp only [step, finish]
    split
    · rfl
    · split
      · rfl
      · split <;> simp [hclear]
  | runPosted now =>
    simp only [step, runPosted]
    split <;> simp [addNetlinkMessage_accepted]
  | receive now isAnswer m =>
    simp only [step, receive]
    split <;> simp [State.hear, accepted_processMessage]
  | timer now =>
    simp only [step, fireTimer]
    split
    · split <;> simp [fireNlMessageTimer]
    · rfl

namespace Sound

variable (h : Sound g s)
include h

/-- A request in flight was accepted. -/
theorem mem_accepted_of_inFlight {seq : UInt32} {r : Request}
    (hr : s.socket.nlSeqNoMap seq = some r) : r ∈ s.socket.accepted := by
  have hsent := ((h.socket.inFlight seq r).mp hr).1
  rw [h.socket.accepted]
  exact List.mem_append_left _ (List.mem_map.mpr ⟨_, hsent, rfl⟩)

/-- A request in flight has not been completed, under whatever number. -/
theorem not_isCompleted_of_inFlight {seq : UInt32} {r : Request}
    (hr : s.socket.nlSeqNoMap seq = some r) : s.isCompleted r.id = false := by
  rw [← Bool.not_eq_true, isCompleted_iff]
  rintro ⟨⟨seq', r', status⟩, hc, hid⟩
  obtain ⟨hsent, hwaiting⟩ := (h.socket.inFlight seq r).mp hr
  obtain ⟨hsent', hanswered⟩ := (h.socket.completed seq' r' status).mp hc
  -- no two requests that were sent have one promise
  have hnodup : (s.socket.sent.map fun x => x.2.id).Nodup := by
    have hdistinct := h.distinct
    rw [State.requests, h.socket.accepted, List.append_assoc, List.map_append] at hdistinct
    simpa [Function.comp_def] using hdistinct.of_append_left
  have heq : (seq', r') = (seq, r) := List.inj_on_of_nodup_map hnodup hsent' hsent hid
  obtain ⟨rfl, rfl⟩ := Prod.mk.inj heq
  rw [hwaiting] at hanswered
  exact RequestProgress.noConfusion hanswered

/-- The socket makes progress, and requests are taken over or discarded. -/
theorem withSocket {socket : NetlinkProtocolSocket Request} {posted : List (List Request)}
    (broken : List ℕ) (hsocket : SocketInvariant g socket)
    (hrequests : (socket.accepted ++ posted.flatten).Sublist s.requests)
    (haccepted : s.socket.accepted ⊆ socket.accepted)
    (hcompleted : s.socket.completed ⊆ socket.completed) :
    Sound g { s with socket, posted, broken } where
  socket := hsocket
  distinct := h.distinct.sublist (hrequests.map _)
  fresh r hr := h.fresh r (hrequests.subset hr)
  addresses r hr := h.addresses r (hrequests.subset hr)
  answered e he hanswer := by
    obtain ⟨r, hr, hrequest⟩ := h.answered e he hanswer
    exact ⟨r, haccepted hr, hrequest⟩
  ids := h.ids
  asks c hc r hr := h.asks c hc r (hrequests.subset hr)
  during := h.during
  waiting := h.waiting
  returned r hr := by
    obtain ⟨kind, hkind, hrecords, hanswers⟩ := h.returned r hr
    refine ⟨kind, hkind, hrecords, fun hdone => ⟨(hanswers hdone).1, fun id hid => ?_⟩⟩
    obtain ⟨c, hc, hcid⟩ := isCompleted_iff.mp ((hanswers hdone).2 id hid)
    exact isCompleted_iff.mpr ⟨c, hcompleted hc, hcid⟩

/-- A record comes in. -/
theorem hear (now : ℤ) {m : NlMessage} {seq : UInt32} {record : Record} {isAnswer : Bool}
    (hm : recordOf m = some (seq, record))
    (hlegal : isAnswer = true →
      ∃ r, s.socket.nlSeqNoMap seq = some r ∧ r.asks = some record.kind) :
    Sound g ((processMessage now s m).hear (s.arriving seq record isAnswer)) := by
  have hcache := fun kind => cache_processMessage now hm isAnswer kind s
  rw [processMessage_eq now hm s] at hcache ⊢
  generalize he : s.arriving seq record isAnswer = e at hcache ⊢
  have hanswer : e.isAnswer = true →
      ∃ r, s.socket.nlSeqNoMap seq = some r ∧ e.request = some r ∧ r.asks = some e.record.kind := by
    subst he
    intro hanswer
    obtain ⟨r, hr, hasks⟩ := hlegal hanswer
    exact ⟨r, hr, hr, hasks⟩
  -- an answer belongs to a request that is in flight
  have hother : ∀ ids : List ℕ, (∀ id ∈ ids, s.isCompleted id = true) → answersTo ids [e] = [] := by
    intro ids hids
    refine answersTo_eq_nil fun e' he' => ?_
    obtain rfl := List.mem_singleton.mp he'
    rw [← Bool.not_eq_true]
    intro hanswers
    simp only [Heard.answers, Bool.and_eq_true] at hanswers
    obtain ⟨r, hr, hrequest, -⟩ := hanswer hanswers.1
    rw [hrequest, Option.any_some, decide_eq_true_eq] at hanswers
    have hcompleted := hids r.id hanswers.2
    rw [h.not_isCompleted_of_inFlight hr] at hcompleted
    exact Bool.false_ne_true hcompleted
  refine ⟨h.socket, h.distinct, h.fresh, h.addresses, ?_, ?_, ?_, ?_, ?_, ?_⟩
  · intro e' he' hanswer'
    rcases List.mem_append.mp he' with he' | he'
    · exact h.answered e' he' hanswer'
    · obtain rfl := List.mem_singleton.mp he'
      obtain ⟨r, hr, hrequest⟩ := hanswer hanswer'
      exact ⟨r, h.mem_accepted_of_inFlight hr, hrequest⟩
  · intro c hc id hid
    obtain ⟨c', hc', hids, -⟩ := mem_calls_hear hc
    exact h.ids c' hc' id (hids ▸ hid)
  · intro c hc r hr hid
    obtain ⟨c', hc', hids, hkind, -⟩ := mem_calls_hear hc
    exact (h.asks c' hc' r hr (hids ▸ hid)).trans hkind.symm
  · intro c hc
    obtain ⟨c', hc', -, -, hduring⟩ := mem_calls_hear hc
    refine List.Subset.trans hduring (List.append_subset.mpr ⟨?_, List.subset_append_right _ _⟩)
    exact List.subset_append_of_subset_left _ (h.during c' hc')
  · intro w hw
    obtain ⟨w, hcaller, rfl⟩ := Option.map_eq_some_iff.mp hw
    obtain ⟨hanswers, hcached⟩ := h.waiting w hcaller
    refine ⟨?_, fun kind hkind => ?_⟩
    · show answersTo w.ids (s.heard ++ [e]) = answersTo w.ids (w.during ++ [e])
      rw [answersTo_append, hanswers, answersTo_append]
    · rw [stored_append, ← hcached kind hkind]
      exact hcache kind
  · intro r hr
    obtain ⟨kind, hkind, hrecords, hdone⟩ := h.returned r hr
    refine ⟨kind, hkind, hrecords, fun hcompleted => ?_⟩
    obtain ⟨hanswers, hids⟩ := hdone hcompleted
    refine ⟨?_, hids⟩
    show answersTo r.call.ids (s.heard ++ [e]) = answersTo r.call.ids r.call.during
    rw [answersTo_append, hother _ hids, List.append_nil, hanswers]

omit h in
private theorem cache_clear (kind : Kind) : (s.clear kind).cache kind = [] := by
  cases kind <;> rfl

private theorem clear (kind : Kind) (hcaller : s.caller = none) : Sound g (s.clear kind) := by
  have hwaiting : ∀ w ∈ (s.clear kind).caller,
      answersTo w.ids (s.clear kind).heard = answersTo w.ids w.during ∧
      ∀ k, w.kind = some k → (s.clear kind).cache k = stored k w.during := by
    cases kind <;> simp [State.clear, hcaller]
  cases kind <;>
    exact ⟨h.socket, h.distinct, h.fresh, h.addresses, h.answered, h.ids, h.asks, h.during,
      hwaiting, h.returned⟩

/-- A call is made. -/
theorem post {kind : Option Kind} {messageTypes : List MessageType}
    (hcache : ∀ k, kind = some k → s.cache k = [])
    (htypes : kind = some .addresses → ∀ t ∈ messageTypes, t = .GET_ALL_ADDRS) :
    Sound g (Dump.post kind messageTypes s) := by
  have hnew : ∀ r ∈ messageTypes.mapIdx fun i type => (⟨s.nextId + i, kind, type⟩ : Request),
      s.nextId ≤ r.id ∧ r.id < s.nextId + messageTypes.length ∧ r.asks = kind ∧
        r.messageType ∈ messageTypes := by
    intro r hr
    obtain ⟨i, hi, rfl⟩ := List.mem_mapIdx.mp hr
    exact ⟨Nat.le_add_right _ _, by simpa using hi, rfl, List.getElem_mem _⟩
  have hrequests : (Dump.post kind messageTypes s).requests = s.requests ++
      messageTypes.mapIdx fun i type => (⟨s.nextId + i, kind, type⟩ : Request) := by
    simp [State.requests, Dump.post]
  have hnewIds : (messageTypes.mapIdx fun i type =>
      (⟨s.nextId + i, kind, type⟩ : Request)).map Request.id =
        List.range' s.nextId messageTypes.length := by
    refine List.ext_getElem (by simp) fun i _ _ => ?_
    simp
  have hcalls : ∀ c ∈ (Dump.post kind messageTypes s).calls, c ∈ s.calls ∨
      c = { kind, ids := List.range' s.nextId messageTypes.length } := by
    intro c hc
    rcases mem_calls.mp hc with hc | hc
    · exact .inl (mem_calls.mpr (.inl hc))
    · rw [← hnewIds]
      exact .inr (Option.some.inj hc).symm
  refine ⟨h.socket, ?_, ?_, ?_, h.answered, ?_, ?_, ?_, ?_, h.returned⟩
  · rw [hrequests, List.map_append, hnewIds, List.nodup_append]
    refine ⟨h.distinct, List.nodup_range', ?_⟩
    rintro _ hid id hid' rfl
    obtain ⟨r, hr, rfl⟩ := List.mem_map.mp hid
    have hlt := h.fresh r hr
    have hge := (List.mem_range'_1.mp hid').1
    omega
  · intro r hr
    show r.id < s.nextId + messageTypes.length
    rcases List.mem_append.mp (hrequests ▸ hr) with hr | hr
    · exact Nat.lt_add_right _ (h.fresh r hr)
    · exact (hnew r hr).2.1
  · intro r hr hasks
    rcases List.mem_append.mp (hrequests ▸ hr) with hr | hr
    · exact h.addresses r hr hasks
    · obtain ⟨-, -, hkind, htype⟩ := hnew r hr
      exact htypes (hkind.symm.trans hasks) _ htype
  · intro c hc id hid
    show id < s.nextId + messageTypes.length
    rcases hcalls c hc with hc | rfl
    · exact Nat.lt_add_right _ (h.ids c hc id hid)
    · exact (List.mem_range'_1.mp hid).2
  · intro c hc r hr hid
    rcases hcalls c hc with hc | rfl <;>
      rcases List.mem_append.mp (hrequests ▸ hr) with hr | hr
    · exact h.asks c hc r hr hid
    · exact absurd (h.ids c hc _ hid) (Nat.not_lt.mpr (hnew r hr).1)
    · exact absurd (h.fresh r hr) (Nat.not_lt.mpr (List.mem_range'_1.mp hid).1)
    · exact (hnew r hr).2.2.1
  · intro c hc
    rcases hcalls c hc with hc | rfl
    · exact h.during c hc
    · exact List.nil_subset _
  · intro w hw
    obtain rfl := Option.some.inj hw
    refine ⟨?_, fun k hk => hcache k hk⟩
    -- nothing that has come in answers a request made now
    refine answersTo_eq_nil fun e he => ?_
    rw [← Bool.not_eq_true, hnewIds]
    intro hanswers
    simp only [Heard.answers, Bool.and_eq_true] at hanswers
    obtain ⟨r, hr, hrequest, -⟩ := h.answered e he hanswers.1
    rw [hrequest, Option.any_some, decide_eq_true_eq] at hanswers
    have hlt := h.fresh r (List.mem_append_left _ hr)
    have hge := (List.mem_range'_1.mp hanswers.2).1
    omega

private theorem startGetAll {kind : Kind} {messageType : MessageType}
    (htype : kind = .addresses → messageType = .GET_ALL_ADDRS) :
    Sound g (Dump.startGetAll kind messageType s) := by
  unfold Dump.startGetAll
  split
  next hcaller =>
    refine (h.clear kind (Option.isNone_iff_eq_none.mp hcaller)).post ?_ ?_
    · rintro k hk
      obtain rfl := Option.some.inj hk
      exact cache_clear _
    · intro hkind t ht
      rw [List.mem_singleton.mp ht]
      exact htype (Option.some.inj hkind)
  next => exact h

private theorem startRequests (messageTypes : List MessageType) :
    Sound g (Dump.startRequests messageTypes s) := by
  unfold Dump.startRequests
  split
  next => exact h.post (by simp) (by simp)
  next => exact h

omit h in
private theorem isCompleted_of_outcome {w : Call} (hw : s.outcome w = .completed) :
    ∀ id ∈ w.ids, s.isCompleted id = true := by
  intro id hid
  unfold State.outcome at hw
  split at hw
  next hsettled =>
    split at hw
    next => exact absurd hw (by decide)
    next hbroken =>
      rw [Bool.not_eq_true, List.any_eq_false] at hbroken
      have hcase := List.all_eq_true.mp hsettled id hid
      simpa [hbroken id hid] using hcase
  next => exact absurd hw (by decide)

/-- The call that waits is over. -/
theorem withReturn {w : Call} (hw : s.caller = some w) {returned : List Return}
    (hreturned : returned = s.returned ∨ ∃ kind outcome records, w.kind = some kind ∧
      returned = s.returned ++ [⟨w, outcome, records⟩] ∧
      (outcome ≠ .broken → records = s.cache kind) ∧
      (outcome = .completed → ∀ id ∈ w.ids, s.isCompleted id = true)) :
    Sound g { s with caller := none, returned } := by
  have hcalls : ∀ c ∈ { s with caller := none, returned }.calls, c ∈ s.calls := by
    intro c hc
    rcases mem_calls.mp hc with ⟨r, hr, rfl⟩ | hc
    · rcases hreturned with rfl | ⟨_, _, _, -, rfl, -⟩
      · exact mem_calls.mpr (.inl ⟨r, hr, rfl⟩)
      · rcases List.mem_append.mp hr with hr | hr
        · exact mem_calls.mpr (.inl ⟨r, hr, rfl⟩)
        · rw [List.mem_singleton.mp hr]
          exact mem_calls.mpr (.inr hw)
    · exact absurd hc (by simp)
  refine ⟨h.socket, h.distinct, h.fresh, h.addresses, h.answered, fun c hc => h.ids c (hcalls c hc),
    fun c hc => h.asks c (hcalls c hc), fun c hc => h.during c (hcalls c hc), by simp, ?_⟩
  intro r hr
  rcases hreturned with rfl | ⟨kind, outcome, records, hkind, rfl, hrecords, hdone⟩
  · exact h.returned r hr
  · rcases List.mem_append.mp hr with hr | hr
    · exact h.returned r hr
    · obtain rfl := List.mem_singleton.mp hr
      obtain ⟨hanswers, hcache⟩ := h.waiting w hw
      refine ⟨kind, hkind, fun hbroken => (hrecords hbroken).trans (hcache kind hkind),
        fun hcompleted => ⟨hanswers, hdone hcompleted⟩⟩

private theorem finish : Sound g (Dump.finish s) := by
  unfold Dump.finish
  split
  next => exact h
  next w hw =>
    split
    next => exact h.withReturn hw (.inl rfl)
    next kind hkind =>
      split
      next => exact h.withReturn hw (.inr ⟨kind, _, _, hkind, rfl, by simp, by simp⟩)
      next =>
        have hover := (h.withReturn hw (.inr ⟨kind, _, _, hkind, rfl, fun _ => rfl,
          isCompleted_of_outcome⟩)).clear kind rfl
        cases kind <;> exact hover

/-- A callback of the event loop that takes no new requests over. -/
theorem socketStep {socket : NetlinkProtocolSocket Request} (hstep : Step s.socket socket)
    (haccepted : socket.accepted = s.socket.accepted)
    (hbound : g + s.socket.accepted.length < 2 ^ 32) : Sound g { s with socket } := by
  refine h.withSocket s.broken (h.socket.step hstep (haccepted ▸ hbound)) ?_ ?_
    (completed_step hstep)
  · rw [haccepted]
    exact List.Sublist.refl _
  · rw [haccepted]
    exact List.Subset.refl _

private theorem runPosted (now : ℤ)
    (hbound : g + (Dump.runPosted now s).socket.accepted.length < 2 ^ 32) :
    Sound g (Dump.runPosted now s) := by
  unfold Dump.runPosted at hbound ⊢
  split
  next => exact h
  next msgs rest hposted =>
    have hstep : Step s.socket (addNetlinkMessage now msgs s.socket) := .add now msgs
    rw [hposted] at hbound
    refine h.withSocket _ (h.socket.step hstep hbound) ?_ ?_ (completed_step hstep)
    · rw [addNetlinkMessage_accepted, State.requests, hposted, List.flatten_cons, List.append_assoc]
      refine (List.Sublist.refl _).append (List.Sublist.append ?_ (List.Sublist.refl _))
      exact (acceptMessages_isPrefixOf _ msgs).sublist
    · rw [addNetlinkMessage_accepted]
      exact List.subset_append_left _ _

private theorem fireTimer (now : ℤ) (hbound : g + s.socket.accepted.length < 2 ^ 32) :
    Sound g (Dump.fireTimer now s) := by
  unfold Dump.fireTimer
  split
  next d htimer =>
    split
    next hdue =>
      exact h.socketStep (.timer htimer hdue) (by simp [fireNlMessageTimer]) hbound
    next => exact h
  next => exact h

/-- A message that describes nothing comes in. -/
theorem processMessage (now : ℤ) {m : NlMessage} (hm : recordOf m = none)
    (hbound : g + s.socket.accepted.length < 2 ^ 32) : Sound g (Dump.processMessage now s m) := by
  cases m with
  | route | link | addr | neighbor => simp [recordOf] at hm
  | ack seq error =>
    exact h.socketStep (.error now s.socket.pid seq error)
      (accepted_processMessage now s (.ack seq error)) hbound
  | done seq =>
    exact h.socketStep (.done now seq) (accepted_processMessage now s (.done seq)) hbound
  | unknown =>
    have hs := h.socket
    exact h.withSocket s.broken ⟨⟨hs.accepted, hs.numbers, hs.next, hs.unsent, hs.inFlight,
      hs.completed, hs.once⟩, ⟨hs.batches, hs.bounded⟩, hs.timer, hs.last⟩ (List.Sublist.refl _)
      (List.Subset.refl _) (List.Subset.refl _)
  | foreignAck | noop => exact h

private theorem receive (now : ℤ) {isAnswer : Bool} {m : NlMessage}
    (hlegal : Legal s (.receive now isAnswer m))
    (hbound : g + s.socket.accepted.length < 2 ^ 32) :
    Sound g (Dump.receive now isAnswer m s) := by
  unfold Dump.receive
  split
  next seq record hm =>
    refine h.hear now hm fun hanswer => ?_
    subst hanswer
    exact hlegal _ hm
  next hm => exact h.processMessage now hm hbound

/-- The callbacks play no part. -/
theorem withCallbacks (linkEventCB addrEventCB neighborEventCB : Bool) :
    Sound g { s with linkEventCB, addrEventCB, neighborEventCB } :=
  ⟨h.socket, h.distinct, h.fresh, h.addresses, h.answered, h.ids, h.asks, h.during, h.waiting,
    h.returned⟩

/-- One move of any party. -/
theorem step {m : Move} (hlegal : Legal s m)
    (hbound : g + (Dump.step m s).socket.accepted.length < 2 ^ 32) : Sound g (Dump.step m s) := by
  have hbound₀ : g + s.socket.accepted.length < 2 ^ 32 :=
    Nat.lt_of_le_of_lt (Nat.add_le_add_left (length_accepted_step m s) g) hbound
  cases m with
  | getAllLinks unset => exact h.startGetAll (by simp)
  | getAllIfAddresses => exact h.startGetAll fun _ => rfl
  | getAllNeighbors unset => exact h.startGetAll (by simp)
  | getAllRoutes unset => exact h.startGetAll (by simp)
  | request messageTypes => exact h.startRequests messageTypes
  | finish => exact h.finish
  | setLinkEventCB | setAddrEventCB | setNeighborEventCB => exact h.withCallbacks _ _ _
  | runPosted now => exact h.runPosted now hbound
  | receive now isAnswer m => exact h.receive now hlegal hbound₀
  | timer now => exact h.fireTimer now hbound₀

end Sound

/-! ### What a dump returns -/

variable {pid lastSeqNo gSequenceNumber : UInt32} {allowed : State → Move → Prop}

/-- The invariant holds in every run with less than `2 ^ 32` requests. -/
theorem sound_of_reachable (hallowed : ∀ s m, allowed s m → Legal s m)
    (h : Reachable pid lastSeqNo gSequenceNumber allowed s)
    (hbound : gSequenceNumber.toNat + s.socket.accepted.length < 2 ^ 32) :
    Sound gSequenceNumber.toNat s := by
  induction h with
  | start =>
    exact ⟨.init pid lastSeqNo gSequenceNumber, by simp [State.requests], by simp [State.requests],
      by simp [State.requests], by simp, by simp [State.calls], by simp [State.calls],
      by simp [State.calls], by simp, by simp⟩
  | @move s m _ hm ih =>
    have hle := length_accepted_step m s
    exact (ih (by omega)).step (hallowed s m hm) hbound

private theorem isKept_of_isStored {e : Heard} (he : e.isStored = true) :
    e.record.isKept = true := by
  unfold Heard.isStored at he
  unfold Record.isKept
  split
  next addr haddr =>
    rw [haddr] at he
    exact (Bool.and_eq_true_iff.mp he).1
  next => rfl

/-- Leaving out more gives the same only if there was nothing more to leave out. -/
theorem map_filter_eq_iff {α β : Type*} {p q : α → Bool} {f : α → β} {l : List α}
    (himp : ∀ x ∈ l, q x = true → p x = true) :
    (l.filter p).map f = (l.filter q).map f ↔ ∀ x ∈ l, p x = true → q x = true := by
  constructor
  · intro heq x hx hp
    have hfilter : (l.filter p).filter q = l.filter q := by
      rw [List.filter_filter]
      refine List.filter_congr fun y hy => ?_
      cases hq : q y with
      | false => rfl
      | true => exact himp y hy hq
    have hlength : ((l.filter p).filter q).length = (l.filter p).length := by
      rw [hfilter]
      simpa using (congrArg List.length heq).symm
    have hsame := (List.filter_sublist (p := q) (l := l.filter p)).eq_of_length hlength
    have hmem : x ∈ (l.filter p).filter q := by
      rw [hsame]
      exact List.mem_filter.mpr ⟨hx, hp⟩
    exact (List.mem_filter.mp hmem).2
  · intro hpq
    rw [List.filter_congr fun x hx => Bool.eq_iff_iff.mpr ⟨hpq x hx, himp x hx⟩]

/-- A kept answer to a request of the call is stored in the cache of the call. -/
theorem Sound.stored_of_answers (h : Sound g s) {c : Call} (hc : c ∈ s.calls) {kind : Kind}
    (hkind : c.kind = some kind) {e : Heard} (he : e ∈ s.heard) (hanswers : e.answers c.ids = true)
    (hkept : e.record.isKept = true) : e.isStored = true ∧ e.record.kind = kind := by
  simp only [Heard.answers, Bool.and_eq_true] at hanswers
  obtain ⟨r, hr, hrequest, hasks⟩ := h.answered e he hanswers.1
  have hr : r ∈ s.requests := List.mem_append_left _ hr
  rw [hrequest, Option.any_some, decide_eq_true_eq] at hanswers
  have hsame := h.asks c hc r hr hanswers.2
  rw [hasks, hkind, Option.some_inj] at hsame
  refine ⟨?_, hsame⟩
  unfold Heard.isStored
  split
  next addr haddr =>
    rw [haddr] at hkept hasks
    simp only [Record.isKept] at hkept
    simp [hkept, hrequest, h.addresses r hr hasks]
  next => rw [hrequest]; rfl

/-- A dump that was answered returns the answer if and only if nothing else went into its cache. -/
theorem Sound.records_eq_iff (h : Sound g s) {r : Return} (hr : r ∈ s.returned)
    (hdone : r.outcome = .completed) :
    ∃ kind, r.call.kind = some kind ∧
      (r.records = answersTo r.call.ids s.heard ↔ ∀ e ∈ r.call.during,
        e.isStored = true → e.record.kind = kind → e.answers r.call.ids = true) := by
  obtain ⟨kind, hkind, hrecords, hanswers⟩ := h.returned r hr
  have hcall : r.call ∈ s.calls := mem_calls.mpr (.inl ⟨r, hr, rfl⟩)
  refine ⟨kind, hkind, ?_⟩
  rw [hrecords (by rw [hdone]; decide), (hanswers hdone).1]
  have himp : ∀ e ∈ r.call.during, (e.answers r.call.ids && e.record.isKept) = true →
      (e.isStored && e.record.kind = kind) = true := by
    intro e he hboth
    rw [Bool.and_eq_true] at hboth
    have hstored := h.stored_of_answers hcall hkind (h.during _ hcall he) hboth.1 hboth.2
    simpa using hstored
  rw [stored, answersTo, map_filter_eq_iff himp]
  refine forall₂_congr fun e _ => ⟨fun hboth hstored hekind => ?_, fun hanswer hboth => ?_⟩
  · exact (Bool.and_eq_true_iff.mp (hboth (by simp [hstored, hekind]))).1
  · rw [Bool.and_eq_true, decide_eq_true_eq] at hboth
    rw [Bool.and_eq_true]
    exact ⟨hanswer hboth.1 hboth.2, isKept_of_isStored hboth.1⟩

/-- A dump whose promise was fulfilled returns exactly the answer of the kernel to its request, in
order, if and only if nothing else went into its cache while it waited. -/
theorem getAll_returns_answer_iff (h : Reachable pid lastSeqNo gSequenceNumber Legal s)
    (hbound : gSequenceNumber.toNat + s.socket.accepted.length < 2 ^ 32) {r : Return}
    (hr : r ∈ s.returned) (hdone : r.outcome = .completed) :
    ∃ kind, r.call.kind = some kind ∧
      (r.records = answersTo r.call.ids s.heard ↔ ∀ e ∈ r.call.during,
        e.isStored = true → e.record.kind = kind → e.answers r.call.ids = true) :=
  (sound_of_reachable (fun _ _ h => h) h hbound).records_eq_iff hr hdone

/-- An interface of the sample runs. -/
def sampleLink (ifIndex : UInt32) : Link := { ifIndex, flags := 0 }

/-- A dump of the links gives up, the next one is made, and then the kernel answers both. -/
def lateAnswer : State :=
  run [.getAllLinks .GET_ADDR, .runPosted 0, .finish, .getAllLinks .GET_ADDR, .runPosted 1,
    .receive 2 true (.link 1 (sampleLink 3)), .receive 2 false (.done 1),
    .receive 3 true (.link 2 (sampleLink 4)), .receive 3 false (.done 2), .finish]
    { socket := { pid := 7, lastSeqNo := 0, gSequenceNumber := 0 } }

private theorem reachable_lateAnswer : Reachable 7 0 0 Legal lateAnswer :=
  Reachable.run .start (by decide)

/-- What the second dump returns. -/
def mixedReturn : Return where
  call.kind := some .links
  call.ids := [1]
  call.during := [⟨.link (sampleLink 3), some ⟨0, some .links, .GET_ADDR⟩, true, false⟩,
    ⟨.link (sampleLink 4), some ⟨1, some .links, .GET_ADDR⟩, true, false⟩]
  outcome := .completed
  records := [.link (sampleLink 3), .link (sampleLink 4)]

/-- A call that gets the answer to an earlier dump, which came too late, returns it. -/
theorem getAll_returns_late_answer :
    mixedReturn ∈ lateAnswer.returned ∧ mixedReturn.records ≠ answersTo [1] lateAnswer.heard := by
  have hmem : mixedReturn ∈ lateAnswer.returned := by decide
  refine ⟨hmem, fun heq => ?_⟩
  obtain ⟨kind, hkind, hiff⟩ := getAll_returns_answer_iff reachable_lateAnswer (by decide) hmem rfl
  have hlate := hiff.mp heq _ List.mem_cons_self rfl (Option.some.inj hkind)
  exact absurd hlate (by decide)

end Dump

end Fbmeshd
