import Fbmeshd.Rnl.DumpRuns

/-!
# Undisturbed dumps

As long as no call gives up and no notification carries a number in flight, dumps and notifications
do not mix, whatever the interleaving: a dump returns the answer of the kernel to it, and each
notification reaches its callback once, in order.
-/

namespace Fbmeshd

namespace Dump

open NetlinkProtocolSocket

variable {s : State} {g : ℕ}

/-- The kernel announces something, and there is a callback for it. -/
def Heard.isNotification (e : Heard) : Bool :=
  !e.isAnswer && e.record.isKept && e.record.kind ≠ .routes && e.isListened

/-- `processMessage` hands the record to a callback. -/
def Heard.isReported (e : Heard) : Bool :=
  match e.record with
  | .addr addr =>
    addr.addrPrefix.isSome && e.isListened &&
      e.request.all fun r => r.messageType = .ADD_ADDR ∨ r.messageType = .DEL_ADDR
  | .route _ => false
  | _ => e.isListened && e.request.isNone

private theorem events_processMessage (now : ℤ) {m : NlMessage} {seq : UInt32} {record : Record}
    (hm : recordOf m = some (seq, record)) (isAnswer : Bool) :
    (processMessage now s m).events = s.events ++
      ([s.arriving seq record isAnswer].filter Heard.isReported).map Heard.record := by
  unfold State.arriving
  cases m with
  | addr seq addr =>
    obtain ⟨rfl, rfl⟩ : seq = _ ∧ Record.addr addr = record := by simpa [recordOf] using hm
    cases hprefix : addr.addrPrefix with
    | none => simp [processMessage, Heard.isReported, hprefix]
    | some p =>
      cases hmap : s.socket.nlSeqNoMap seq with
      | none =>
        cases haddr : s.addrEventCB <;> simp [processMessage, hmap, hprefix, reportAddr, haddr,
          Heard.isReported, State.listens, Record.kind]
      | some r =>
        simp only [processMessage, hmap, hprefix, reportAddr]
        split_ifs <;> simp_all [Heard.isReported, State.listens, Record.kind]
  | route seq route | link seq link | neighbor seq neighbor =>
    obtain ⟨rfl, rfl⟩ : seq = _ ∧ _ = record := by simpa [recordOf] using hm
    cases hmap : s.socket.nlSeqNoMap seq <;> simp only [processMessage, hmap] <;> split_ifs <;>
      simp_all [Heard.isReported, State.listens, Record.kind]
  | foreignAck | ack | noop | done | unknown => simp [recordOf] at hm

/-- Nothing disturbs a dump: no call gives up, and no notification carries the number of a request
in flight, except for the addresses that the kernel announces under the number of the request that
adds or deletes them. -/
def Undisturbed (s : State) : Move → Prop
  | .receive now true m => Legal s (.receive now true m)
  | .receive _ false m =>
    ∀ p ∈ recordOf m, ∀ r ∈ s.socket.nlSeqNoMap p.1, p.2.kind = .addresses ∧
      (r.messageType = .ADD_ADDR ∨ r.messageType = .DEL_ADDR)
  | .finish => ∀ w ∈ s.caller, s.isSettled w = true
  | _ => True

instance (s : State) (m : Move) : Decidable (Undisturbed s m) := by
  cases m with
  | receive now isAnswer m =>
    cases isAnswer with
    | true => exact inferInstanceAs (Decidable (Legal s (.receive now true m)))
    | false => unfold Undisturbed; infer_instance
  | finish => unfold Undisturbed; infer_instance
  | getAllLinks | getAllIfAddresses | getAllNeighbors | getAllRoutes | request
  | setLinkEventCB | setAddrEventCB | setNeighborEventCB | runPosted | timer =>
    exact inferInstanceAs (Decidable True)

private theorem Undisturbed.legal {m : Move} (h : Undisturbed s m) : Legal s m := by
  cases m with
  | receive now isAnswer m =>
    cases isAnswer with
    | false => trivial
    | true => exact h
  | _ => trivial

/-- Every request that is neither completed nor discarded belongs to the call that waits, and every
record went where it belongs. -/
structure Settled (s : State) : Prop where
  live : ∀ r ∈ s.requests, s.isCompleted r.id = true ∨ ∃ w ∈ s.caller, r.id ∈ w.ids
  broken : ∀ r ∈ s.requests, r.id ∉ s.broken
  brokenIds : ∀ id ∈ s.broken, id < s.nextId
  own : ∀ c ∈ s.calls, ∀ kind, c.kind = some kind → ∀ e ∈ c.during, e.isStored = true →
    e.record.kind = kind → e.answers c.ids = true
  done : ∀ r ∈ s.returned, r.outcome ≠ .timedOut
  events : s.events = (s.heard.filter Heard.isNotification).map Heard.record

namespace Settled

variable (h : Settled s)
include h

private theorem withSocket {socket : NetlinkProtocolSocket Request} {posted : List (List Request)}
    {broken : List ℕ} (hrequests : (socket.accepted ++ posted.flatten).Sublist s.requests)
    (hcompleted : s.socket.completed ⊆ socket.completed)
    (hbroken : ∀ r ∈ socket.accepted ++ posted.flatten, r.id ∉ broken)
    (hbrokenIds : ∀ id ∈ broken, id < s.nextId) : Settled { s with socket, posted, broken } where
  live r hr := by
    refine (h.live r (hrequests.subset hr)).imp_left fun hdone => ?_
    obtain ⟨c, hc, hid⟩ := isCompleted_iff.mp hdone
    exact isCompleted_iff.mpr ⟨c, hcompleted hc, hid⟩
  broken := hbroken
  brokenIds := hbrokenIds
  own := h.own
  done := h.done
  events := h.events

private theorem socketStep {socket : NetlinkProtocolSocket Request} (hstep : Step s.socket socket)
    (haccepted : socket.accepted = s.socket.accepted) : Settled { s with socket } := by
  refine h.withSocket ?_ (completed_step hstep) ?_ h.brokenIds
  · rw [haccepted]
    exact List.Sublist.refl _
  · rw [haccepted]
    exact h.broken

/-- An answer that is stored belongs to the call that waits, and a notification is not stored. -/
theorem answers_of_isStored (hsound : Sound g s) {now : ℤ} {m : NlMessage} {seq : UInt32}
    {record : Record} {isAnswer : Bool} (hm : recordOf m = some (seq, record))
    (hmove : Undisturbed s (.receive now isAnswer m)) {w : Call} (hw : s.caller = some w)
    (hstored : (s.arriving seq record isAnswer).isStored = true) :
    (s.arriving seq record isAnswer).answers w.ids = true := by
  unfold State.arriving at hstored ⊢
  cases isAnswer with
  | true =>
    obtain ⟨r, (hr : s.socket.nlSeqNoMap seq = some r), -⟩ := hmove _ hm
    have hmem : r ∈ s.requests := List.mem_append_left _ (hsound.mem_accepted_of_inFlight hr)
    rcases h.live r hmem with hdone | ⟨w', hw', hid⟩
    · rw [hsound.not_isCompleted_of_inFlight hr] at hdone
      exact absurd hdone Bool.false_ne_true
    · obtain rfl := Option.some.inj (hw'.symm.trans hw)
      simp [Heard.answers, hr, hid]
  | false =>
    have hnotified := hmove _ hm
    cases hr : s.socket.nlSeqNoMap seq with
    | none => cases record <;> simp [Heard.isStored, hr] at hstored
    | some r =>
      obtain ⟨hkind, htype⟩ := hnotified r hr
      cases record with
      | addr addr =>
        simp only [Heard.isStored, hr, Option.any_some, Bool.and_eq_true, decide_eq_true_eq]
          at hstored
        rw [hstored.2] at htype
        simp at htype
      | link | neighbor | route => simp [Record.kind] at hkind

omit h in
/-- The callbacks get the notifications. -/
theorem isReported_eq (hsound : Sound g s) {now : ℤ} {m : NlMessage} {seq : UInt32}
    {record : Record} {isAnswer : Bool} (hm : recordOf m = some (seq, record))
    (hmove : Undisturbed s (.receive now isAnswer m)) :
    (s.arriving seq record isAnswer).isReported =
      (s.arriving seq record isAnswer).isNotification := by
  unfold State.arriving
  cases isAnswer with
  | true =>
    obtain ⟨r, (hr : s.socket.nlSeqNoMap seq = some r), hasks⟩ := hmove _ hm
    have hmem : r ∈ s.requests := List.mem_append_left _ (hsound.mem_accepted_of_inFlight hr)
    cases record with
    | addr addr =>
      simp [Heard.isReported, Heard.isNotification, hr, hsound.addresses r hmem hasks]
    | link | neighbor | route => simp [Heard.isReported, Heard.isNotification, hr]
  | false =>
    have hnotified := hmove _ hm
    cases hr : s.socket.nlSeqNoMap seq with
    | none =>
      cases record <;> simp [Heard.isReported, Heard.isNotification, Record.isKept, Record.kind]
    | some r =>
      obtain ⟨hkind, htype⟩ := hnotified r hr
      cases record with
      | addr addr =>
        simp [Heard.isReported, Heard.isNotification, Record.isKept, Record.kind, htype]
      | link | neighbor | route => simp [Record.kind] at hkind

/-- A record that comes in goes to the call that waits or to a callback. -/
theorem hear (hsound : Sound g s) (now : ℤ) {m : NlMessage} {seq : UInt32} {record : Record}
    {isAnswer : Bool} (hm : recordOf m = some (seq, record))
    (hmove : Undisturbed s (.receive now isAnswer m)) :
    Settled ((processMessage now s m).hear (s.arriving seq record isAnswer)) := by
  have hevents := @events_processMessage s now _ _ _ hm isAnswer
  have hreported := isReported_eq hsound hm hmove
  have hown := fun w (hw : s.caller = some w) => h.answers_of_isStored hsound hm hmove hw
  rw [processMessage_eq now hm s] at hevents ⊢
  generalize s.arriving seq record isAnswer = e at *
  refine ⟨?_, h.broken, h.brokenIds, ?_, h.done, ?_⟩
  · intro r hr
    refine (h.live r hr).imp_right ?_
    rintro ⟨w, hw, hid⟩
    exact ⟨_, Option.map_eq_some_iff.mpr ⟨w, hw, rfl⟩, hid⟩
  · intro c hc kind hkind e' he' hstored hekind
    rcases mem_calls.mp hc with hc | hc
    · exact h.own c (mem_calls.mpr (.inl hc)) kind hkind e' he' hstored hekind
    · obtain ⟨w, hw, rfl⟩ := Option.map_eq_some_iff.mp hc
      rcases List.mem_append.mp he' with he' | he'
      · exact h.own w (mem_calls.mpr (.inr hw)) kind hkind e' he' hstored hekind
      · obtain rfl := List.mem_singleton.mp he'
        exact hown w hw hstored
  · refine hevents.trans ?_
    rw [h.events]
    simp [State.hear, List.filter_cons, hreported]

private theorem clear (kind : Kind) : Settled (s.clear kind) := by
  cases kind <;> exact ⟨h.live, h.broken, h.brokenIds, h.own, h.done, h.events⟩

/-- A call is made while no other waits. -/
theorem post (kind : Option Kind) (messageTypes : List MessageType)
    (hcaller : s.caller = none) : Settled (Dump.post kind messageTypes s) := by
  have hrequests : ∀ r ∈ (Dump.post kind messageTypes s).requests, r ∈ s.requests ∨
      r ∈ messageTypes.mapIdx fun i type => (⟨s.nextId + i, kind, type⟩ : Request) := by
    intro r hr
    simpa [State.requests, Dump.post, or_assoc] using hr
  refine ⟨?_, ?_, fun id hid => Nat.lt_add_right _ (h.brokenIds id hid), ?_, h.done, h.events⟩
  · intro r hr
    rcases hrequests r hr with hr | hr
    · refine .inl ((h.live r hr).resolve_right ?_)
      simp [hcaller]
    · exact .inr ⟨_, rfl, List.mem_map.mpr ⟨r, hr, rfl⟩⟩
  · intro r hr
    rcases hrequests r hr with hr | hr
    · exact h.broken r hr
    · obtain ⟨i, _, rfl⟩ := List.mem_mapIdx.mp hr
      intro hbroken
      have hlt : s.nextId + i < s.nextId := h.brokenIds _ hbroken
      omega
  · intro c hc k hkind e he
    rcases mem_calls.mp hc with hc | hc
    · exact h.own c (mem_calls.mpr (.inl hc)) k hkind e he
    · rw [← Option.some.inj hc] at he
      exact absurd he List.not_mem_nil

private theorem startGetAll (kind : Kind) (messageType : MessageType) :
    Settled (Dump.startGetAll kind messageType s) := by
  unfold Dump.startGetAll
  split
  next hcaller =>
    refine (h.clear kind).post _ _ ?_
    cases kind <;> exact Option.isNone_iff_eq_none.mp hcaller
  next => exact h

private theorem startRequests (messageTypes : List MessageType) :
    Settled (Dump.startRequests messageTypes s) := by
  unfold Dump.startRequests
  split
  next hcaller => exact h.post _ _ (Option.isNone_iff_eq_none.mp hcaller)
  next => exact h

/-- The call that waits is over, and leaves no request behind. -/
theorem withReturn {w : Call} (hw : s.caller = some w) (hsettled : s.isSettled w = true)
    {returned : List Return}
    (hreturned : ∀ r ∈ returned, r ∈ s.returned ∨ r.call = w ∧ r.outcome ≠ .timedOut) :
    Settled { s with caller := none, returned } where
  live r hr := by
    refine .inl ?_
    rcases h.live r hr with hdone | ⟨w', hw', hid⟩
    · exact hdone
    · obtain rfl := Option.some.inj (hw'.symm.trans hw)
      have hcase := List.all_eq_true.mp hsettled r.id hid
      have hdone : s.isCompleted r.id = true := by simpa [h.broken r hr] using hcase
      exact hdone
  broken := h.broken
  brokenIds := h.brokenIds
  own c hc := by
    refine h.own c (mem_calls.mpr ?_)
    rcases mem_calls.mp hc with ⟨r, hr, rfl⟩ | hc
    · rcases hreturned r hr with hr | ⟨hr, -⟩
      · exact .inl ⟨r, hr, rfl⟩
      · exact .inr (hr ▸ hw)
    · exact absurd hc (by simp)
  done r hr := (hreturned r hr).elim (h.done r) And.right
  events := h.events

private theorem finish (hmove : Undisturbed s .finish) : Settled (Dump.finish s) := by
  have happend : ∀ (w : Call) outcome records, outcome ≠ .timedOut →
      ∀ r ∈ s.returned ++ [⟨w, outcome, records⟩],
        r ∈ s.returned ∨ r.call = w ∧ r.outcome ≠ .timedOut := by
    intro w outcome records hdone r hr
    rcases List.mem_append.mp hr with hr | hr
    · exact .inl hr
    · obtain rfl := List.mem_singleton.mp hr
      exact .inr ⟨rfl, hdone⟩
  unfold Dump.finish
  split
  next => exact h
  next w hw =>
    have hsettled := hmove w hw
    have hdone : s.outcome w ≠ .timedOut := by
      unfold State.outcome
      rw [if_pos hsettled]
      split <;> decide
    split
    next => exact h.withReturn hw hsettled fun r hr => .inl hr
    next kind _ =>
      split
      next => exact h.withReturn hw hsettled (happend w _ _ (by decide))
      next =>
        have hover := (h.withReturn hw hsettled (happend w _ (s.cache kind) hdone)).clear kind
        cases kind <;> exact hover

private theorem runPosted (hsound : Sound g s) (now : ℤ) : Settled (Dump.runPosted now s) := by
  unfold Dump.runPosted
  split
  next => exact h
  next msgs rest hposted =>
    obtain ⟨dropped, hmsgs⟩ := acceptMessages_isPrefixOf s.socket.msgQueue.length msgs
    generalize htaken : acceptMessages s.socket.msgQueue.length msgs = taken at hmsgs ⊢
    have hdrop : msgs.drop taken.length = dropped := by rw [← hmsgs, List.drop_left]
    have hrequests : s.requests = s.socket.accepted ++ (taken ++ (dropped ++ rest.flatten)) := by
      simp [State.requests, hposted, ← hmsgs]
    have haccepted :
        (addNetlinkMessage now msgs s.socket).accepted = s.socket.accepted ++ taken := by
      rw [addNetlinkMessage_accepted, htaken]
    have hkept : ((addNetlinkMessage now msgs s.socket).accepted ++ rest.flatten).Sublist
        s.requests := by
      rw [haccepted, hrequests, List.append_assoc]
      exact (List.Sublist.refl _).append ((List.Sublist.refl _).append
        (List.sublist_append_right _ _))
    have hperm : s.requests.Perm
        ((addNetlinkMessage now msgs s.socket).accepted ++ rest.flatten ++ dropped) := by
      rw [haccepted, hrequests, List.append_assoc, List.append_assoc]
      exact (List.perm_append_comm.append_left _).append_left _
    have hdropped : ∀ r ∈ dropped, r ∈ s.requests := by
      intro r hr
      simp [hrequests, hr]
    refine h.withSocket hkept (completed_step (.add now msgs)) ?_ ?_
    · -- no two requests have one promise
      intro r hr hbroken
      rcases List.mem_append.mp hbroken with hbroken | hbroken
      · exact h.broken r (hkept.subset hr) hbroken
      · rw [hdrop] at hbroken
        obtain ⟨r', hr', hid⟩ := List.mem_map.mp hbroken
        have hdistinct := (hperm.map Request.id).nodup_iff.mp hsound.distinct
        rw [List.map_append, List.nodup_append] at hdistinct
        exact hdistinct.2.2 _ (List.mem_map.mpr ⟨r, hr, rfl⟩) _ (List.mem_map.mpr ⟨r', hr', rfl⟩)
          hid.symm
    · intro id hid
      rcases List.mem_append.mp hid with hid | hid
      · exact h.brokenIds id hid
      · rw [hdrop] at hid
        obtain ⟨r, hr, rfl⟩ := List.mem_map.mp hid
        exact hsound.fresh r (hdropped r hr)

private theorem receive (hsound : Sound g s) (now : ℤ) {isAnswer : Bool} {m : NlMessage}
    (hmove : Undisturbed s (.receive now isAnswer m)) :
    Settled (Dump.receive now isAnswer m s) := by
  unfold Dump.receive
  split
  next seq record hm => exact h.hear hsound now hm hmove
  next hm =>
    cases m with
    | route | link | addr | neighbor => simp [recordOf] at hm
    | ack seq error =>
      exact h.socketStep (.error now s.socket.pid seq error)
        (accepted_processMessage now s (.ack seq error))
    | done seq => exact h.socketStep (.done now seq) (accepted_processMessage now s (.done seq))
    | unknown =>
      exact h.withSocket (List.Sublist.refl _) (List.Subset.refl _) h.broken h.brokenIds
    | foreignAck | noop => exact h

private theorem fireTimer (now : ℤ) : Settled (Dump.fireTimer now s) := by
  unfold Dump.fireTimer
  split
  next d htimer =>
    split
    next hdue => exact h.socketStep (.timer htimer hdue) (by simp [fireNlMessageTimer])
    next => exact h
  next => exact h

/-- Every undisturbed move keeps the state settled. -/
theorem step (hsound : Sound g s) {m : Move} (hmove : Undisturbed s m) :
    Settled (Dump.step m s) := by
  cases m with
  | getAllLinks unset => exact h.startGetAll .links unset
  | getAllIfAddresses => exact h.startGetAll .addresses .GET_ALL_ADDRS
  | getAllNeighbors unset => exact h.startGetAll .neighbors unset
  | getAllRoutes unset => exact h.startGetAll .routes unset
  | request messageTypes => exact h.startRequests messageTypes
  | finish => exact h.finish hmove
  | setLinkEventCB | setAddrEventCB | setNeighborEventCB =>
    exact ⟨h.live, h.broken, h.brokenIds, h.own, h.done, h.events⟩
  | runPosted now => exact h.runPosted hsound now
  | receive now isAnswer m => exact h.receive hsound now hmove
  | timer now => exact h.fireTimer now

end Settled

variable {pid lastSeqNo gSequenceNumber : UInt32}

private theorem settled_of_reachable (h : Reachable pid lastSeqNo gSequenceNumber Undisturbed s)
    (hbound : gSequenceNumber.toNat + s.socket.accepted.length < 2 ^ 32) : Settled s := by
  induction h with
  | start =>
    exact ⟨by simp [State.requests], by simp [State.requests], by simp, by simp [State.calls],
      by simp, rfl⟩
  | @move s m hreach hm ih =>
    have hle := length_accepted_step m s
    have hbound₀ : gSequenceNumber.toNat + s.socket.accepted.length < 2 ^ 32 := by omega
    exact (ih hbound₀).step (sound_of_reachable (fun _ _ h => h.legal) hreach hbound₀) hm

/-- Dumps and notifications do not mix: in an undisturbed run, every dump whose request was not
discarded has returned exactly the answer of the kernel to it, in order, and the callbacks have been
called once for each notification since they were set, in order. -/
theorem dumps_and_notifications_exact
    (h : Reachable pid lastSeqNo gSequenceNumber Undisturbed s)
    (hbound : gSequenceNumber.toNat + s.socket.accepted.length < 2 ^ 32) :
    (∀ r ∈ s.returned, r.outcome ≠ .broken → r.records = answersTo r.call.ids s.heard) ∧
      s.events = (s.heard.filter Heard.isNotification).map Heard.record := by
  have hsettled := settled_of_reachable h hbound
  have hsound := sound_of_reachable (fun _ _ h => h.legal) h hbound
  refine ⟨fun r hr hbroken => ?_, hsettled.events⟩
  have hdone : r.outcome = .completed := by
    cases houtcome : r.outcome with
    | completed => rfl
    | timedOut => exact absurd houtcome (hsettled.done r hr)
    | broken => exact absurd houtcome hbroken
  obtain ⟨kind, hkind, hiff⟩ := hsound.records_eq_iff hr hdone
  exact hiff.mpr (hsettled.own r.call (mem_calls.mpr (.inl ⟨r, hr, rfl⟩)) kind hkind)

/-- An interface goes down while the links are dumped, before the callbacks are set and once more
after it. -/
def notifiedDump : State :=
  run [.getAllLinks .GET_ADDR, .runPosted 0, .receive 1 true (.link 1 (sampleLink 3)),
    .receive 1 false (.link 0 (sampleLink 4)), .receive 2 false (.done 1), .finish,
    .setLinkEventCB, .setAddrEventCB, .setNeighborEventCB, .getAllLinks .GET_ADDR, .runPosted 3,
    .receive 4 true (.link 2 (sampleLink 3)), .receive 4 false (.link 0 (sampleLink 5)),
    .receive 5 true (.link 2 (sampleLink 4)), .receive 5 false (.done 2), .finish]
    { socket := { pid := 7, lastSeqNo := 0, gSequenceNumber := 0 } }

/-- Two dumps, and the notification of a link between them. -/
theorem dumps_and_notifications_exact_sample :
    notifiedDump.returned.map Return.outcome = [.completed, .completed] ∧
      notifiedDump.events = [.link (sampleLink 5)] ∧
      (∀ r ∈ notifiedDump.returned, r.outcome ≠ .broken →
        r.records = answersTo r.call.ids notifiedDump.heard) ∧
      notifiedDump.events = (notifiedDump.heard.filter Heard.isNotification).map Heard.record :=
  ⟨by decide, by decide, dumps_and_notifications_exact (Reachable.run .start (by decide))
    (by decide)⟩

end Dump

end Fbmeshd
