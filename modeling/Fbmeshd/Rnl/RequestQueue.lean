import Fbmeshd.Rnl.ProtocolSocket
import Mathlib.Data.List.Nodup
import Mathlib.Data.List.Range
import Mathlib.Logic.Relation

/-!
# The discipline of the request queue

Requests are numbered consecutively as they leave the queue, so the log of a socket determines
which of them are in flight and which were answered, and with what. The invariant below ties
the queue, the in-flight map and the fulfilled promises to that log.
-/

namespace Fbmeshd

/-- What a log says about a sequence number. -/
inductive RequestProgress where
  | unsent
  | waiting
  | answered (status : ℤ)
  deriving DecidableEq

namespace RequestProgress

variable {μ : Type*}

/-- A request waits from the moment it is sent until the first reply for its number. Earlier
and later replies for the number change nothing. -/
def advance (seq : UInt32) : RequestProgress → SocketLog μ → RequestProgress
  | .unsent, .sent q _ => if q = seq then .waiting else .unsent
  | .waiting, .replied q status => if q = seq then .answered status else .waiting
  | p, _ => p

variable {seq q : UInt32}

@[simp] private theorem advance_sent_unsent (m : μ) :
    advance seq .unsent (.sent seq m) = .waiting := by
  simp [advance]

@[simp] private theorem advance_replied_waiting (status : ℤ) :
    advance seq .waiting (.replied seq status : SocketLog μ) = .answered status := by
  simp [advance]

private theorem advance_sent_of_ne (h : q ≠ seq) (p : RequestProgress) (m : μ) :
    advance seq p (.sent q m) = p := by
  cases p <;> simp [advance, h]

private theorem advance_replied_of_ne (h : q ≠ seq) (p : RequestProgress) (status : ℤ) :
    advance seq p (.replied q status : SocketLog μ) = p := by
  cases p <;> simp [advance, h]

private theorem advance_replied_of_ne_waiting {p : RequestProgress} (h : p ≠ .waiting)
    (status : ℤ) :
    advance seq p (.replied q status : SocketLog μ) = p := by
  cases p <;> simp_all [advance]

/-- The progress of a request after all entries of a log. -/
def ofLog (seq : UInt32) (log : List (SocketLog μ)) : RequestProgress :=
  log.foldl (advance seq) .unsent

@[simp] private theorem ofLog_nil (seq : UInt32) :
    ofLog seq ([] : List (SocketLog μ)) = .unsent := rfl

@[simp] private theorem ofLog_concat (seq : UInt32) (log : List (SocketLog μ)) (e : SocketLog μ) :
    ofLog seq (log ++ [e]) = advance seq (ofLog seq log) e := by
  simp [ofLog]

end RequestProgress

/-- The request an entry of the log sends. -/
def SocketLog.request? {μ : Type*} : SocketLog μ → Option (UInt32 × μ)
  | .sent seq m => some (seq, m)
  | .replied _ _ => none

namespace NetlinkProtocolSocket

variable {μ : Type*}

/-- The requests sent so far, in order. -/
def sent (s : NetlinkProtocolSocket μ) : List (UInt32 × μ) := s.log.filterMap SocketLog.request?

/-- What has become of the request with a sequence number. -/
def progress (s : NetlinkProtocolSocket μ) (seq : UInt32) : RequestProgress :=
  .ofLog seq s.log

/-- A reply for `seq` comes in and completes the request, if it is in flight. -/
def answer (seq : UInt32) (status : ℤ) (s : NetlinkProtocolSocket μ) : NetlinkProtocolSocket μ :=
  setReturnStatusValue seq status { s with log := s.log ++ [.replied seq status] }

/-- A callback of the event loop: a call of `addNetlinkMessage`, a reply or the ack timer. -/
inductive Step : NetlinkProtocolSocket μ → NetlinkProtocolSocket μ → Prop
  | add {s : NetlinkProtocolSocket μ} (now : ℤ) (nlmsgs : List μ) :
      Step s (s.addNetlinkMessage now nlmsgs)
  | error {s : NetlinkProtocolSocket μ} (now : ℤ) (pid seq : UInt32) (error : ℤ) :
      Step s (s.processError now pid seq error)
  | done {s : NetlinkProtocolSocket μ} (now : ℤ) (seq : UInt32) : Step s (s.processDone now seq)
  | timer {s : NetlinkProtocolSocket μ} {now d : ℤ} (htimer : s.nlMessageTimer = some d)
      (hdue : d ≤ now) : Step s (s.fireNlMessageTimer now)

/-- Queue, in-flight map and completions as the log determines them, for a socket whose first
request takes the number after `g`. -/
structure QueueInvariant (g : ℕ) (s : NetlinkProtocolSocket μ) : Prop where
  accepted : s.accepted = s.sent.map Prod.snd ++ s.msgQueue
  numbers : s.sent.map (·.1.toNat) = List.range' (g + 1) s.sent.length
  next : s.gSequenceNumber.toNat = g + s.sent.length
  unsent : ∀ seq, s.progress seq = .unsent ↔ ∀ m, (seq, m) ∉ s.sent
  inFlight : ∀ seq m, s.nlSeqNoMap seq = some m ↔ (seq, m) ∈ s.sent ∧ s.progress seq = .waiting
  completed : ∀ seq m status, (seq, m, status) ∈ s.completed ↔
    (seq, m) ∈ s.sent ∧ s.progress seq = .answered status
  once : (s.completed.map Prod.fst).Nodup

/-- The batches are what was sent, none of them too long. -/
structure Batched (s : NetlinkProtocolSocket μ) : Prop where
  batches : s.batches.flatten = s.sent
  bounded : ∀ b ∈ s.batches, b.length ≤ kMaxIovMsg

/-- The invariant between callbacks: the queue is never left without the timer, and the timer
waits for the last number that was used. -/
structure SocketInvariant (g : ℕ) (s : NetlinkProtocolSocket μ) : Prop extends
    QueueInvariant g s, Batched s where
  timer : s.msgQueue ≠ [] → s.nlMessageTimer.isScheduled
  last : s.nlMessageTimer.isScheduled → s.lastSeqNo = s.gSequenceNumber

variable {g : ℕ} {s : NetlinkProtocolSocket μ}

section Take

variable (m : μ) (rest : List μ)

@[simp] private theorem takeMessage_sent :
    (takeMessage m rest s).sent = s.sent ++ [(s.gSequenceNumber + 1, m)] := by
  simp [takeMessage, sent, SocketLog.request?]

@[simp] private theorem takeMessage_nlSeqNoMap :
    (takeMessage m rest s).nlSeqNoMap = insertSeqNo (s.gSequenceNumber + 1) m s.nlSeqNoMap := rfl

@[simp] private theorem takeMessage_completed :
    (takeMessage m rest s).completed = s.completed := rfl

@[simp] private theorem takeMessage_accepted : (takeMessage m rest s).accepted = s.accepted := rfl

@[simp] private theorem takeMessage_progress (seq : UInt32) :
    (takeMessage m rest s).progress seq =
      .advance seq (s.progress seq) (.sent (s.gSequenceNumber + 1) m) := by
  simp [takeMessage, progress]

end Take

section Answer

variable (seq : UInt32) (status : ℤ)

/-- A reply changes the in-flight map and the completions only. -/
theorem answer_eq : answer seq status s =
    { s with
      log := s.log ++ [.replied seq status]
      nlSeqNoMap := (answer seq status s).nlSeqNoMap
      completed := (answer seq status s).completed } := by
  simp only [answer, setReturnStatusValue]
  split <;> rfl

@[simp] private theorem answer_sent : (answer seq status s).sent = s.sent := by
  rw [answer_eq]
  simp [sent, SocketLog.request?]

@[simp] private theorem answer_progress (q : UInt32) : (answer seq status s).progress q =
    .advance q (s.progress q) (.replied seq status : SocketLog μ) := by
  rw [answer_eq]
  simp [progress]

variable {seq}

private theorem answer_of_none (hmap : s.nlSeqNoMap seq = none) :
    answer seq status s = { s with log := s.log ++ [.replied seq status] } := by
  simp [answer, setReturnStatusValue, hmap]

private theorem answer_of_some {m : μ} (hmap : s.nlSeqNoMap seq = some m) :
    answer seq status s =
      { s with
        log := s.log ++ [.replied seq status]
        nlSeqNoMap := eraseSeqNo seq s.nlSeqNoMap
        completed := s.completed ++ [(seq, m, status)] } := by
  simp [answer, setReturnStatusValue, hmap]

end Answer

namespace QueueInvariant

/-- The numbers of the requests sent so far. -/
theorem mem_numbers (h : QueueInvariant g s) {seq : UInt32} {m : μ} (hmem : (seq, m) ∈ s.sent) :
    g < seq.toNat ∧ seq.toNat ≤ g + s.sent.length := by
  have hnumber : seq.toNat ∈ s.sent.map (·.1.toNat) := List.mem_map.mpr ⟨_, hmem, rfl⟩
  rw [h.numbers, List.mem_range'_1] at hnumber
  omega

/-- As long as numbers remain, the next one is larger than all before. -/
theorem next_number (h : QueueInvariant g s) (hbound : g + s.accepted.length < 2 ^ 32)
    (hqueue : s.msgQueue ≠ []) :
    (s.gSequenceNumber + 1).toNat = g + s.sent.length + 1 := by
  have hlen : s.accepted.length = s.sent.length + s.msgQueue.length := by simp [h.accepted]
  have hpos := List.length_pos_of_ne_nil hqueue
  rw [UInt32.toNat_add, h.next, UInt32.toNat_one]
  omega

private theorem next_unsent (h : QueueInvariant g s) (hbound : g + s.accepted.length < 2 ^ 32)
    (hqueue : s.msgQueue ≠ []) (m : μ) : (s.gSequenceNumber + 1, m) ∉ s.sent := by
  intro hmem
  have hle := (h.mem_numbers hmem).2
  rw [h.next_number hbound hqueue] at hle
  omega

/-- The invariant holds of a new socket. -/
theorem init (pid lastSeqNo gSequenceNumber : UInt32) :
    QueueInvariant gSequenceNumber.toNat
      ({ pid, lastSeqNo, gSequenceNumber } : NetlinkProtocolSocket μ) := by
  constructor <;> simp [sent, progress]

/-- The front of the queue goes out under a number no request had before. -/
theorem takeMessage (h : QueueInvariant g s) (hbound : g + s.accepted.length < 2 ^ 32)
    {m : μ} {rest : List μ} (hqueue : s.msgQueue = m :: rest) :
    QueueInvariant g (takeMessage m rest s) := by
  have hne : s.msgQueue ≠ [] := by simp [hqueue]
  have hnumber := h.next_number hbound hne
  have hfresh := h.next_unsent hbound hne
  have hprogress : s.progress (s.gSequenceNumber + 1) = .unsent := (h.unsent _).mpr hfresh
  have hmap : s.nlSeqNoMap (s.gSequenceNumber + 1) = none := by
    refine Option.eq_none_iff_forall_ne_some.mpr fun m' hm' => ?_
    exact hfresh m' ((h.inFlight _ _).mp hm').1
  refine ⟨?_, ?_, ?_, fun seq => ?_, fun seq m' => ?_, fun seq m' status => ?_, h.once⟩
  · simp [NetlinkProtocolSocket.takeMessage, h.accepted, hqueue, sent, SocketLog.request?]
  · simp [h.numbers, hnumber, List.range'_concat]
    omega
  · simp only [takeMessage_sent, List.length_append, List.length_singleton]
    exact hnumber
  -- The new number starts to wait, all others stand as before.
  all_goals
    by_cases hseq : seq = s.gSequenceNumber + 1
    · subst hseq
      simp [insertSeqNo, hprogress, hmap, hfresh, h.completed, eq_comm]
    · have hstay := RequestProgress.advance_sent_of_ne (Ne.symm hseq) (s.progress seq) m
      simp [insertSeqNo, hstay, hseq, h.unsent, h.completed, h.inFlight]

/-- A number that is not in the in-flight map does not wait for a reply. -/
theorem not_waiting (h : QueueInvariant g s) {seq : UInt32} (hmap : s.nlSeqNoMap seq = none) :
    s.progress seq ≠ .waiting := by
  intro hwait
  obtain ⟨m, hm⟩ : ∃ m, (seq, m) ∈ s.sent := by
    by_contra hno
    rw [(h.unsent seq).mpr (not_exists.mp hno)] at hwait
    exact RequestProgress.noConfusion hwait
  exact Option.some_ne_none m (((h.inFlight seq m).mpr ⟨hm, hwait⟩).symm.trans hmap)

/-- A reply for a number that is not in flight changes nothing. -/
theorem answer_of_none (h : QueueInvariant g s) {seq : UInt32} (status : ℤ)
    (hmap : s.nlSeqNoMap seq = none) : QueueInvariant g (answer seq status s) := by
  have hprogress : ∀ q, (answer seq status s).progress q = s.progress q := by
    intro q
    rw [answer_progress]
    by_cases hq : seq = q
    · exact RequestProgress.advance_replied_of_ne_waiting (h.not_waiting (hq ▸ hmap)) status
    · exact RequestProgress.advance_replied_of_ne hq _ status
  have hsent := answer_sent (s := s) seq status
  rw [NetlinkProtocolSocket.answer_of_none status hmap] at hprogress hsent ⊢
  exact ⟨by rw [hsent]; exact h.accepted, by rw [hsent]; exact h.numbers,
    by rw [hsent]; exact h.next, by simpa only [hprogress, hsent] using h.unsent,
    by simpa only [hprogress, hsent] using h.inFlight,
    by simpa only [hprogress, hsent] using h.completed, h.once⟩

/-- The first reply for a number that is in flight completes its request. -/
theorem answer_of_some (h : QueueInvariant g s) {seq : UInt32} (status : ℤ) {m : μ}
    (hmap : s.nlSeqNoMap seq = some m) : QueueInvariant g (answer seq status s) := by
  have hwait : s.progress seq = .waiting := ((h.inFlight seq m).mp hmap).2
  have hmem : ∀ m', (seq, m') ∈ s.sent ↔ m' = m := by
    intro m'
    have hiff := h.inFlight seq m'
    rw [hmap, Option.some_inj, and_iff_left hwait] at hiff
    rw [← hiff, eq_comm]
  have hsent := answer_sent (s := s) seq status
  have hprogress := answer_progress (s := s) seq status
  rw [NetlinkProtocolSocket.answer_of_some status hmap] at hprogress hsent ⊢
  refine ⟨by rw [hsent]; exact h.accepted, by rw [hsent]; exact h.numbers,
    by rw [hsent]; exact h.next, fun q => ?_, fun q m' => ?_, fun q m' status' => ?_, ?_⟩
  -- Only the number of the reply changes its state, from waiting to answered.
  iterate 3
    by_cases hq : seq = q
    · subst hq
      simp [hprogress, hsent, hwait, hmem, eraseSeqNo, h.completed, eq_comm]
    · have hstay := RequestProgress.advance_replied_of_ne (μ := μ) hq (s.progress q) status
      simp [hprogress, hsent, hstay, eraseSeqNo, Ne.symm hq, h.unsent, h.completed, h.inFlight]
  · have hnew : seq ∉ s.completed.map Prod.fst := by
      intro hseq
      obtain ⟨⟨_, m', status'⟩, hdone, rfl⟩ := List.mem_map.mp hseq
      have hanswered := ((h.completed _ _ _).mp hdone).2
      rw [hwait] at hanswered
      exact RequestProgress.noConfusion hanswered
    rw [List.map_append, List.map_singleton, ← List.concat_eq_append]
    exact List.Nodup.concat hnew h.once

/-- A request is answered. -/
theorem answer (h : QueueInvariant g s) (seq : UInt32) (status : ℤ) :
    QueueInvariant g (answer seq status s) := by
  cases hmap : s.nlSeqNoMap seq with
  | none => exact h.answer_of_none status hmap
  | some m => exact h.answer_of_some status hmap

/-- Messages that join the queue are accepted. -/
theorem enqueue (h : QueueInvariant g s) (taken : List μ) :
    QueueInvariant g
      { s with msgQueue := s.msgQueue ++ taken, accepted := s.accepted ++ taken } := by
  refine ⟨?_, h.numbers, h.next, h.unsent, h.inFlight, h.completed, h.once⟩
  show s.accepted ++ taken = s.sent.map Prod.snd ++ (s.msgQueue ++ taken)
  rw [h.accepted, List.append_assoc]

end QueueInvariant

/-- What holds of the socket and the batch is kept by the loop that fills the batch, if each of
its rounds keeps it. -/
theorem fillIov_induction {P : NetlinkProtocolSocket μ → List (UInt32 × μ) → Prop}
    (hround : ∀ s iov m rest, s.msgQueue = m :: rest → P s iov →
      P (takeMessage m rest s) (iov ++ [(s.gSequenceNumber + 1, m)]))
    (count : ℕ) {s : NetlinkProtocolSocket μ} {iov : List (UInt32 × μ)} (h : P s iov) :
    P (fillIov count s iov).1 (fillIov count s iov).2 := by
  induction count generalizing s iov with
  | zero => exact h
  | succ count ih =>
    cases hqueue : s.msgQueue with
    | nil => simpa only [fillIov, hqueue] using h
    | cons m rest =>
      simp only [fillIov, hqueue]
      exact ih (hround s iov m rest hqueue h)

private theorem length_fillIov (count : ℕ) (s : NetlinkProtocolSocket μ) (iov : List (UInt32 × μ)) :
    (fillIov count s iov).2.length ≤ iov.length + count := by
  induction count generalizing s iov with
  | zero => exact Nat.le_refl _
  | succ count ih =>
    simp only [fillIov]
    split
    · exact Nat.le_add_right _ _
    · refine Nat.le_trans (ih _ _) ?_
      rw [List.length_append, List.length_singleton]
      omega

/-- A call on an empty queue does nothing. -/
theorem sendNetlinkMessage_of_nil (now : ℤ) (hqueue : s.msgQueue = []) :
    sendNetlinkMessage now s = s := by
  simp [sendNetlinkMessage, hqueue]

/-- The queue is not empty, and a batch is sent. -/
theorem sendNetlinkMessage_of_ne_nil (now : ℤ) (hqueue : s.msgQueue ≠ []) :
    sendNetlinkMessage now s =
      let r := fillIov (min s.msgQueue.length kMaxIovMsg) s []
      { r.1 with
        lastSeqNo := r.1.gSequenceNumber
        batches := r.1.batches ++ [r.2]
        nlMessageTimer := .scheduleTimeout now kNlMessageAckTimer } := by
  have hsize : min s.msgQueue.length kMaxIovMsg ≠ 0 := by
    have hpos := List.length_pos_of_ne_nil hqueue
    simp only [kMaxIovMsg]
    omega
  simp only [sendNetlinkMessage, if_neg hsize]

/-- The state of the loop that fills a batch, started in `s₀`. -/
structure Filling (g : ℕ) (s₀ s : NetlinkProtocolSocket μ) (iov : List (UInt32 × μ)) : Prop
    extends QueueInvariant g s where
  same_accepted : s.accepted = s₀.accepted
  same_batches : s.batches = s₀.batches
  sent_eq : s.sent = s₀.sent ++ iov

private theorem Filling.fillIov (h : QueueInvariant g s) (hbound : g + s.accepted.length < 2 ^ 32)
    (count : ℕ) : Filling g s (fillIov count s []).1 (fillIov count s []).2 := by
  refine fillIov_induction (P := Filling g s) ?_ count ⟨h, rfl, rfl, by simp⟩
  intro s' iov m rest hqueue hfill
  refine ⟨hfill.takeMessage (hfill.same_accepted ▸ hbound) hqueue, hfill.same_accepted,
    hfill.same_batches, ?_⟩
  rw [takeMessage_sent, hfill.sent_eq, List.append_assoc]

/-- A send on an idle timer starts a batch, if there is one to start, and the timer. -/
theorem SocketInvariant.send (h : QueueInvariant g s) (hb : Batched s)
    (hbound : g + s.accepted.length < 2 ^ 32) (hidle : s.nlMessageTimer = none) (now : ℤ) :
    SocketInvariant g (sendNetlinkMessage now s) := by
  by_cases hqueue : s.msgQueue = []
  · rw [sendNetlinkMessage_of_nil now hqueue]
    exact ⟨h, hb, fun hne => absurd hqueue hne, by simp [hidle, AsyncTimeout.isScheduled]⟩
  · rw [sendNetlinkMessage_of_ne_nil now hqueue]
    have hfill := Filling.fillIov h hbound (min s.msgQueue.length kMaxIovMsg)
    have hlen := length_fillIov (min s.msgQueue.length kMaxIovMsg) s []
    generalize fillIov (min s.msgQueue.length kMaxIovMsg) s [] = r at hfill hlen
    refine ⟨⟨hfill.accepted, hfill.numbers, hfill.next, hfill.unsent, hfill.inFlight,
      hfill.completed, hfill.once⟩, ⟨?_, ?_⟩, fun _ => rfl, fun _ => rfl⟩
    · show (r.1.batches ++ [r.2]).flatten = r.1.sent
      simp [hfill.same_batches, hb.batches, hfill.sent_eq]
    · show ∀ b ∈ r.1.batches ++ [r.2], b.length ≤ kMaxIovMsg
      rw [hfill.same_batches]
      intro b hmem
      rcases List.mem_append.mp hmem with hold | hnew
      · exact hb.bounded b hold
      · obtain rfl := List.mem_singleton.mp hnew
        simp only [List.length_nil] at hlen
        omega

section Commute

variable {seq : UInt32} (status : ℤ)

/-- A completion leaves all but the in-flight map and the completions alone. -/
theorem setReturnStatusValue_eq (s : NetlinkProtocolSocket μ) :
    setReturnStatusValue seq status s =
      { s with
        completed := s.completed ++ ((s.nlSeqNoMap seq).map fun m => (seq, m, status)).toList
        nlSeqNoMap := eraseSeqNo seq s.nlSeqNoMap } := by
  cases hmap : s.nlSeqNoMap seq with
  | none =>
    have herase : eraseSeqNo seq s.nlSeqNoMap = s.nlSeqNoMap := by
      funext q
      by_cases hq : q = seq <;> simp [eraseSeqNo, hq, hmap]
    simp [setReturnStatusValue, hmap, herase]
  | some m => simp [setReturnStatusValue, hmap]

/-- The completion of one request and the sending of another may change places. -/
theorem takeMessage_setReturnStatusValue (hseq : seq ≠ s.gSequenceNumber + 1) (m : μ)
    (rest : List μ) :
    takeMessage m rest (setReturnStatusValue seq status s) =
      setReturnStatusValue seq status (takeMessage m rest s) := by
  have hmap : insertSeqNo (s.gSequenceNumber + 1) m (eraseSeqNo seq s.nlSeqNoMap) =
      eraseSeqNo seq (insertSeqNo (s.gSequenceNumber + 1) m s.nlSeqNoMap) := by
    funext q
    by_cases hq : q = seq <;> simp [insertSeqNo, eraseSeqNo, hq, hseq]
  have hold : insertSeqNo (s.gSequenceNumber + 1) m s.nlSeqNoMap seq = s.nlSeqNoMap seq := by
    simp [insertSeqNo, hseq]
  simp only [setReturnStatusValue_eq, takeMessage, hmap, hold]

private theorem fillIov_setReturnStatusValue (count : ℕ) {s : NetlinkProtocolSocket μ}
    (iov : List (UInt32 × μ)) (hseq : seq.toNat ≤ s.gSequenceNumber.toNat)
    (hbound : s.gSequenceNumber.toNat + s.msgQueue.length < 2 ^ 32) :
    fillIov count (setReturnStatusValue seq status s) iov =
      (setReturnStatusValue seq status (fillIov count s iov).1, (fillIov count s iov).2) := by
  induction count generalizing s iov with
  | zero => rfl
  | succ count ih =>
    have hsame : (setReturnStatusValue seq status s).msgQueue = s.msgQueue := by
      rw [setReturnStatusValue_eq]
    cases hqueue : s.msgQueue with
    | nil => simp [fillIov, hsame, hqueue]
    | cons m rest =>
      rw [hqueue, List.length_cons] at hbound
      have hnext : (s.gSequenceNumber + 1).toNat = s.gSequenceNumber.toNat + 1 := by
        rw [UInt32.toNat_add, UInt32.toNat_one]
        omega
      have hne : seq ≠ s.gSequenceNumber + 1 := by
        rintro rfl
        omega
      simp only [fillIov, hsame, hqueue, takeMessage_setReturnStatusValue status hne]
      have hnumber : (setReturnStatusValue seq status (takeMessage m rest s)).gSequenceNumber =
          (takeMessage m rest s).gSequenceNumber := by
        rw [setReturnStatusValue_eq]
      rw [hnumber]
      refine ih _ ?_ ?_
      · show seq.toNat ≤ (s.gSequenceNumber + 1).toNat
        omega
      · show (s.gSequenceNumber + 1).toNat + rest.length < 2 ^ 32
        omega

private theorem sendNetlinkMessage_setReturnStatusValue (now : ℤ)
    (hseq : s.msgQueue ≠ [] → seq.toNat ≤ s.gSequenceNumber.toNat)
    (hbound : s.gSequenceNumber.toNat + s.msgQueue.length < 2 ^ 32) :
    sendNetlinkMessage now (setReturnStatusValue seq status s) =
      setReturnStatusValue seq status (sendNetlinkMessage now s) := by
  have hsame : (setReturnStatusValue seq status s).msgQueue = s.msgQueue := by
    rw [setReturnStatusValue_eq]
  by_cases hqueue : s.msgQueue = []
  · rw [sendNetlinkMessage_of_nil now (hsame.trans hqueue), sendNetlinkMessage_of_nil now hqueue]
  · rw [sendNetlinkMessage_of_ne_nil now (hsame ▸ hqueue), sendNetlinkMessage_of_ne_nil now hqueue,
      hsame, fillIov_setReturnStatusValue status _ _ (hseq hqueue) hbound]
    simp only [setReturnStatusValue_eq]

end Commute

/-- The reply for the last number sends the next batch, with the timer idle. -/
theorem processAck_of_last (now : ℤ) {ack : UInt32} (hack : ack = s.lastSeqNo) :
    processAck now ack s = sendNetlinkMessage now { s with nlMessageTimer := none } := by
  cases htimer : s.nlMessageTimer with
  | none =>
    have hidle : { s with nlMessageTimer := none } = s := by rw [← htimer]
    simp [processAck, hack, htimer, hidle, AsyncTimeout.isScheduled]
  | some d =>
    simp [processAck, hack, htimer, AsyncTimeout.isScheduled, AsyncTimeout.cancelTimeout]

/-- Only the acknowledgement of the last request counts. -/
theorem processAck_of_ne (now : ℤ) {ack : UInt32} (hack : ack ≠ s.lastSeqNo) :
    processAck now ack s = s := if_neg hack

private theorem processAck_setReturnStatusValue (now : ℤ) {seq : UInt32} (status : ℤ)
    (hlast : s.msgQueue ≠ [] → s.lastSeqNo = s.gSequenceNumber)
    (hbound : s.gSequenceNumber.toNat + s.msgQueue.length < 2 ^ 32) :
    processAck now seq (setReturnStatusValue seq status s) =
      setReturnStatusValue seq status (processAck now seq s) := by
  have hsame : (setReturnStatusValue seq status s).lastSeqNo = s.lastSeqNo := by
    rw [setReturnStatusValue_eq]
  by_cases hseq : seq = s.lastSeqNo
  · have hidle : ({ setReturnStatusValue seq status s with nlMessageTimer := none } :
        NetlinkProtocolSocket μ) =
          setReturnStatusValue seq status { s with nlMessageTimer := none } := by
      simp only [setReturnStatusValue_eq]
    rw [processAck_of_last now hseq, processAck_of_last now (hseq.trans hsame.symm), hidle]
    refine sendNetlinkMessage_setReturnStatusValue status now (fun hne => ?_) hbound
    rw [hseq, hlast hne]
  · rw [processAck_of_ne now hseq, processAck_of_ne now (hsame ▸ hseq)]

/-- An error reply for another process is ignored. One for this process is answered, counted and
acknowledged. -/
theorem processError_eq (now : ℤ) (pid seq : UInt32) (error : ℤ) :
    processError now pid seq error s = s ∨
      ∃ errors acks, processError now pid seq error s =
        processAck now seq { answer seq error s with errors, acks } := by
  by_cases hpid : pid ≠ s.pid
  · exact .inl (if_pos hpid)
  · refine .inr ?_
    simp only [processError, if_neg hpid, answer]
    split <;> split <;> exact ⟨_, _, rfl⟩

section Accepted

/-- Sending accepts nothing. -/
@[simp] theorem sendNetlinkMessage_accepted (now : ℤ) (s : NetlinkProtocolSocket μ) :
    (sendNetlinkMessage now s).accepted = s.accepted := by
  by_cases hqueue : s.msgQueue = []
  · rw [sendNetlinkMessage_of_nil now hqueue]
  · rw [sendNetlinkMessage_of_ne_nil now hqueue]
    exact fillIov_induction (P := fun s' _ => s'.accepted = s.accepted)
      (fun _ _ _ _ _ hsame => hsame) _ rfl

/-- Nor does an acknowledgement. -/
@[simp] theorem processAck_accepted (now : ℤ) (ack : UInt32) (s : NetlinkProtocolSocket μ) :
    (processAck now ack s).accepted = s.accepted := by
  by_cases hack : ack = s.lastSeqNo
  · rw [processAck_of_last now hack, sendNetlinkMessage_accepted]
  · rw [processAck_of_ne now hack]

/-- Nor does an answer. -/
@[simp] theorem answer_accepted (seq : UInt32) (status : ℤ) :
    (answer seq status s).accepted = s.accepted := by
  rw [answer_eq]

/-- Requests are accepted as long as there is room. -/
theorem addNetlinkMessage_accepted (now : ℤ) (nlmsgs : List μ) (s : NetlinkProtocolSocket μ) :
    (addNetlinkMessage now nlmsgs s).accepted =
      s.accepted ++ acceptMessages s.msgQueue.length nlmsgs := by
  simp only [addNetlinkMessage]
  split <;> simp

/-- No callback takes an accepted message back. -/
theorem Step.length_accepted_le {s' : NetlinkProtocolSocket μ} (hstep : Step s s') :
    s.accepted.length ≤ s'.accepted.length := by
  cases hstep with
  | add now nlmsgs => simp [addNetlinkMessage_accepted]
  | error now pid seq error =>
    rcases processError_eq (s := s) now pid seq error with heq | ⟨errors, acks, heq⟩ <;>
      simp [heq]
  | done now seq => simp [processDone, setReturnStatusValue_eq]
  | timer _ _ => simp [fireNlMessageTimer]

end Accepted

namespace SocketInvariant

/-- The invariant holds of a new socket. -/
theorem init (pid lastSeqNo gSequenceNumber : UInt32) :
    SocketInvariant gSequenceNumber.toNat
      ({ pid, lastSeqNo, gSequenceNumber } : NetlinkProtocolSocket μ) :=
  ⟨.init pid lastSeqNo gSequenceNumber, ⟨rfl, by simp⟩, by simp,
    by simp [AsyncTimeout.isScheduled]⟩

private theorem processAck (h : SocketInvariant g s) (hbound : g + s.accepted.length < 2 ^ 32)
    (now : ℤ) (ack : UInt32) : SocketInvariant g (processAck now ack s) := by
  by_cases hack : ack = s.lastSeqNo
  · rw [processAck_of_last now hack]
    exact .send (s := { s with nlMessageTimer := none })
      ⟨h.accepted, h.numbers, h.next, h.unsent, h.inFlight, h.completed, h.once⟩
      ⟨h.batches, h.bounded⟩ hbound rfl now
  · rw [processAck_of_ne now hack]
    exact h

/-- A request is answered. -/
theorem answer (h : SocketInvariant g s) (seq : UInt32) (status : ℤ) :
    SocketInvariant g (answer seq status s) := by
  refine ⟨h.toQueueInvariant.answer seq status, ⟨?_, ?_⟩, ?_, ?_⟩
  · rw [answer_sent, answer_eq]
    exact h.batches
  · rw [answer_eq]
    exact h.bounded
  · rw [answer_eq]
    exact h.timer
  · rw [answer_eq]
    exact h.last

private theorem processError (h : SocketInvariant g s) (hbound : g + s.accepted.length < 2 ^ 32)
    (now : ℤ) (pid seq : UInt32) (error : ℤ) :
    SocketInvariant g (processError now pid seq error s) := by
  rcases processError_eq (s := s) now pid seq error with heq | ⟨errors, acks, heq⟩
  · rwa [heq]
  · rw [heq]
    have hanswer := h.answer seq error
    refine processAck ?_ (by simpa using hbound) now seq
    exact ⟨⟨hanswer.accepted, hanswer.numbers, hanswer.next, hanswer.unsent, hanswer.inFlight,
      hanswer.completed, hanswer.once⟩, ⟨hanswer.batches, hanswer.bounded⟩, hanswer.timer,
      hanswer.last⟩

/-- It makes no difference that the next batch goes out before the request is completed: the
numbers of the batch are new. -/
theorem processDone_eq (h : SocketInvariant g s) (hbound : g + s.accepted.length < 2 ^ 32)
    (now : ℤ) (seq : UInt32) :
    processDone now seq s = NetlinkProtocolSocket.processAck now seq
      (NetlinkProtocolSocket.answer seq 0 s) := by
  refine (processAck_setReturnStatusValue (s := { s with log := s.log ++ [.replied seq 0] }) now 0
    (fun hne => h.last (h.timer hne)) ?_).symm
  show s.gSequenceNumber.toNat + s.msgQueue.length < 2 ^ 32
  have hlen : s.accepted.length = s.sent.length + s.msgQueue.length := by simp [h.accepted]
  have hnext := h.next
  omega

private theorem processDone (h : SocketInvariant g s) (hbound : g + s.accepted.length < 2 ^ 32)
    (now : ℤ) (seq : UInt32) : SocketInvariant g (processDone now seq s) := by
  rw [h.processDone_eq hbound]
  exact (h.answer seq 0).processAck (by simpa using hbound) now seq

private theorem fireNlMessageTimer (h : SocketInvariant g s)
    (hbound : g + s.accepted.length < 2 ^ 32) (now : ℤ) :
    SocketInvariant g (fireNlMessageTimer now s) :=
  .send (s := { s with nlMessageTimer := none })
    ⟨h.accepted, h.numbers, h.next, h.unsent, h.inFlight, h.completed, h.once⟩
    ⟨h.batches, h.bounded⟩ hbound rfl now

private theorem addNetlinkMessage (h : SocketInvariant g s) (now : ℤ) (nlmsgs : List μ)
    (hbound : g + (addNetlinkMessage now nlmsgs s).accepted.length < 2 ^ 32) :
    SocketInvariant g (addNetlinkMessage now nlmsgs s) := by
  rw [addNetlinkMessage_accepted] at hbound
  have hqueue := h.toQueueInvariant.enqueue (acceptMessages s.msgQueue.length nlmsgs)
  simp only [NetlinkProtocolSocket.addNetlinkMessage]
  split
  next hscheduled =>
    exact ⟨hqueue, ⟨h.batches, h.bounded⟩, fun _ => hscheduled, h.last⟩
  next hidle =>
    refine .send hqueue ⟨h.batches, h.bounded⟩ hbound ?_ now
    simpa [AsyncTimeout.isScheduled] using hidle

/-- One step of the socket. -/
theorem step (h : SocketInvariant g s) {s' : NetlinkProtocolSocket μ} (hstep : Step s s')
    (hbound : g + s'.accepted.length < 2 ^ 32) : SocketInvariant g s' := by
  have hbound₀ : g + s.accepted.length < 2 ^ 32 := by
    have hle := hstep.length_accepted_le
    omega
  cases hstep with
  | add now nlmsgs => exact h.addNetlinkMessage now nlmsgs hbound
  | error now pid seq error => exact h.processError hbound₀ now pid seq error
  | done now seq => exact h.processDone hbound₀ now seq
  | timer _ _ => exact h.fireNlMessageTimer hbound₀ _

/-- From a new socket, as long as the sequence numbers last, every state between callbacks
keeps the invariant. -/
theorem reachable {s₀ : NetlinkProtocolSocket μ} (h₀ : SocketInvariant g s₀)
    (hrun : Relation.ReflTransGen Step s₀ s) (hbound : g + s.accepted.length < 2 ^ 32) :
    SocketInvariant g s := by
  induction hrun with
  | refl => exact h₀
  | tail _ hstep ih =>
    have hle := hstep.length_accepted_le
    exact (ih (by omega)).step hstep hbound

/-- The numbers of the requests increase. -/
theorem increasing (h : SocketInvariant g s) :
    (s.sent.map Prod.fst).Pairwise (· < ·) := by
  have hnumbers : ((s.sent.map Prod.fst).map UInt32.toNat).Pairwise (· < ·) := by
    rw [List.map_map]
    exact h.numbers ▸ List.pairwise_lt_range'
  exact (List.pairwise_map.mp hnumbers).imp UInt32.lt_iff_toNat_lt.mpr

/-- A request that was sent is either in flight or completed. -/
theorem inFlight_or_completed (h : SocketInvariant g s) {seq : UInt32} {m : μ}
    (hmem : (seq, m) ∈ s.sent) :
    s.nlSeqNoMap seq = some m ∧ (∀ status, (seq, m, status) ∉ s.completed) ∨
      s.nlSeqNoMap seq = none ∧ ∃ status, (seq, m, status) ∈ s.completed := by
  cases hprogress : s.progress seq with
  | unsent => exact absurd hmem ((h.unsent seq).mp hprogress m)
  | waiting =>
    refine .inl ⟨(h.inFlight seq m).mpr ⟨hmem, hprogress⟩, ?_⟩
    simp [h.completed, hprogress]
  | answered status =>
    refine .inr ⟨?_, status, (h.completed seq m status).mpr ⟨hmem, hprogress⟩⟩
    simp [Option.eq_none_iff_forall_ne_some, h.inFlight, hprogress]

end SocketInvariant

/-- In every state a new socket reaches while it has sequence numbers left:
* the accepted messages are those that were sent, in this order, and those in the queue;
* the sequence numbers increase from one request to the next;
* a request that was sent is in flight or completed, not both, and no other is;
* no request is completed twice, and its status is that of the first reply to it;
* a message in the queue has the timer scheduled;
* no batch is longer than `kMaxIovMsg`. -/
theorem request_queue_discipline {pid lastSeqNo gSequenceNumber : UInt32}
    {s : NetlinkProtocolSocket μ}
    (hrun : Relation.ReflTransGen Step { pid, lastSeqNo, gSequenceNumber } s)
    (hbound : gSequenceNumber.toNat + s.accepted.length < 2 ^ 32) :
    s.accepted = s.batches.flatten.map Prod.snd ++ s.msgQueue ∧
    (s.batches.flatten.map Prod.fst).Pairwise (· < ·) ∧
    (∀ seq m, (seq, m) ∈ s.batches.flatten →
      s.nlSeqNoMap seq = some m ∧ (∀ status, (seq, m, status) ∉ s.completed) ∨
        s.nlSeqNoMap seq = none ∧ ∃ status, (seq, m, status) ∈ s.completed) ∧
    (∀ seq m, s.nlSeqNoMap seq = some m → (seq, m) ∈ s.batches.flatten) ∧
    (s.completed.map Prod.fst).Nodup ∧
    (∀ seq m status, (seq, m, status) ∈ s.completed ↔
      (seq, m) ∈ s.batches.flatten ∧ s.progress seq = .answered status) ∧
    (s.msgQueue ≠ [] → s.nlMessageTimer.isScheduled) ∧
    ∀ b ∈ s.batches, b.length ≤ kMaxIovMsg := by
  have h := (SocketInvariant.init pid lastSeqNo gSequenceNumber).reachable hrun hbound
  rw [h.batches]
  exact ⟨h.accepted, h.increasing, fun _ _ => h.inFlight_or_completed,
    fun seq m hmap => ((h.inFlight seq m).mp hmap).1, h.once, h.completed, h.timer, h.bounded⟩

/-- Two requests, of which the second is answered twice: the first answer counts. -/
theorem request_answered_twice :
    ∃ s : NetlinkProtocolSocket ℕ,
      Relation.ReflTransGen Step { pid := 7, lastSeqNo := 0, gSequenceNumber := 0 } s ∧
      s.completed = [(2, 20, -17)] ∧ s.nlSeqNoMap 1 = some 10 ∧
      s.accepted = s.batches.flatten.map Prod.snd ++ s.msgQueue := by
  have hrun := Relation.ReflTransGen.refl (r := Step (μ := ℕ))
    (a := { pid := 7, lastSeqNo := 0, gSequenceNumber := 0 })
    |>.tail (.add 0 [10, 20]) |>.tail (.error 1 7 2 (-17)) |>.tail (.done 2 2)
  exact ⟨_, hrun, by decide, by decide, (request_queue_discipline hrun (by decide)).1⟩

end NetlinkProtocolSocket

end Fbmeshd
