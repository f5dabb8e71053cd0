import Fbmeshd.Clock
import Fbmeshd.Rnl.Types

/-!
# The netlink protocol socket

`NetlinkProtocolSocket` queues requests, sends them in batches with consecutive sequence
numbers and completes each one with the status of the kernel's reply. The calls of `sendmsg`
and the promises that are fulfilled are logged, together with the replies they answer to.
-/

namespace Fbmeshd

/-- `kMaxNlMessageQueue`. -/
def kMaxNlMessageQueue : ℕ := 126001

/-- `kMaxIovMsg`. -/
def kMaxIovMsg : ℕ := 500

/-- `kNlMessageAckTimer`. -/
def kNlMessageAckTimer : ℤ := milliseconds 1000

/-- What the log of a socket says, in order: a request went out under a sequence number, or a
reply for a sequence number came in. -/
inductive SocketLog (μ : Type*) where
  | sent (seq : UInt32) (request : μ)
  | replied (seq : UInt32) (status : ℤ)

/-- The members of `NetlinkProtocolSocket` that the request queue reads or writes, with the
global `gSequenceNumber`. The constructor leaves `lastSeqNo_` without a value, so it has no
default here. `accepted`, `batches`, `completed` and `log` record what has happened. -/
structure NetlinkProtocolSocket (μ : Type*) where
  pid : UInt32
  gSequenceNumber : UInt32
  lastSeqNo : UInt32
  msgQueue : List μ := []
  nlMessageTimer : AsyncTimeout := none
  nlSeqNoMap : UInt32 → Option μ := fun _ => none
  errors : UInt32 := 0
  acks : UInt32 := 0
  accepted : List μ := []
  batches : List (List (UInt32 × μ)) := []
  completed : List (UInt32 × μ × ℤ) := []
  log : List (SocketLog μ) := []

namespace NetlinkProtocolSocket

variable {μ : Type*}

/-- `unordered_map::insert`, which keeps an entry that is already there. -/
def insertSeqNo (seq : UInt32) (m : μ) (map : UInt32 → Option μ) : UInt32 → Option μ :=
  fun s => if s = seq then some ((map s).getD m) else map s

/-- `unordered_map::erase`. -/
def eraseSeqNo (seq : UInt32) (map : UInt32 → Option μ) : UInt32 → Option μ :=
  fun s => if s = seq then none else map s

/-- One round of the loop of `sendNetlinkMessage`: the front message `m` of the queue takes the
next sequence number and is in flight. -/
def takeMessage (m : μ) (rest : List μ) (s : NetlinkProtocolSocket μ) : NetlinkProtocolSocket μ :=
  let seq := s.gSequenceNumber + 1
  { s with
    msgQueue := rest
    gSequenceNumber := seq
    nlSeqNoMap := insertSeqNo seq m s.nlSeqNoMap
    log := s.log ++ [.sent seq m] }

/-- The loop of `sendNetlinkMessage`, which moves up to `count` messages into `iov`. -/
def fillIov : ℕ → NetlinkProtocolSocket μ → List (UInt32 × μ) →
    NetlinkProtocolSocket μ × List (UInt32 × μ)
  | 0, s, iov => (s, iov)
  | count + 1, s, iov =>
    match s.msgQueue with
    | [] => (s, iov)
    | m :: rest =>
      let s := takeMessage m rest s
      fillIov count s (iov ++ [(s.gSequenceNumber, m)])

/-- `sendNetlinkMessage`, where `sendmsg` succeeds. -/
def sendNetlinkMessage (now : ℤ) (s : NetlinkProtocolSocket μ) : NetlinkProtocolSocket μ :=
  let iovSize := min s.msgQueue.length kMaxIovMsg
  if iovSize = 0 then s
  else
    let (s, iov) := fillIov iovSize s []
    { s with
      lastSeqNo := s.gSequenceNumber
      batches := s.batches ++ [iov]
      nlMessageTimer := .scheduleTimeout now kNlMessageAckTimer }

/-- The callback of `nlMessageTimer_`, which is idle while it runs. -/
def fireNlMessageTimer (now : ℤ) (s : NetlinkProtocolSocket μ) : NetlinkProtocolSocket μ :=
  sendNetlinkMessage now { s with nlMessageTimer := none }

/-- `processAck`. -/
def processAck (now : ℤ) (ack : UInt32) (s : NetlinkProtocolSocket μ) : NetlinkProtocolSocket μ :=
  if ack = s.lastSeqNo then
    let s := if s.nlMessageTimer.isScheduled then
        { s with nlMessageTimer := s.nlMessageTimer.cancelTimeout }
      else s
    sendNetlinkMessage now s
  else s

/-- `setReturnStatusValue`. -/
def setReturnStatusValue (seq : UInt32) (status : ℤ) (s : NetlinkProtocolSocket μ) :
    NetlinkProtocolSocket μ :=
  match s.nlSeqNoMap seq with
  | some request =>
    { s with
      completed := s.completed ++ [(seq, request, status)]
      nlSeqNoMap := eraseSeqNo seq s.nlSeqNoMap }
  | none => s

/-- The messages `addNetlinkMessage` takes, given the size of the queue: the first one that
finds the queue full and all after it are discarded. -/
def acceptMessages (queueSize : ℕ) : List μ → List μ
  | [] => []
  | m :: ms =>
    if queueSize + 1 < kMaxNlMessageQueue then m :: acceptMessages (queueSize + 1) ms else []

/-- `addNetlinkMessage`. -/
def addNetlinkMessage (now : ℤ) (nlmsgs : List μ) (s : NetlinkProtocolSocket μ) :
    NetlinkProtocolSocket μ :=
  let taken := acceptMessages s.msgQueue.length nlmsgs
  let s := { s with msgQueue := s.msgQueue ++ taken, accepted := s.accepted ++ taken }
  if s.nlMessageTimer.isScheduled then s else sendNetlinkMessage now s

/-- The case `NLMSG_ERROR` of `processMessage`. -/
def processError (now : ℤ) (pid seq : UInt32) (error : ℤ) (s : NetlinkProtocolSocket μ) :
    NetlinkProtocolSocket μ :=
  if pid ≠ s.pid then s
  else
    let s := setReturnStatusValue seq error { s with log := s.log ++ [.replied seq error] }
    let s := if error.natAbs ≠ EEXIST ∧ error.natAbs ≠ 0 then { s with errors := s.errors + 1 }
      else s
    let s := if error = 0 then { s with acks := s.acks + 1 } else s
    processAck now seq s

/-- The case `NLMSG_DONE` of `processMessage`: the next batch goes out before the request is
completed. -/
def processDone (now : ℤ) (seq : UInt32) (s : NetlinkProtocolSocket μ) :
    NetlinkProtocolSocket μ :=
  setReturnStatusValue seq 0 (processAck now seq { s with log := s.log ++ [.replied seq 0] })

end NetlinkProtocolSocket

end Fbmeshd
