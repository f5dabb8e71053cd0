import Fbmeshd.Rnl.EventParser

/-!
# Dumps and notifications over one socket

`NetlinkProtocolSocket` receives the answers to its own requests and the notifications of the
kernel over one socket, and tells them apart by sequence number alone. The functions `getAllLinks`,
`getAllIfAddresses`, `getAllNeighbors` and `getAllRoutes` run in the thread of the caller: they
clear a cache, hand a request to the event loop, wait, and move the cache out. In the meantime the
event loop runs `processMessage` for whatever comes in.

The thread of the caller, the event loop and the kernel take turns in any order here. One call is
made at a time, as `NetlinkSocket` makes them from its own event loop. A call that waits for longer
than `kNlRequestTimeout` gives up, which is possible at any time.
-/

namespace Fbmeshd

namespace Dump

open NetlinkProtocolSocket

/-- `NetlinkMessage::MessageType`. -/
inductive MessageType where
  | GET_ALL_LINKS
  | GET_ALL_ADDRS
  | GET_ADDR
  | ADD_ADDR
  | DEL_ADDR
  | GET_ALL_NEIGHBORS
  | GET_ALL_ROUTES
  | GET_ROUTE
  | ADD_ROUTE
  | DEL_ROUTE
  deriving DecidableEq

/-- What can be dumped. -/
inductive Kind where
  | links
  | addresses
  | neighbors
  | routes
  deriving DecidableEq

/-- What a message of the kernel describes. -/
inductive Record where
  | link (link : Link)
  | addr (addr : IfAddress)
  | neighbor (neighbor : Neighbor)
  | route (route : Route)
  deriving DecidableEq

def Record.kind : Record → Kind
  | .link _ => .links
  | .addr _ => .addresses
  | .neighbor _ => .neighbors
  | .route _ => .routes

/-- An address without a prefix is skipped. -/
def Record.isKept : Record → Bool
  | .addr ifAddr => ifAddr.addrPrefix.isSome
  | _ => true

/-- A request: the promise it holds, the list it asks for if it is a dump, and `messageType_`, which
only the requests about addresses set. -/
structure Request where
  id : ℕ
  asks : Option Kind
  messageType : MessageType
  deriving DecidableEq

/-- A record that came in, with the request that was in flight under its number, and whether a
callback for it was set. The kernel knows whether it is an answer to that request or a
notification; the socket does not. -/
structure Heard where
  record : Record
  request : Option Request
  isAnswer : Bool
  isListened : Bool
  deriving DecidableEq

/-- A call that waits for its promises, and what has come in since it was made. A call without a
kind adds or deletes something. -/
structure Call where
  kind : Option Kind
  ids : List ℕ
  during : List Heard := []
  deriving DecidableEq

/-- How the wait for the promises ended. -/
inductive Outcome where
  | completed
  | timedOut
  /-- A request was discarded, and its future throws. -/
  | broken
  deriving DecidableEq

/-- A dump that is over. -/
structure Return where
  call : Call
  outcome : Outcome
  records : List Record
  deriving DecidableEq

/-- The socket with its caches and callbacks, and the thread of the caller. A new socket has no
callbacks. `events` lists the calls of the callbacks, `heard` the records that came in and
`returned` the dumps that are over. -/
structure State where
  socket : NetlinkProtocolSocket Request
  linkEventCB : Bool := false
  addrEventCB : Bool := false
  neighborEventCB : Bool := false
  linkCache : List Link := []
  addressCache : List IfAddress := []
  neighborCache : List Neighbor := []
  routeCache : List Route := []
  /-- What the caller has handed to the event loop. -/
  posted : List (List Request) := []
  /-- The promises of discarded requests. -/
  broken : List ℕ := []
  nextId : ℕ := 0
  caller : Option Call := none
  events : List Record := []
  heard : List Heard := []
  returned : List Return := []

namespace State

def cache (s : State) : Kind → List Record
  | .links => s.linkCache.map .link
  | .addresses => s.addressCache.map .addr
  | .neighbors => s.neighborCache.map .neighbor
  | .routes => s.routeCache.map .route

/-- There is a callback for records of a kind. -/
def listens (s : State) : Kind → Bool
  | .links => s.linkEventCB
  | .addresses => s.addrEventCB
  | .neighbors => s.neighborEventCB
  | .routes => false

def clear (s : State) : Kind → State
  | .links => { s with linkCache := [] }
  | .addresses => { s with addressCache := [] }
  | .neighbors => { s with neighborCache := [] }
  | .routes => { s with routeCache := [] }

end State

/-! ### The event loop -/

/-- `addrEventCB_(addr, true)`. -/
def reportAddr (addr : IfAddress) (s : State) : State :=
  if s.addrEventCB then { s with events := s.events ++ [.addr addr] } else s

/-- An address is reported if there is a callback. -/
theorem reportAddr_eq (addr : IfAddress) (s : State) :
    reportAddr addr s = { s with events := (reportAddr addr s).events } := by
  unfold reportAddr
  split <;> rfl

/-- The cases of `processMessage`. -/
def processMessage (now : ℤ) (s : State) : NlMessage → State
  | .route seq route =>
    if (s.socket.nlSeqNoMap seq).isSome then { s with routeCache := s.routeCache ++ [route] } else s
  | .link seq link =>
    if (s.socket.nlSeqNoMap seq).isSome then { s with linkCache := s.linkCache ++ [link] }
    else if s.linkEventCB then { s with events := s.events ++ [.link link] }
    else s
  | .addr seq addr =>
    if addr.addrPrefix.isNone then s
    else
      match s.socket.nlSeqNoMap seq with
      | some request =>
        if request.messageType = .GET_ALL_ADDRS then
          { s with addressCache := s.addressCache ++ [addr] }
        else if request.messageType = .ADD_ADDR ∨ request.messageType = .DEL_ADDR then
          reportAddr addr s
        else s
      | none => reportAddr addr s
  | .neighbor seq neighbor =>
    if (s.socket.nlSeqNoMap seq).isSome then
      { s with neighborCache := s.neighborCache ++ [neighbor] }
    else if s.neighborEventCB then { s with events := s.events ++ [.neighbor neighbor] }
    else s
  | .ack seq error => { s with socket := processError now s.socket.pid seq error s.socket }
  | .done seq => { s with socket := processDone now seq s.socket }
  | .unknown => { s with socket := { s.socket with errors := s.socket.errors + 1 } }
  | .foreignAck | .noop => s

/-- The socket and `routeCache_` alone. -/
theorem processMessage_routes (now : ℤ) (s : State) (m : NlMessage) :
    ((processMessage now s m).socket, (processMessage now s m).routeCache) =
      handleMessage now (s.socket, s.routeCache) m := by
  cases m with
  | addr seq addr =>
    simp only [processMessage, handleMessage]
    split
    · rfl
    · rw [reportAddr_eq]
      split
      · split_ifs <;> rfl
      · rfl
  | route | link | neighbor =>
    simp only [processMessage, handleMessage]
    split_ifs <;> rfl
  | foreignAck | ack | noop | done | unknown => rfl

/-- The record of a message, with its sequence number. -/
def recordOf : NlMessage → Option (UInt32 × Record)
  | .route seq route => some (seq, .route route)
  | .link seq link => some (seq, .link link)
  | .addr seq addr => some (seq, .addr addr)
  | .neighbor seq neighbor => some (seq, .neighbor neighbor)
  | .foreignAck | .ack _ _ | .noop | .done _ | .unknown => none

def State.hear (e : Heard) (s : State) : State :=
  { s with
    heard := s.heard ++ [e]
    caller := s.caller.map fun w => { w with during := w.during ++ [e] } }

/-- A record that comes in now. -/
def State.arriving (s : State) (seq : UInt32) (record : Record) (isAnswer : Bool) : Heard :=
  ⟨record, s.socket.nlSeqNoMap seq, isAnswer, s.listens record.kind⟩

/-- A message of the kernel comes in. -/
def receive (now : ℤ) (isAnswer : Bool) (m : NlMessage) (s : State) : State :=
  match recordOf m with
  | some (seq, record) =>
    (processMessage now s m).hear
      (s.arriving seq record isAnswer)
  | none => processMessage now s m

/-- The event loop takes over the requests of a call. -/
def runPosted (now : ℤ) (s : State) : State :=
  match s.posted with
  | [] => s
  | msgs :: rest =>
    let taken := acceptMessages s.socket.msgQueue.length msgs
    { s with
      posted := rest
      socket := addNetlinkMessage now msgs s.socket
      broken := s.broken ++ (msgs.drop taken.length).map Request.id }

/-- The ack timer of the socket. -/
def fireTimer (now : ℤ) (s : State) : State :=
  match s.socket.nlMessageTimer with
  | some d => if d ≤ now then { s with socket := fireNlMessageTimer now s.socket } else s
  | none => s

/-! ### The thread of the caller -/

/-- The requests of a call go to the event loop, and the call waits. -/
def post (kind : Option Kind) (messageTypes : List MessageType) (s : State) : State :=
  let requests := messageTypes.mapIdx fun i type => ⟨s.nextId + i, kind, type⟩
  { s with
    posted := s.posted ++ [requests]
    nextId := s.nextId + messageTypes.length
    caller := some { kind, ids := requests.map Request.id } }

/-- The first half of a `getAll` function. -/
def startGetAll (kind : Kind) (messageType : MessageType) (s : State) : State :=
  if s.caller.isNone then post (some kind) [messageType] (s.clear kind) else s

/-- `getAllLinks` up to the wait, with the value that `messageType_` happens to have. -/
def getAllLinks (unset : MessageType) : State → State := startGetAll .links unset

/-- `getAllIfAddresses` up to the wait. -/
def getAllIfAddresses : State → State := startGetAll .addresses .GET_ALL_ADDRS

/-- `getAllNeighbors` up to the wait. -/
def getAllNeighbors (unset : MessageType) : State → State := startGetAll .neighbors unset

/-- `getAllRoutes` up to the wait. -/
def getAllRoutes (unset : MessageType) : State → State := startGetAll .routes unset

/-- The functions that add or delete routes or addresses, up to the wait. -/
def startRequests (messageTypes : List MessageType) (s : State) : State :=
  if s.caller.isNone then post none messageTypes s else s

/-- `setLinkEventCB`. -/
def setLinkEventCB (s : State) : State := { s with linkEventCB := true }

/-- `setAddrEventCB`. -/
def setAddrEventCB (s : State) : State := { s with addrEventCB := true }

/-- `setNeighborEventCB`. -/
def setNeighborEventCB (s : State) : State := { s with neighborEventCB := true }

/-- The promise has a value. -/
def State.isCompleted (s : State) (id : ℕ) : Bool := s.socket.completed.any fun c => c.2.1.id = id

/-- All promises of a call are fulfilled or broken. -/
def State.isSettled (s : State) (w : Call) : Bool :=
  w.ids.all fun id => s.isCompleted id || id ∈ s.broken

/-- The wait ends. -/
def State.outcome (s : State) (w : Call) : Outcome :=
  if s.isSettled w then if w.ids.any (· ∈ s.broken) then .broken else .completed else .timedOut

/-- The second half of a call: a dump returns its cache, unless a future throws. It does not look at
the status of the request. -/
def finish (s : State) : State :=
  match s.caller with
  | none => s
  | some w =>
    match w.kind with
    | none => { s with caller := none }
    | some kind =>
      if s.outcome w = .broken then
        { s with caller := none, returned := s.returned ++ [⟨w, .broken, []⟩] }
      else
        { s.clear kind with
          caller := none
          returned := s.returned ++ [⟨w, s.outcome w, s.cache kind⟩] }

/-! ### Runs -/

inductive Move where
  | getAllLinks (unset : MessageType)
  | getAllIfAddresses
  | getAllNeighbors (unset : MessageType)
  | getAllRoutes (unset : MessageType)
  | request (messageTypes : List MessageType)
  | finish
  | setLinkEventCB
  | setAddrEventCB
  | setNeighborEventCB
  | runPosted (now : ℤ)
  | receive (now : ℤ) (isAnswer : Bool) (m : NlMessage)
  | timer (now : ℤ)

def step : Move → State → State
  | .getAllLinks unset, s => getAllLinks unset s
  | .getAllIfAddresses, s => getAllIfAddresses s
  | .getAllNeighbors unset, s => getAllNeighbors unset s
  | .getAllRoutes unset, s => getAllRoutes unset s
  | .request messageTypes, s => startRequests messageTypes s
  | .finish, s => finish s
  | .setLinkEventCB, s => setLinkEventCB s
  | .setAddrEventCB, s => setAddrEventCB s
  | .setNeighborEventCB, s => setNeighborEventCB s
  | .runPosted now, s => runPosted now s
  | .receive now isAnswer m, s => receive now isAnswer m s
  | .timer now, s => fireTimer now s

/-- The kernel answers only a dump that is in flight, with records of the kind it asks for. -/
def Legal (s : State) : Move → Prop
  | .receive _ true m =>
    ∀ p ∈ recordOf m, ∃ r ∈ s.socket.nlSeqNoMap p.1, r.asks = some p.2.kind
  | _ => True

instance (s : State) (m : Move) : Decidable (Legal s m) := by
  unfold Legal
  split <;> infer_instance

/-- The states that a new socket reaches with the moves that are allowed. -/
inductive Reachable (pid lastSeqNo gSequenceNumber : UInt32) (allowed : State → Move → Prop) :
    State → Prop
  | start : Reachable pid lastSeqNo gSequenceNumber allowed
      { socket := { pid, lastSeqNo, gSequenceNumber } }
  | move {s : State} {m : Move} : Reachable pid lastSeqNo gSequenceNumber allowed s →
      allowed s m → Reachable pid lastSeqNo gSequenceNumber allowed (step m s)

/-- The state after some moves. -/
def run : List Move → State → State
  | [], s => s
  | m :: ms, s => run ms (step m s)

/-- Each of the moves is allowed when it is made. -/
def Along (allowed : State → Move → Prop) : List Move → State → Prop
  | [], _ => True
  | m :: ms, s => allowed s m ∧ Along allowed ms (step m s)

instance {allowed : State → Move → Prop} [∀ s m, Decidable (allowed s m)] (ms : List Move)
    (s : State) : Decidable (Along allowed ms s) := by
  induction ms generalizing s with
  | nil => exact inferInstanceAs (Decidable True)
  | cons m ms ih => exact @instDecidableAnd _ _ inferInstance (ih (step m s))

/-- A run goes on. -/
theorem Reachable.run {pid lastSeqNo gSequenceNumber : UInt32} {allowed : State → Move → Prop}
    {ms : List Move} {s : State} (h : Reachable pid lastSeqNo gSequenceNumber allowed s)
    (hms : Along allowed ms s) : Reachable pid lastSeqNo gSequenceNumber allowed (run ms s) := by
  induction ms generalizing s with
  | nil => exact h
  | cons m ms ih => exact ih (.move h hms.1) hms.2

end Dump

end Fbmeshd
