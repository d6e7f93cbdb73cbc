import Mathlib.Data.List.Count
import Mathlib.Tactic.Common
import Tensorpipe.ReactorProofs

/-! # The InfiniBand connection — requests in flight, and teardown

    A connection posts RDMA writes and sends through the reactor and counts those that have not
    completed.  After an error it waits for them, and only then has itself cleaned up.

    What the ring buffers hold does not matter for this: what `handleRead` and `handleWrite`
    return, each time that they are called, is a parameter of each task.

    The idea of the proofs: the counters are what the reactor and the device still have of this
    queue pair (`writesOf`, `acksOf`), so that a completion is never counted twice, and the
    cleanup is scheduled in the one step in which they both become zero. -/

namespace TpIbv

open TpStateMachine

-- ── The connection ───────────────────────────────────────────────────────────

/-- The states of a connection: the two halves of the handshake, then the ring buffers. -/
inductive ConnectionState where
  | INITIALIZING
  | SEND_ADDR
  | RECV_ADDR
  | ESTABLISHED
deriving DecidableEq, Repr

/-- The length of the inbox and of the outbox. -/
def kBufferSize : Nat := 2 * 1024 * 1024

/-- What one call of `handleRead` returned, and whether the operation was complete then. -/
structure ReadResult where
  len : Nat
  completed : Bool
deriving DecidableEq, Repr

/-- The same for `handleWrite`, with the buffers of the outbox that were written to. -/
structure WriteResult where
  buffers : List (Nat × Nat)
  completed : Bool
deriving DecidableEq, Repr

/-- The results of the calls of one pass over the operations. -/
structure Results where
  reads : Nat → ReadResult
  writes : Nat → WriteResult

/-- A connection whose queue pair has been created.  `qp` tells whether it still is; `socket`
    whether the socket is open, with its descriptor registered.  `scheduled` counts how often the
    cleanup was deferred to the loop and `cleanups` how often it has run; `dangling` records a
    use of the queue pair after it was destroyed.  `posts` are the calls to the reactor. -/
structure ConnectionImpl where
  qpNum : UInt32
  outboxLkey : UInt32 := 0
  state : ConnectionState := .SEND_ADDR
  error : Bool := false
  socket : Bool := true
  qp : Bool := true
  peerInboxKey : UInt32 := 0
  peerInboxPtr : Nat := 0
  peerInboxHead : Nat := 0
  numWritesInFlight : Int := 0
  numAcksInFlight : Int := 0
  readOperations : List Nat := []
  writeOperations : List Nat := []
  scheduled : Nat := 0
  cleanups : Nat := 0
  dangling : Bool := false
  posts : List Call := []
deriving DecidableEq, Repr

namespace ConnectionImpl

/-- A use of `qp_`, which the model notes when the pointer is gone. -/
def useQp (x : ConnectionImpl) : ConnectionImpl := { x with dangling := x.dangling || !x.qp }

/-- Tells the peer how much of the inbox was consumed. -/
def postAck (length : Nat) (x : ConnectionImpl) : ConnectionImpl :=
  { x.useQp with
    posts := x.posts ++ [.postAck x.qpNum { length }]
    numAcksInFlight := x.numAcksInFlight + 1 }

/-- Has the device copy a piece of the outbox to the inbox of the peer. -/
def postWrite (buffer : Nat × Nat) (x : ConnectionImpl) : ConnectionImpl :=
  let peerInboxOffset := x.peerInboxHead % kBufferSize
  let info : WriteInfo :=
    { addr := buffer.1
      length := buffer.2
      lkey := x.outboxLkey
      remoteAddr := x.peerInboxPtr + peerInboxOffset
      rkey := x.peerInboxKey }
  { x.useQp with
    peerInboxHead := x.peerInboxHead + buffer.2
    posts := x.posts ++ [.postWrite x.qpNum info]
    numWritesInFlight := x.numWritesInFlight + 1 }

/-- The loop over the read operations, in its `i`-th round. -/
def serveReads (results : Nat → ReadResult) : Nat → List Nat → ConnectionImpl → ConnectionImpl
  | _, [], x => { x with readOperations := [] }
  | i, op :: rest, x =>
      let x := if 0 < (results i).len then x.postAck (results i).len else x
      if (results i).completed then serveReads results (i + 1) rest x
      else { x with readOperations := op :: rest }

/-- Serves the reads from the first one, once the connection is established. -/
def processReadOperationsFromLoop (results : Results) (x : ConnectionImpl) : ConnectionImpl :=
  if x.state ≠ .ESTABLISHED then x else serveReads results.reads 0 x.readOperations x

/-- The loop over the write operations: each takes what the outbox has room for. -/
def serveWrites (results : Nat → WriteResult) : Nat → List Nat → ConnectionImpl → ConnectionImpl
  | _, [], x => { x with writeOperations := [] }
  | i, op :: rest, x =>
      let x := (results i).buffers.foldl (fun x buffer => x.postWrite buffer) x
      if (results i).completed then serveWrites results (i + 1) rest x
      else { x with writeOperations := op :: rest }

/-- Serves the writes from the first one, once the connection is established. -/
def processWriteOperationsFromLoop (results : Results) (x : ConnectionImpl) : ConnectionImpl :=
  if x.state ≠ .ESTABLISHED then x else serveWrites results.writes 0 x.writeOperations x

/-- A connection in error is cleaned up when nothing of it is in flight. -/
def tryCleanup (x : ConnectionImpl) : ConnectionImpl :=
  if x.error then
    if x.numWritesInFlight = 0 ∧ x.numAcksInFlight = 0 then { x with scheduled := x.scheduled + 1 }
    else x.useQp
  else x

/-- What the first error does: no more operations, the queue pair in error, no socket. -/
def handleErrorImpl (x : ConnectionImpl) : ConnectionImpl :=
  let x := { x with readOperations := [], writeOperations := [] }
  -- the queue pair is set to an error state
  let x := x.useQp.tryCleanup
  { x with socket := false }

/-- Don't overwrite an error that's already set. -/
def setError (x : ConnectionImpl) : ConnectionImpl :=
  if x.error then x else { x with error := true }.handleErrorImpl

/-- The deferred clean-up, which destroys the queue pair. -/
def cleanup (x : ConnectionImpl) : ConnectionImpl :=
  { x.useQp with cleanups := x.cleanups + 1, qp := false }

-- ── What the reactor tells it ────────────────────────────────────────────────

/-- The peer has written to the inbox. -/
def onRemoteProducedData (results : Results) (x : ConnectionImpl) : ConnectionImpl :=
  x.useQp.processReadOperationsFromLoop results

/-- The peer has read from its inbox, so that the outbox has room. -/
def onRemoteConsumedData (results : Results) (x : ConnectionImpl) : ConnectionImpl :=
  x.useQp.processWriteOperationsFromLoop results

/-- The device has finished a write, or has given it up. -/
def onWriteCompleted (x : ConnectionImpl) : ConnectionImpl :=
  { x.useQp with numWritesInFlight := x.numWritesInFlight - 1 }.tryCleanup

/-- The device has finished an acknowledgement, or has given it up. -/
def onAckCompleted (x : ConnectionImpl) : ConnectionImpl :=
  { x.useQp with numAcksInFlight := x.numAcksInFlight - 1 }.tryCleanup

/-- The device failed a request of this queue pair. -/
def onError (wrId : Nat) (x : ConnectionImpl) : ConnectionImpl :=
  let x := x.setError
  if wrId = kWriteRequestId then x.onWriteCompleted
  else if wrId = kAckRequestId then x.onAckCompleted
  else x

/-- What the reactor reports to a registered queue pair. -/
def onEvent (results : Results) (event : IbvEvent) (x : ConnectionImpl) : ConnectionImpl :=
  match event with
  | .onRemoteProducedData _ => x.onRemoteProducedData results
  | .onRemoteConsumedData _ => x.onRemoteConsumedData results
  | .onWriteCompleted => x.onWriteCompleted
  | .onAckCompleted => x.onAckCompleted
  | .onError _ wrId => x.onError wrId

-- ── What the user and the socket tell it ─────────────────────────────────────

/-- A call of `read`, which a connection in error does not take up. -/
def readFromLoop (op : Nat) (results : Results) (x : ConnectionImpl) : ConnectionImpl :=
  if x.error then x
  else { x with readOperations := x.readOperations ++ [op] }.processReadOperationsFromLoop results

/-- A call of `write`, which a connection in error does not take up. -/
def writeFromLoop (op : Nat) (results : Results) (x : ConnectionImpl) : ConnectionImpl :=
  if x.error then x
  else
    { x with writeOperations := x.writeOperations ++ [op] }.processWriteOperationsFromLoop results

/-- What the peer says of itself; it may also come short. -/
structure Exchange where
  memoryRegionPtr : Nat
  memoryRegionKey : UInt32
deriving DecidableEq, Repr

/-- The events of the socket.  `none` stands for an exception. -/
inductive SocketEvent where
  | EPOLLERR
  | EPOLLIN (exchange : Option Exchange)
  | EPOLLOUT (written : Bool)
  | EPOLLHUP
deriving DecidableEq, Repr

/-- The socket is readable: the peer's half of the handshake. -/
def handleEventInFromLoop (exchange : Option Exchange) (results : Results) (x : ConnectionImpl) :
    Option ConnectionImpl :=
  match x.state with
  | .RECV_ADDR =>
      match exchange with
      | none => some x.setError
      | some ex =>
          -- the queue pair is made ready to receive and to send
          let x := { x.useQp with
            peerInboxKey := ex.memoryRegionKey
            peerInboxPtr := ex.memoryRegionPtr
            state := .ESTABLISHED }
          some ((x.processWriteOperationsFromLoop results).processReadOperationsFromLoop results)
  | .ESTABLISHED => some x.setError
  | _ => none

/-- The socket is writable: this end's half of the handshake. -/
def handleEventOutFromLoop (written : Bool) (x : ConnectionImpl) : Option ConnectionImpl :=
  match x.state with
  | .SEND_ADDR => if written then some { x.useQp with state := .RECV_ADDR } else some x.setError
  | _ => none

/-- What epoll reports of the socket. -/
def handleEventsFromLoop (event : SocketEvent) (results : Results) (x : ConnectionImpl) :
    Option ConnectionImpl :=
  match event with
  | .EPOLLERR => some x.setError
  | .EPOLLIN exchange => x.handleEventInFromLoop exchange results
  | .EPOLLOUT written => x.handleEventOutFromLoop written
  | .EPOLLHUP => some x.setError

/-- The tasks of the loop, other than what the reactor tells. -/
inductive Task where
  | read (op : Nat) (results : Results)
  | write (op : Nat) (results : Results)
  | close
  | socket (event : SocketEvent) (results : Results)
  | cleanup

/-- The socket is watched until it is closed; a cleanup runs if it was scheduled. -/
def enabled (x : ConnectionImpl) : Task → Prop
  | .socket _ _ => x.socket = true
  | .cleanup => x.cleanups < x.scheduled
  | _ => True

/-- One task of the loop on one connection. -/
def step (x : ConnectionImpl) : Task → Option ConnectionImpl
  | .read op results => some (x.readFromLoop op results)
  | .write op results => some (x.writeFromLoop op results)
  | .close => some x.setError
  | .socket event results => x.handleEventsFromLoop event results
  | .cleanup => some x.cleanup

end ConnectionImpl

-- ── The connection and the reactor ───────────────────────────────────────────

/-- What a completion is told as. -/
def Wc.event (wc : Wc) : Option IbvEvent :=
  if wc.status ≠ .WC_SUCCESS then some (.onError wc.status wc.wrId)
  else match wc.opcode with
    | .WC_RECV_RDMA_WITH_IMM => some (.onRemoteProducedData wc.immData)
    | .WC_RECV => some (.onRemoteConsumedData wc.immData)
    | .WC_RDMA_WRITE => some .onWriteCompleted
    | .WC_SEND => some .onAckCompleted
    | .other _ => none

/-- The queue pair that a call of the reactor is about. -/
def Call.qpNum : Call → UInt32
  | .registerQp qpNum | .unregisterQp qpNum | .postWrite qpNum _ | .postAck qpNum _ => qpNum

/-- One connection of many, and the reactor that they share. -/
structure System where
  connection : ConnectionImpl
  reactor : Reactor
deriving DecidableEq, Repr

namespace System

/-- A batch of completions goes to the handlers.  Each completion comes with the results of the
    ring buffers of the connection, should it be for it, and with the calls that the handler
    makes, should it be for another one. -/
def dispatch : List (Wc × Results × List Call) → ConnectionImpl →
    ConnectionImpl × List (Wc × List Call)
  | [], x => (x, [])
  | (wc, results, others) :: rest, x =>
      if wc.qpNum = x.qpNum then
        let x' := (wc.event.map (fun event => x.onEvent results event)).getD x
        let (x'', batch) := dispatch rest x'
        (x'', (wc, x'.posts.drop x.posts.length) :: batch)
      else
        let (x', batch) := dispatch rest x
        (x', (wc, others) :: batch)

/-- A step of the system: a task of the connection, a call of another one, or a poll. -/
inductive Step where
  | task (task : ConnectionImpl.Task)
  | others (call : Call)
  | poll (batch : List (Wc × Results × List Call))

/-- The other connections have other queue pairs.  Every completion of this queue pair is polled
    before it is destroyed. -/
def enabled (s : System) : Step → Prop
  | .task task => s.connection.enabled task
  | .others call => call.qpNum ≠ s.connection.qpNum
  | .poll batch => batch.length ≤ kNumPolledWorkCompletions
      ∧ (∀ entry ∈ batch, ∀ call ∈ entry.2.2, call.qpNum ≠ s.connection.qpNum)
      ∧ (0 < s.connection.cleanups → ∀ entry ∈ batch, entry.1.qpNum ≠ s.connection.qpNum)

/-- The calls of a task, which reach the reactor as they are made.  The cleanup unregisters the
    queue pair. -/
def callsOf (x x' : ConnectionImpl) : ConnectionImpl.Task → List Call
  | .cleanup => [.unregisterQp x.qpNum]
  | _ => x'.posts.drop x.posts.length

/-- A step of the connection together with the reactor that it posts to. -/
def step (s : System) : Step → Option System
  | .task task =>
      (s.connection.step task).map (fun connection =>
        { connection, reactor := s.reactor.calls (callsOf s.connection connection task) })
  | .others call => some { s with reactor := s.reactor.call call }
  | .poll batch =>
      (s.reactor.device.pollCq (batch.map Prod.fst)).bind (fun device =>
        let (connection, batch') := dispatch batch s.connection
        match { s.reactor with device }.pollOnce batch' with
        | .returns reactor => some { connection, reactor }
        | .throws _ => none)

/-- The queue pair of the connection has just been created, and registered with a reactor whose
    other connections had been using it for any time. -/
inductive Reachable : System → Prop where
  | init (connection : ConnectionImpl) {reactor : Reactor} {polled : List Wc}
      (hconnection : connection =
        { qpNum := connection.qpNum, outboxLkey := connection.outboxLkey })
      (hreactor : Reactor.Reachable reactor polled)
      (hfresh : (∀ wr ∈ reactor.device.sends, wr.qpNum ≠ connection.qpNum)
        ∧ (∀ p ∈ reactor.pendingQpWrites, p.1 ≠ connection.qpNum)
        ∧ ∀ p ∈ reactor.pendingQpAcks, p.1 ≠ connection.qpNum) :
      Reachable { connection, reactor := reactor.call (.registerQp connection.qpNum) }
  | step {s s' : System} (h : Reachable s) (st : Step) (henabled : s.enabled st)
      (hstep : s.step st = some s') : Reachable s'

end System

-- ── Requests in flight, at the reactor ───────────────────────────────────────

/-- The two kinds of requests that a connection makes. -/
inductive Kind where
  | write
  | ack
deriving DecidableEq, Repr

/-- The identifier that the requests of a kind carry. -/
def Kind.wrId : Kind → Nat
  | .write => kWriteRequestId
  | .ack => kAckRequestId

/-- A call that makes a request of this kind on this queue pair. -/
def Call.requests (kind : Kind) (qpNum : UInt32) : Call → Bool
  | .postWrite qpNum' _ => kind == .write && qpNum' == qpNum
  | .postAck qpNum' _ => kind == .ack && qpNum' == qpNum
  | _ => false

/-- The completion, with any status, of a request of this kind on this queue pair. -/
def Wc.completes (kind : Kind) (qpNum : UInt32) (wc : Wc) : Bool :=
  wc.wrId == kind.wrId && wc.qpNum == qpNum

/-- The requests of a queue pair and a kind that the device still holds. -/
def Device.sendsOf (kind : Kind) (qpNum : UInt32) (d : Device) : Nat :=
  d.sends.countP (fun wr => wr.wrId == kind.wrId && wr.qpNum == qpNum)

namespace Reactor

/-- The requests of a queue pair and a kind that wait for a credit. -/
def pendingOf (kind : Kind) (qpNum : UInt32) (s : Reactor) : Nat :=
  match kind with
  | .write => s.pendingQpWrites.countP (fun p => p.1 == qpNum)
  | .ack => s.pendingQpAcks.countP (fun p => p.1 == qpNum)

/-- The requests of a queue pair whose completion was not polled: those with the device, and
    those that the reactor holds back. -/
def inFlight (kind : Kind) (qpNum : UInt32) (s : Reactor) : Nat :=
  s.device.sendsOf kind qpNum + s.pendingOf kind qpNum

/-- Posting a request adds one to those of its own queue pair and kind. -/
theorem sendsOf_postSend (d : Device) (wr : SendWr) (kind : Kind) (qpNum : UInt32) :
    (d.postSend wr).sendsOf kind qpNum
      = d.sendsOf kind qpNum + if wr.wrId == kind.wrId && wr.qpNum == qpNum then 1 else 0 := by
  show (d.sends ++ [wr]).countP _ = d.sends.countP _ + _
  rw [List.countP_append, List.countP_singleton]

/-- A posted write is in flight at once, on the device or in wait of a credit. -/
theorem postWrite_inFlight (s : Reactor) (kind : Kind) (q qpNum : UInt32) (info : WriteInfo) :
    (s.postWrite qpNum info).inFlight kind q
      = s.inFlight kind q + if (Call.postWrite qpNum info).requests kind q then 1 else 0 := by
  rw [postWrite]
  by_cases havail : 0 < s.numAvailableWrites
  · rw [if_pos havail]
    show (s.device.postSend _).sendsOf kind q + s.pendingOf kind q = _
    rw [sendsOf_postSend, inFlight, Nat.add_right_comm]
    cases kind <;> rfl
  · rw [if_neg havail]
    cases kind with
    | write =>
        show _ + (s.pendingQpWrites ++ [(qpNum, info)]).countP _ = _
        rw [List.countP_append, List.countP_singleton, ← Nat.add_assoc]
        rfl
    | ack => rfl

/-- A posted acknowledgement is in flight at once, on the device or in wait of a credit. -/
theorem postAck_inFlight (s : Reactor) (kind : Kind) (q qpNum : UInt32) (info : AckInfo) :
    (s.postAck qpNum info).inFlight kind q
      = s.inFlight kind q + if (Call.postAck qpNum info).requests kind q then 1 else 0 := by
  rw [postAck]
  by_cases havail : 0 < s.numAvailableAcks
  · rw [if_pos havail]
    show (s.device.postSend _).sendsOf kind q + s.pendingOf kind q = _
    rw [sendsOf_postSend, inFlight, Nat.add_right_comm]
    cases kind <;> rfl
  · rw [if_neg havail]
    cases kind with
    | write => rfl
    | ack =>
        show _ + (s.pendingQpAcks ++ [(qpNum, info)]).countP _ = _
        rw [List.countP_append, List.countP_singleton, ← Nat.add_assoc]
        rfl

/-- A call of the reactor puts in flight what it requests. -/
theorem call_inFlight (s : Reactor) (kind : Kind) (q : UInt32) (c : Call) :
    (s.call c).inFlight kind q = s.inFlight kind q + if c.requests kind q then 1 else 0 := by
  cases c with
  | registerQp qpNum =>
      rw [call]
      by_cases hmem : qpNum ∈ s.queuePairEventHandler
      · rw [if_pos hmem]
        rfl
      · rw [if_neg hmem]
        cases kind <;> rfl
  | unregisterQp qpNum => cases kind <;> rfl
  | postWrite qpNum info => exact postWrite_inFlight s kind q qpNum info
  | postAck qpNum info => exact postAck_inFlight s kind q qpNum info

/-- Calls of the reactor put in flight what they request, one after the other. -/
theorem calls_inFlight (kind : Kind) (q : UInt32) (cs : List Call) :
    ∀ s : Reactor,
      (s.calls cs).inFlight kind q = s.inFlight kind q + cs.countP (Call.requests kind q) := by
  induction cs with
  | nil => intro s; rfl
  | cons c rest ih =>
      intro s
      show ((s.call c).calls rest).inFlight kind q = _
      rw [ih, call_inFlight, List.countP_cons]
      omega

/-- What the reactor hands to the device leaves its queue. -/
theorem drainWrites_inFlight (kind : Kind) (q : UInt32) (fuel : Nat) (s : Reactor) :
    (drainWrites fuel s).inFlight kind q = s.inFlight kind q := by
  refine drainWrites_keeps (fun s => s.inFlight kind q) ?_ fuel s
  intro s qpNum info rest hpending havail
  rw [postWrite, if_pos havail]
  show (s.device.postSend _).sendsOf kind q + _ = _
  rw [sendsOf_postSend, inFlight, Nat.add_assoc]
  congr 1
  cases kind with
  | write =>
      simp only [pendingOf, hpending, List.tail_cons, List.countP_cons]
      exact Nat.add_comm _ _
  | ack => exact Nat.zero_add _

/-- Handing over what waited changes nothing of what is in flight. -/
theorem drainAcks_inFlight (kind : Kind) (q : UInt32) (fuel : Nat) (s : Reactor) :
    (drainAcks fuel s).inFlight kind q = s.inFlight kind q := by
  refine drainAcks_keeps (fun s => s.inFlight kind q) ?_ fuel s
  intro s qpNum info rest hpending havail
  rw [postAck, if_pos havail]
  show (s.device.postSend _).sendsOf kind q + _ = _
  rw [sendsOf_postSend, inFlight, Nat.add_assoc]
  congr 1
  cases kind with
  | write => exact Nat.zero_add _
  | ack =>
      simp only [pendingOf, hpending, List.tail_cons, List.countP_cons]
      exact Nat.add_comm _ _

/-- Returning the credits changes nothing of what is in flight. -/
theorem settle_inFlight (s : Reactor) (tally : Tally) (kind : Kind) (q : UInt32) :
    (s.settle tally).inFlight kind q = s.inFlight kind q := by
  rw [settle]
  simp only
  rw [drainAcks_inFlight]
  show (drainWrites _ _).inFlight kind q = _
  rw [drainWrites_inFlight, postRecvRequestsOnSRQ, postRecvLoop_eq _ _ _ (Nat.le_refl _)]
  cases kind <;> rfl

/-- Handling a completion puts in flight what its callback requests. -/
theorem handleCompletion_inFlight {x x' : Reactor × Tally} {wc : Wc} {cs : List Call}
    (h : handleCompletion x wc cs = .returns x') (kind : Kind) (q : UInt32) :
    x'.1.inFlight kind q = x.1.inFlight kind q + cs.countP (Call.requests kind q) := by
  -- Whatever the handler is told, it then makes its calls.
  have hinvoke : ∀ event : IbvEvent, (x.1.invoke wc.qpNum event cs).inFlight kind q
      = x.1.inFlight kind q + cs.countP (Call.requests kind q) := by
    intro event
    rw [invoke, calls_inFlight]
    cases kind <;> rfl
  obtain ⟨s, tally⟩ := x
  simp only [handleCompletion] at h
  split at h
  · exact absurd h (by simp)
  split at h
  · cases h
    exact hinvoke _
  split at h
  · split at h
    · exact absurd h (by simp)
    · cases h
      exact hinvoke _
  · split at h
    · exact absurd h (by simp)
    · cases h
      exact hinvoke _
  · cases h
    exact hinvoke _
  · cases h
    exact hinvoke _
  · exact absurd h (by simp)

/-- Handling a batch puts in flight what its callbacks request. -/
theorem handleCompletions_inFlight (kind : Kind) (q : UInt32) (batch : List (Wc × List Call)) :
    ∀ {x x' : Reactor × Tally}, handleCompletions batch x = .returns x' →
      x'.1.inFlight kind q
        = x.1.inFlight kind q + (batch.flatMap Prod.snd).countP (Call.requests kind q) := by
  induction batch with
  | nil =>
      intro x x' h
      cases h
      rfl
  | cons entry rest ih =>
      obtain ⟨wc, cs⟩ := entry
      intro x x' h
      rw [handleCompletions] at h
      cases hfirst : handleCompletion x wc cs with
      | throws y =>
          rw [hfirst] at h
          exact absurd h (by simp)
      | returns y =>
          rw [hfirst] at h
          rw [ih h, handleCompletion_inFlight hfirst, List.flatMap_cons, List.countP_append,
            Nat.add_assoc]

/-- A completion takes its request out of the device. -/
theorem complete_sendsOf {d d' : Device} {wc : Wc} (h : d.complete wc = some d') (kind : Kind)
    (q : UInt32) :
    d'.sendsOf kind q + (if wc.completes kind q then 1 else 0) = d.sendsOf kind q := by
  rw [Device.complete] at h
  split at h
  · exact absurd h (by simp)
  split at h
  · split at h
    · rename_i hany
      cases h
      obtain ⟨wr₀, hmem, hfor⟩ := List.any_eq_true.mp hany
      obtain ⟨wr, pre, post, -, hwr, hsplit, herase⟩ := List.exists_of_eraseP hmem hfor
      have hid : wr.wrId = wc.wrId := beq_iff_eq.mp (Bool.and_eq_true_iff.mp hwr).1
      have hqp : wr.qpNum = wc.qpNum := beq_iff_eq.mp (Bool.and_eq_true_iff.mp hwr).2
      show (d.sends.eraseP _).countP _ + _ = d.sends.countP _
      rw [herase, hsplit, List.countP_append, List.countP_append, List.countP_cons, hid, hqp]
      exact Nat.add_assoc _ _ _
    · exact absurd h (by simp)
  · split at h
    · rename_i hsend hrecv
      cases h
      have hnone : wc.completes kind q = false := by
        rw [Wc.completes, hrecv.1]
        cases kind <;> rfl
      rw [hnone]
      rfl
    · exact absurd h (by simp)

/-- What the device reports is no longer on the device. -/
theorem pollCq_sendsOf (kind : Kind) (q : UInt32) (wcs : List Wc) :
    ∀ {d d' : Device}, d.pollCq wcs = some d' →
      d'.sendsOf kind q + wcs.countP (Wc.completes kind q) = d.sendsOf kind q := by
  induction wcs with
  | nil =>
      intro d d' h
      cases h
      rfl
  | cons wc rest ih =>
      intro d d' h
      obtain ⟨d₁, hfirst, hrest⟩ := Option.bind_eq_some_iff.mp h
      rw [← complete_sendsOf hfirst, ← ih hrest, List.countP_cons, Nat.add_assoc]

/-- One poll: the completions of the batch go, and the requests that the handlers make come. -/
theorem poll_inFlight {s s' : Reactor} {device' : Device} {batch : List (Wc × List Call)}
    (hpoll : s.device.pollCq (batch.map Prod.fst) = some device')
    (hstep : pollOnce { s with device := device' } batch = .returns s') (kind : Kind)
    (q : UInt32) :
    s'.inFlight kind q + (batch.map Prod.fst).countP (Wc.completes kind q)
      = s.inFlight kind q + (batch.flatMap Prod.snd).countP (Call.requests kind q) := by
  have hdevice := pollCq_sendsOf kind q _ hpoll
  have htaken : inFlight kind q { s with device := device' }
      + (batch.map Prod.fst).countP (Wc.completes kind q) = s.inFlight kind q := by
    rw [inFlight, inFlight, ← hdevice, Nat.add_right_comm]
    cases kind <;> rfl
  cases batch with
  | nil =>
      cases hstep
      rw [htaken]
      rfl
  | cons entry rest =>
      simp only [pollOnce] at hstep
      cases hbatch : handleCompletions (entry :: rest) ({ s with device := device' }, {}) with
      | throws x =>
          rw [hbatch] at hstep
          exact absurd hstep (by simp)
      | returns x =>
          rw [hbatch] at hstep
          cases hstep
          rw [settle_inFlight, handleCompletions_inFlight kind q _ hbatch, ← htaken]
          exact Nat.add_right_comm _ _ _

end Reactor

-- ── One connection ───────────────────────────────────────────────────────────

/-- The completions that an event reports. -/
def IbvEvent.completes (kind : Kind) : IbvEvent → Bool
  | .onWriteCompleted => kind == .write
  | .onAckCompleted => kind == .ack
  | .onError _ wrId => wrId == kind.wrId
  | _ => false

namespace ConnectionImpl

/-- The counter of a kind in the connection. -/
def inFlight (kind : Kind) (x : ConnectionImpl) : Int :=
  match kind with
  | .write => x.numWritesInFlight
  | .ack => x.numAcksInFlight

/-- The cleanup is scheduled if and only if there is an error and nothing is in flight, and the
    queue pair is destroyed by it and not used afterwards. -/
structure Sound (x : ConnectionImpl) : Prop where
  idle : x.error = true →
    x.readOperations = [] ∧ x.writeOperations = [] ∧ x.socket = false
  scheduled : x.scheduled =
    if x.error = true ∧ x.numWritesInFlight = 0 ∧ x.numAcksInFlight = 0 then 1 else 0
  cleanups : x.cleanups ≤ x.scheduled
  qp : x.qp = true ↔ x.cleanups = 0
  dangling : x.dangling = false

/-- These calls were made from `x` to `x'`, and these completions were reported. -/
structure Change (x x' : ConnectionImpl) (cs : List Call) (done : Kind → Nat) : Prop where
  qpNum : x'.qpNum = x.qpNum
  posts : x'.posts = x.posts ++ cs
  silent : x.error = true → cs = []
  inFlight : ∀ kind, x'.inFlight kind + done kind
    = x.inFlight kind + cs.countP (Call.requests kind x.qpNum)
  error : x.error = true → x'.error = true
  cleanups : x'.cleanups = x.cleanups

variable {x x' x'' : ConnectionImpl}

/-- Doing nothing is a change without calls. -/
theorem Change.refl (x : ConnectionImpl) : Change x x [] (fun _ => 0) where
  qpNum := rfl
  posts := (List.append_nil _).symm
  silent := fun _ => rfl
  inFlight := fun _ => rfl
  error := id
  cleanups := rfl

/-- Changes follow one another, their calls and completions together. -/
theorem Change.trans {cs cs' : List Call} {done done' : Kind → Nat} (h : Change x x' cs done)
    (h' : Change x' x'' cs' done') :
    Change x x'' (cs ++ cs') (fun kind => done kind + done' kind) where
  qpNum := h'.qpNum.trans h.qpNum
  posts := by rw [h'.posts, h.posts, List.append_assoc]
  silent := by
    intro herror
    rw [h.silent herror, h'.silent (h.error herror)]
    rfl
  inFlight := by
    intro kind
    have hfirst := h.inFlight kind
    have hsecond := h'.inFlight kind
    rw [h.qpNum] at hsecond
    rw [List.countP_append]
    push_cast
    omega
  error := fun herror => h'.error (h.error herror)
  cleanups := h'.cleanups.trans h.cleanups

/-- Before the error no cleanup was scheduled. -/
theorem Sound.live (h : Sound x) (herror : x.error = false) : x.scheduled = 0 ∧ x.cleanups = 0 := by
  have hscheduled := h.scheduled
  rw [herror, if_neg (fun hcond => Bool.false_ne_true hcond.1)] at hscheduled
  exact ⟨hscheduled, Nat.le_zero.mp (hscheduled ▸ h.cleanups)⟩

/-- As long as there is something in flight. -/
theorem Sound.busy (h : Sound x) {kind : Kind} (hbusy : 0 < x.inFlight kind) :
    x.scheduled = 0 := by
  rw [h.scheduled, if_neg]
  intro hcond
  cases kind with
  | write => exact absurd hcond.2.1 (Int.ne_of_gt hbusy)
  | ack => exact absurd hcond.2.2 (Int.ne_of_gt hbusy)

/-- While the queue pair is there, using it changes nothing. -/
theorem useQp_eq (hqp : x.qp = true) (hdangling : x.dangling = false) : x.useQp = x := by
  have hsame : (x.dangling || !x.qp) = x.dangling := by
    rw [hqp, hdangling]
    rfl
  rw [useQp, hsame]

/-- Before its clean-up a sound connection has its queue pair. -/
theorem Sound.useQp_eq (h : Sound x) (hcleanups : x.cleanups = 0) : x.useQp = x :=
  ConnectionImpl.useQp_eq (h.qp.mpr hcleanups) h.dangling

/-- `Serving x x'`: some operations were served. -/
def Serving (x x' : ConnectionImpl) : Prop :=
  Sound x' ∧ x'.error = x.error ∧ ∃ cs, Change x x' cs (fun _ => 0)

/-- Serving nothing. -/
theorem Serving.refl (h : Sound x) : Serving x x :=
  ⟨h, rfl, [], Change.refl x⟩

/-- What is served in two parts is served. -/
theorem Serving.trans (h : Serving x x') (h' : Serving x' x'') : Serving x x'' := by
  obtain ⟨-, herror, cs, hchange⟩ := h
  obtain ⟨hsound, herror', cs', hchange'⟩ := h'
  exact ⟨hsound, herror'.trans herror, cs ++ cs', hchange.trans hchange'⟩

/-- Before the error, a step may do anything to the queues and the handshake; it leaves the
    cleanup and the queue pair alone, and counts the calls that it makes. -/
theorem serving_of_live (h : Sound x) (herror : x.error = false) {cs : List Call}
    (hqpNum : x'.qpNum = x.qpNum) (herror' : x'.error = x.error)
    (hcleanup : x'.scheduled = x.scheduled ∧ x'.cleanups = x.cleanups)
    (hqp : x'.qp = x.qp ∧ x'.dangling = x.dangling) (hposts : x'.posts = x.posts ++ cs)
    (hinFlight : ∀ kind, x'.inFlight kind = x.inFlight kind
      + cs.countP (Call.requests kind x.qpNum)) : Serving x x' := by
  have hlive := h.live herror
  have hnever : x.error = true → False := fun hset => Bool.false_ne_true (herror ▸ hset)
  refine ⟨⟨?_, ?_, ?_, ?_, hqp.2.trans h.dangling⟩, herror', cs,
    ⟨hqpNum, hposts, fun hset => (hnever hset).elim, ?_, fun hset => (hnever hset).elim,
      hcleanup.2⟩⟩
  · intro hset
    exact (hnever (herror' ▸ hset)).elim
  · rw [hcleanup.1, hlive.1, if_neg (fun hcond => hnever (herror' ▸ hcond.1))]
  · rw [hcleanup.1, hcleanup.2]
    exact h.cleanups
  · rw [hqp.1, hcleanup.2]
    exact h.qp
  · intro kind
    rw [hinFlight kind]
    exact Int.add_zero _

/-- An acknowledgement is a service. -/
theorem postAck_serving (h : Sound x) (herror : x.error = false) (length : Nat) :
    Serving x (x.postAck length) := by
  rw [postAck, h.useQp_eq (h.live herror).2]
  refine serving_of_live h herror rfl rfl ⟨rfl, rfl⟩ ⟨rfl, rfl⟩ rfl (fun kind => ?_)
  rw [List.countP_singleton, Call.requests]
  cases kind with
  | write => exact (Int.add_zero _).symm
  | ack =>
      rw [beq_self_eq_true, beq_self_eq_true]
      rfl

/-- A write is a service. -/
theorem postWrite_serving (h : Sound x) (herror : x.error = false) (buffer : Nat × Nat) :
    Serving x (x.postWrite buffer) := by
  rw [postWrite, h.useQp_eq (h.live herror).2]
  refine serving_of_live h herror rfl rfl ⟨rfl, rfl⟩ ⟨rfl, rfl⟩ rfl (fun kind => ?_)
  rw [List.countP_singleton, Call.requests]
  cases kind with
  | write =>
      rw [beq_self_eq_true, beq_self_eq_true]
      rfl
  | ack => exact (Int.add_zero _).symm

/-- The writes of several buffers are a service. -/
theorem postWrites_serving (buffers : List (Nat × Nat)) :
    ∀ {x : ConnectionImpl}, Sound x → x.error = false →
      Serving x (buffers.foldl (fun x buffer => x.postWrite buffer) x) := by
  induction buffers with
  | nil =>
      intro x h _
      exact Serving.refl h
  | cons buffer rest ih =>
      intro x h herror
      have hfirst := postWrite_serving h herror buffer
      exact hfirst.trans (ih hfirst.1 (hfirst.2.1.trans herror))

/-- The list of the reads bears on nothing that is counted. -/
theorem setReads_serving (h : Sound x) (herror : x.error = false) (ops : List Nat) :
    Serving x { x with readOperations := ops } :=
  serving_of_live h herror rfl rfl ⟨rfl, rfl⟩ ⟨rfl, rfl⟩ (List.append_nil _).symm
    (fun _ => (Int.add_zero _).symm)

/-- The list of the writes bears on nothing that is counted. -/
theorem setWrites_serving (h : Sound x) (herror : x.error = false) (ops : List Nat) :
    Serving x { x with writeOperations := ops } :=
  serving_of_live h herror rfl rfl ⟨rfl, rfl⟩ ⟨rfl, rfl⟩ (List.append_nil _).symm
    (fun _ => (Int.add_zero _).symm)

/-- The loop over the reads is a service. -/
theorem serveReads_serving (results : Nat → ReadResult) (ops : List Nat) :
    ∀ (i : Nat) {x : ConnectionImpl}, Sound x → x.error = false →
      Serving x (serveReads results i ops x) := by
  induction ops with
  | nil =>
      intro i x h herror
      exact setReads_serving h herror []
  | cons op rest ih =>
      intro i x h herror
      rw [serveReads]
      have hpost : Serving x (if 0 < (results i).len then x.postAck (results i).len else x) := by
        split
        · exact postAck_serving h herror _
        · exact Serving.refl h
      have herror' := hpost.2.1.trans herror
      split
      · exact hpost.trans (ih (i + 1) hpost.1 herror')
      · exact hpost.trans (setReads_serving hpost.1 herror' _)

/-- The loop over the writes is a service. -/
theorem serveWrites_serving (results : Nat → WriteResult) (ops : List Nat) :
    ∀ (i : Nat) {x : ConnectionImpl}, Sound x → x.error = false →
      Serving x (serveWrites results i ops x) := by
  induction ops with
  | nil =>
      intro i x h herror
      exact setWrites_serving h herror []
  | cons op rest ih =>
      intro i x h herror
      rw [serveWrites]
      have hpost := postWrites_serving (results i).buffers h herror
      have herror' := hpost.2.1.trans herror
      split
      · exact hpost.trans (ih (i + 1) hpost.1 herror')
      · exact hpost.trans (setWrites_serving hpost.1 herror' _)

/-- After the error there is nothing left to serve. -/
theorem processReadOperationsFromLoop_serving (h : Sound x) (results : Results) :
    Serving x (x.processReadOperationsFromLoop results) := by
  rw [processReadOperationsFromLoop]
  split
  · exact Serving.refl h
  · cases herror : x.error with
    | false => exact serveReads_serving _ _ _ h herror
    | true =>
        have hreads := (h.idle herror).1
        have hsame : { x with readOperations := [] } = x := by rw [← hreads]
        rw [hreads, serveReads, hsame]
        exact Serving.refl h

/-- Processing the writes is a service, whatever the state. -/
theorem processWriteOperationsFromLoop_serving (h : Sound x) (results : Results) :
    Serving x (x.processWriteOperationsFromLoop results) := by
  rw [processWriteOperationsFromLoop]
  split
  · exact Serving.refl h
  · cases herror : x.error with
    | false => exact serveWrites_serving _ _ _ h herror
    | true =>
        have hwrites := (h.idle herror).2.1
        have hsame : { x with writeOperations := [] } = x := by rw [← hwrites]
        rw [hwrites, serveWrites, hsame]
        exact Serving.refl h

-- ── The error, and what comes after it ───────────────────────────────────────

/-- `tryCleanup` schedules the clean-up exactly when it is due. -/
theorem tryCleanup_eq (hqp : x.qp = true) (hdangling : x.dangling = false) :
    x.tryCleanup = { x with scheduled := x.scheduled +
      if x.error = true ∧ x.numWritesInFlight = 0 ∧ x.numAcksInFlight = 0 then 1 else 0 } := by
  rw [tryCleanup]
  by_cases herror : x.error = true
  · rw [if_pos herror]
    by_cases hquiet : x.numWritesInFlight = 0 ∧ x.numAcksInFlight = 0
    · rw [if_pos hquiet, if_pos ⟨herror, hquiet⟩]
    · rw [if_neg hquiet, if_neg (fun hcond => hquiet hcond.2), useQp_eq hqp hdangling]
      rfl
  · rw [if_neg herror, if_neg (fun hcond => herror hcond.1)]
    rfl

/-- What the first error leaves behind. -/
theorem setError_eq (h : Sound x) (herror : x.error = false) :
    x.setError = { x with
      error := true
      readOperations := []
      writeOperations := []
      socket := false
      scheduled := if x.numWritesInFlight = 0 ∧ x.numAcksInFlight = 0 then 1 else 0 } := by
  have hlive := h.live herror
  have hqp := h.qp.mpr hlive.2
  rw [setError, if_neg (fun hset => Bool.false_ne_true (herror ▸ hset)), handleErrorImpl]
  have htry : ∀ failed : ConnectionImpl, failed.qp = true → failed.dangling = false →
      failed.useQp.tryCleanup = { failed with scheduled := failed.scheduled +
        if failed.error = true ∧ failed.numWritesInFlight = 0 ∧ failed.numAcksInFlight = 0
        then 1 else 0 } := by
    intro failed hqp hdangling
    rw [useQp_eq hqp hdangling, tryCleanup_eq hqp hdangling]
  simp only [htry { x with error := true, readOperations := [], writeOperations := [] } hqp
    h.dangling]
  simp only [hlive.1, true_and, Nat.zero_add]

/-- The error clears the operations, and schedules the cleanup if nothing is in flight. -/
theorem setError_change (h : Sound x) :
    Sound x.setError ∧ x.setError.error = true ∧ Change x x.setError [] (fun _ => 0) := by
  cases herror : x.error with
  | true =>
      rw [setError, if_pos herror]
      exact ⟨h, herror, Change.refl x⟩
  | false =>
      have hlive := h.live herror
      rw [setError_eq h herror]
      refine ⟨⟨fun _ => ⟨rfl, rfl, rfl⟩, ?_, ?_, h.qp, h.dangling⟩, rfl,
        ⟨rfl, (List.append_nil _).symm, fun _ => rfl, fun kind => ?_, fun _ => rfl, rfl⟩⟩
      · simp only [true_and]
      · rw [hlive.2]
        exact Nat.zero_le _
      · cases kind <;> rfl

/-- Some requests less.  This is where the last one schedules the cleanup. -/
theorem completed_change (h : Sound x) (hcleanups : x.cleanups = 0) (hscheduled : x.scheduled = 0)
    {writes acks : Int} {done : Kind → Nat} (hwrites : writes + done .write = x.numWritesInFlight)
    (hacks : acks + done .ack = x.numAcksInFlight) :
    Sound { x with numWritesInFlight := writes, numAcksInFlight := acks }.tryCleanup
      ∧ Change x { x with numWritesInFlight := writes, numAcksInFlight := acks }.tryCleanup []
        done := by
  have htry := @tryCleanup_eq { x with numWritesInFlight := writes, numAcksInFlight := acks }
    (h.qp.mpr hcleanups) h.dangling
  rw [htry]
  refine ⟨⟨h.idle, ?_, ?_, h.qp, h.dangling⟩,
    ⟨rfl, (List.append_nil _).symm, fun _ => rfl, ?_, id, rfl⟩⟩
  · show x.scheduled + _ = _
    rw [hscheduled, Nat.zero_add]
  · show x.cleanups ≤ _
    rw [hcleanups]
    exact Nat.zero_le _
  · intro kind
    cases kind with
    | write => exact hwrites.trans (Int.add_zero _).symm
    | ack => exact hacks.trans (Int.add_zero _).symm

/-- A completed write takes one from its counter. -/
theorem onWriteCompleted_change (h : Sound x) (hcleanups : x.cleanups = 0)
    (hbusy : 0 < x.inFlight .write) :
    Sound x.onWriteCompleted
      ∧ Change x x.onWriteCompleted [] (fun kind => if .write = kind then 1 else 0) := by
  rw [onWriteCompleted, h.useQp_eq hcleanups]
  exact completed_change h hcleanups (h.busy hbusy) (Int.sub_add_cancel _ _) (Int.add_zero _)

/-- A completed acknowledgement takes one from its counter. -/
theorem onAckCompleted_change (h : Sound x) (hcleanups : x.cleanups = 0)
    (hbusy : 0 < x.inFlight .ack) :
    Sound x.onAckCompleted
      ∧ Change x x.onAckCompleted [] (fun kind => if .ack = kind then 1 else 0) := by
  rw [onAckCompleted, h.useQp_eq hcleanups]
  exact completed_change h hcleanups (h.busy hbusy) (Int.add_zero _) (Int.sub_add_cancel _ _)

/-- The completions that an event reports. -/
def reported (event : IbvEvent) (kind : Kind) : Nat :=
  if event.completes kind then 1 else 0

/-- A failed completion first raises the error, with its own request still counted. -/
theorem onError_change (h : Sound x) (hcleanups : x.cleanups = 0) (status : WcStatus) (wrId : Nat)
    (hbusy : ∀ kind : Kind, wrId = kind.wrId → 0 < x.inFlight kind) :
    Sound (x.onError wrId)
      ∧ Change x (x.onError wrId) [] (reported (.onError status wrId)) := by
  obtain ⟨hsound, -, hchange⟩ := setError_change h
  have hcleanups' := hchange.cleanups.trans hcleanups
  have hbusy' : ∀ kind : Kind, wrId = kind.wrId → 0 < x.setError.inFlight kind := by
    intro kind hid
    have hsame : x.setError.inFlight kind = x.inFlight kind := by
      simpa using hchange.inFlight kind
    rw [hsame]
    exact hbusy kind hid
  rw [onError]
  by_cases hwrite : wrId = kWriteRequestId
  · rw [if_pos hwrite]
    obtain ⟨hsound', hchange'⟩ := onWriteCompleted_change hsound hcleanups' (hbusy' .write hwrite)
    refine ⟨hsound', ?_⟩
    have hdone : reported (.onError status wrId)
        = fun kind => 0 + if Kind.write = kind then 1 else 0 := by
      funext kind
      rw [hwrite]
      cases kind <;> rfl
    rw [hdone]
    exact hchange.trans hchange'
  rw [if_neg hwrite]
  by_cases hack : wrId = kAckRequestId
  · rw [if_pos hack]
    obtain ⟨hsound', hchange'⟩ := onAckCompleted_change hsound hcleanups' (hbusy' .ack hack)
    refine ⟨hsound', ?_⟩
    have hdone : reported (.onError status wrId)
        = fun kind => 0 + if Kind.ack = kind then 1 else 0 := by
      funext kind
      rw [hack]
      cases kind <;> rfl
    rw [hdone]
    exact hchange.trans hchange'
  · rw [if_neg hack]
    refine ⟨hsound, ?_⟩
    have hdone : reported (.onError status wrId) = fun _ => 0 := by
      funext kind
      rw [reported, IbvEvent.completes, if_neg]
      intro hid
      cases kind with
      | write => exact hwrite (beq_iff_eq.mp hid)
      | ack => exact hack (beq_iff_eq.mp hid)
    rw [hdone]
    exact hchange

/-- An event of the reactor takes from the counters exactly what it completes. -/
theorem onEvent_change (h : Sound x) (hcleanups : x.cleanups = 0) (results : Results)
    (event : IbvEvent) (hbusy : ∀ kind, event.completes kind = true → 0 < x.inFlight kind) :
    Sound (x.onEvent results event)
      ∧ ∃ cs, Change x (x.onEvent results event) cs (reported event) := by
  cases event with
  | onRemoteProducedData length =>
      rw [onEvent, onRemoteProducedData, h.useQp_eq hcleanups]
      obtain ⟨hsound, -, cs, hchange⟩ := processReadOperationsFromLoop_serving h results
      exact ⟨hsound, cs, hchange⟩
  | onRemoteConsumedData length =>
      rw [onEvent, onRemoteConsumedData, h.useQp_eq hcleanups]
      obtain ⟨hsound, -, cs, hchange⟩ := processWriteOperationsFromLoop_serving h results
      exact ⟨hsound, cs, hchange⟩
  | onWriteCompleted =>
      obtain ⟨hsound, hchange⟩ := onWriteCompleted_change h hcleanups (hbusy .write rfl)
      refine ⟨hsound, [], ?_⟩
      have hdone : reported .onWriteCompleted = fun kind => if Kind.write = kind then 1 else 0 := by
        funext kind
        cases kind <;> rfl
      rw [hdone]
      exact hchange
  | onAckCompleted =>
      obtain ⟨hsound, hchange⟩ := onAckCompleted_change h hcleanups (hbusy .ack rfl)
      refine ⟨hsound, [], ?_⟩
      have hdone : reported .onAckCompleted = fun kind => if Kind.ack = kind then 1 else 0 := by
        funext kind
        cases kind <;> rfl
      rw [hdone]
      exact hchange
  | onError status wrId =>
      obtain ⟨hsound, hchange⟩ := onError_change h hcleanups status wrId
        (fun kind hid => hbusy kind (beq_iff_eq.mpr hid))
      exact ⟨hsound, [], hchange⟩

-- ── The tasks ────────────────────────────────────────────────────────────────

/-- The fields of the handshake bear on nothing that is counted. -/
theorem handshake_serving (h : Sound x) (herror : x.error = false) (state : ConnectionState)
    (peerInboxKey : UInt32) (peerInboxPtr : Nat) :
    Serving x { x with state, peerInboxKey, peerInboxPtr } :=
  serving_of_live h herror rfl rfl ⟨rfl, rfl⟩ ⟨rfl, rfl⟩ (List.append_nil _).symm
    (fun kind => by cases kind <;> exact (Int.add_zero _).symm)

/-- A service is a change that completes nothing. -/
theorem Serving.change (h : Serving x x') : Sound x' ∧ ∃ cs, Change x x' cs (fun _ => 0) :=
  ⟨h.1, h.2.2⟩

/-- What every task but the cleanup does. -/
theorem step_change {task : Task} (h : Sound x) (henabled : x.enabled task)
    (htask : task ≠ .cleanup) (hstep : x.step task = some x') :
    Sound x' ∧ ∃ cs, Change x x' cs (fun _ => 0) := by
  have hset : Sound x.setError ∧ ∃ cs, Change x x.setError cs (fun _ => 0) := by
    obtain ⟨hsound, -, hchange⟩ := setError_change h
    exact ⟨hsound, [], hchange⟩
  cases task with
  | cleanup => exact absurd rfl htask
  | close =>
      cases hstep
      exact hset
  | read op results =>
      cases hstep
      rw [readFromLoop]
      split
      · exact (Serving.refl h).change
      · rename_i herror
        have hqueued := setReads_serving h (Bool.eq_false_iff.mpr herror) (x.readOperations ++ [op])
        exact (hqueued.trans (processReadOperationsFromLoop_serving hqueued.1 results)).change
  | write op results =>
      cases hstep
      rw [writeFromLoop]
      split
      · exact (Serving.refl h).change
      · rename_i herror
        have hqueued :=
          setWrites_serving h (Bool.eq_false_iff.mpr herror) (x.writeOperations ++ [op])
        exact (hqueued.trans (processWriteOperationsFromLoop_serving hqueued.1 results)).change
  | socket event results =>
      -- the socket is closed by the error
      have herror : x.error = false := by
        cases herror : x.error with
        | false => rfl
        | true => exact absurd ((h.idle herror).2.2.symm.trans henabled) Bool.false_ne_true
      have huse := h.useQp_eq (h.live herror).2
      cases event with
      | EPOLLERR =>
          cases hstep
          exact hset
      | EPOLLHUP =>
          cases hstep
          exact hset
      | EPOLLOUT written =>
          rw [step, handleEventsFromLoop, handleEventOutFromLoop] at hstep
          split at hstep
          · split at hstep
            · cases hstep
              rw [huse]
              exact (handshake_serving h herror _ _ _).change
            · cases hstep
              exact hset
          · exact nomatch hstep
      | EPOLLIN exchange =>
          rw [step, handleEventsFromLoop, handleEventInFromLoop.eq_def] at hstep
          split at hstep
          · cases exchange with
            | none =>
                cases hstep
                exact hset
            | some ex =>
                cases hstep
                rw [huse]
                have hready :=
                  handshake_serving h herror .ESTABLISHED ex.memoryRegionKey ex.memoryRegionPtr
                have hwrites := processWriteOperationsFromLoop_serving hready.1 results
                have hreads := processReadOperationsFromLoop_serving hwrites.1 results
                exact (hready.trans (hwrites.trans hreads)).change
          · cases hstep
            exact hset
          · exact nomatch hstep

/-- The clean-up of a connection that scheduled it keeps it sound. -/
theorem cleanup_sound (h : Sound x) (henabled : x.enabled .cleanup) : Sound x.cleanup := by
  have hscheduled := h.scheduled
  have hlt : x.cleanups < x.scheduled := henabled
  have hcleanups : x.cleanups = 0 := by
    split at hscheduled <;> omega
  rw [cleanup, h.useQp_eq hcleanups]
  refine ⟨h.idle, h.scheduled, ?_, ?_, h.dangling⟩
  · exact hlt
  · exact ⟨fun hqp => absurd hqp Bool.false_ne_true, fun hzero => absurd hzero (Nat.succ_ne_zero _)⟩

end ConnectionImpl

-- ── A batch of completions ───────────────────────────────────────────────────

/-- Every completion of the device is told as an event, which reports the request it is for. -/
theorem Wc.event_completes {wc : Wc} (hop : Device.opcodeMatches wc = true) :
    ∃ event, wc.event = some event
      ∧ ∀ kind : Kind, event.completes kind = (wc.wrId == kind.wrId) := by
  rw [Device.opcodeMatches] at hop
  rw [Wc.event]
  by_cases hstatus : wc.status ≠ .WC_SUCCESS
  · rw [if_pos hstatus]
    exact ⟨_, rfl, fun _ => rfl⟩
  rw [if_neg hstatus] at hop ⊢
  by_cases hwrite : wc.wrId = kWriteRequestId
  · rw [if_pos hwrite, decide_eq_true_iff] at hop
    rw [hop, hwrite]
    exact ⟨_, rfl, fun kind => by cases kind <;> rfl⟩
  rw [if_neg hwrite] at hop
  by_cases hack : wc.wrId = kAckRequestId
  · rw [if_pos hack, decide_eq_true_iff] at hop
    rw [hop, hack]
    exact ⟨_, rfl, fun kind => by cases kind <;> rfl⟩
  rw [if_neg hack, decide_eq_true_iff] at hop
  have hnone : ∀ kind : Kind, (wc.wrId == kind.wrId) = false := by
    intro kind
    cases kind with
    | write => exact beq_false_of_ne hwrite
    | ack => exact beq_false_of_ne hack
  rcases hop with hop | hop
  all_goals
    rw [hop]
    exact ⟨_, rfl, fun kind => (hnone kind).symm⟩

namespace System

/-- What the handlers do with a batch, seen from the connection. -/
structure Dispatched (batch : List (Wc × Results × List Call)) (x x' : ConnectionImpl)
    (batch' : List (Wc × List Call)) : Prop where
  sound : x'.Sound
  completions : batch'.map Prod.fst = batch.map Prod.fst
  qpNum : x'.qpNum = x.qpNum
  cleanups : x'.cleanups = x.cleanups
  silent : x.error = true → x'.error = true ∧ x'.posts = x.posts
  inFlight : ∀ kind, x'.inFlight kind + (batch.map Prod.fst).countP (Wc.completes kind x.qpNum)
    = x.inFlight kind + (batch'.flatMap Prod.snd).countP (Call.requests kind x.qpNum)

/-- The other connections make no requests on this queue pair. -/
theorem countP_others {q : UInt32} {cs : List Call} (h : ∀ call ∈ cs, call.qpNum ≠ q)
    (kind : Kind) : cs.countP (Call.requests kind q) = 0 := by
  refine List.countP_eq_zero.mpr (fun call hmem hrequests => h call hmem ?_)
  cases call with
  | registerQp | unregisterQp => exact absurd hrequests Bool.false_ne_true
  | postWrite qpNum info => exact beq_iff_eq.mp (Bool.and_eq_true_iff.mp hrequests).2
  | postAck qpNum info => exact beq_iff_eq.mp (Bool.and_eq_true_iff.mp hrequests).2

/-- The connection's share of a batch: its counters lose what completes of it. -/
theorem dispatch_spec (batch : List (Wc × Results × List Call)) :
    ∀ {x : ConnectionImpl}, x.Sound →
      (∀ wc ∈ batch.map Prod.fst, Device.opcodeMatches wc = true) →
      (∀ entry ∈ batch, ∀ call ∈ entry.2.2, call.qpNum ≠ x.qpNum) →
      (0 < x.cleanups → ∀ entry ∈ batch, entry.1.qpNum ≠ x.qpNum) →
      (∀ kind, ((batch.map Prod.fst).countP (Wc.completes kind x.qpNum) : Int) ≤ x.inFlight kind) →
      Dispatched batch x (dispatch batch x).1 (dispatch batch x).2 := by
  induction batch with
  | nil =>
      intro x hsound _ _ _ _
      exact ⟨hsound, rfl, rfl, rfl, fun herror => ⟨herror, rfl⟩, fun _ => rfl⟩
  | cons entry rest ih =>
      obtain ⟨wc, results, others⟩ := entry
      intro x hsound hops hothers hcleanups hbusy
      have hops' := fun wc' hmem => hops wc' (List.mem_cons_of_mem _ hmem)
      rw [dispatch]
      by_cases hqp : wc.qpNum = x.qpNum
      · rw [if_pos hqp]
        have hlive : x.cleanups = 0 := by
          rcases Nat.eq_zero_or_pos x.cleanups with hzero | hpos
          · exact hzero
          · exact absurd hqp (hcleanups hpos _ (List.mem_cons_self ..))
        obtain ⟨event, hevent, hcompletes⟩ := Wc.event_completes (hops wc (List.mem_cons_self ..))
        have hreports : ∀ kind, ConnectionImpl.reported event kind
            = if wc.completes kind x.qpNum then 1 else 0 := by
          intro kind
          rw [ConnectionImpl.reported, hcompletes, Wc.completes, hqp, beq_self_eq_true,
            Bool.and_true]
        simp only [List.map_cons, List.countP_cons] at hbusy
        -- the completion that is reported next is still counted
        have hcounted : ∀ kind, event.completes kind = true → 0 < x.inFlight kind := by
          intro kind hdone
          have hone := hreports kind
          rw [ConnectionImpl.reported, if_pos hdone] at hone
          have hle := hbusy kind
          rw [← hone] at hle
          push_cast at hle
          omega
        obtain ⟨hsound', cs, hchange⟩ :=
          ConnectionImpl.onEvent_change hsound hlive results event hcounted
        rw [hevent]
        simp only [Option.map_some, Option.getD_some]
        have hcalls : (x.onEvent results event).posts.drop x.posts.length = cs := by
          rw [hchange.posts, List.drop_left]
        have hrest := @ih (x.onEvent results event) hsound' hops'
          (by
            intro entry' hmem
            rw [hchange.qpNum]
            exact hothers entry' (List.mem_cons_of_mem _ hmem))
          (by
            rw [hchange.cleanups, hlive]
            exact fun hpos => absurd hpos (Nat.lt_irrefl 0))
          (by
            intro kind
            have hle := hbusy kind
            have hmoved := hchange.inFlight kind
            rw [hreports] at hmoved
            rw [hchange.qpNum]
            push_cast at hle hmoved ⊢
            omega)
        refine ⟨hrest.sound, ?_, hrest.qpNum.trans hchange.qpNum,
          hrest.cleanups.trans hchange.cleanups, ?_, ?_⟩
        · rw [List.map_cons, List.map_cons, hrest.completions]
        · intro herror
          have hafter := hrest.silent (hchange.error herror)
          refine ⟨hafter.1, ?_⟩
          rw [hafter.2, hchange.posts, hchange.silent herror, List.append_nil]
        · intro kind
          have hmoved := hchange.inFlight kind
          have hmoved' := hrest.inFlight kind
          rw [hreports] at hmoved
          rw [hchange.qpNum] at hmoved'
          rw [List.map_cons, List.countP_cons, List.flatMap_cons, List.countP_append, hcalls]
          push_cast at hmoved ⊢
          omega
      · rw [if_neg hqp]
        have hnone : ∀ kind, wc.completes kind x.qpNum = false := by
          intro kind
          rw [Wc.completes, beq_false_of_ne hqp, Bool.and_false]
        have hcount : ∀ kind,
            (((wc, results, others) :: rest).map Prod.fst).countP (Wc.completes kind x.qpNum)
              = (rest.map Prod.fst).countP (Wc.completes kind x.qpNum) := by
          intro kind
          show List.countP _ (wc :: rest.map Prod.fst) = _
          rw [List.countP_cons, hnone]
          rfl
        have hrest := ih hsound hops'
          (fun entry' hmem => hothers entry' (List.mem_cons_of_mem _ hmem))
          (fun hpos entry' hmem => hcleanups hpos entry' (List.mem_cons_of_mem _ hmem))
          (fun kind => hcount kind ▸ hbusy kind)
        refine ⟨hrest.sound, ?_, hrest.qpNum, hrest.cleanups, hrest.silent, ?_⟩
        · rw [List.map_cons, List.map_cons, hrest.completions]
        · intro kind
          rw [hcount, List.flatMap_cons, List.countP_append,
            countP_others (hothers _ (List.mem_cons_self ..)) kind, Nat.zero_add]
          exact hrest.inFlight kind

-- ── Every step ───────────────────────────────────────────────────────────────

/-- The counters of the connection are what the reactor and the device have of it. -/
structure Inv (s : System) : Prop where
  sound : s.connection.Sound
  counted : ∀ kind, s.connection.inFlight kind = s.reactor.inFlight kind s.connection.qpNum

/-- What is never undone: the error, and that the connection makes no more requests. -/
structure Later (s s' : System) : Prop where
  error : s.connection.error = true → s'.connection.error = true
  posts : s.connection.error = true → s'.connection.posts = s.connection.posts

/-- A system is no earlier than itself. -/
theorem Later.refl (s : System) : Later s s :=
  ⟨id, fun _ => rfl⟩

/-- The order of the systems of a run is transitive. -/
theorem Later.trans {s s' s'' : System} (h : Later s s') (h' : Later s' s'') : Later s s'' :=
  ⟨fun herror => h'.error (h.error herror),
    fun herror => (h'.posts (h.error herror)).trans (h.posts herror)⟩

/-- A task of the connection keeps the counters equal to what is in flight. -/
theorem inv_task {s s' : System} {task : ConnectionImpl.Task} (h : Inv s)
    (henabled : s.enabled (.task task)) (hstep : s.step (.task task) = some s') :
    Inv s' ∧ Later s s' := by
  rw [step] at hstep
  obtain ⟨connection, htask, hs'⟩ := Option.map_eq_some_iff.mp hstep
  subst hs'
  by_cases hcleanup : task = .cleanup
  · subst hcleanup
    cases htask
    refine ⟨⟨ConnectionImpl.cleanup_sound h.sound henabled, fun kind => ?_⟩, id, fun _ => rfl⟩
    have hcounted := h.counted kind
    show _ = (((s.reactor.calls [.unregisterQp s.connection.qpNum]).inFlight kind
      s.connection.qpNum : Nat) : Int)
    rw [Reactor.calls_inFlight]
    cases kind <;> exact hcounted
  · obtain ⟨hsound, cs, hchange⟩ :=
      ConnectionImpl.step_change h.sound henabled hcleanup htask
    have hcalls : callsOf s.connection connection task = cs := by
      have hdrop : connection.posts.drop s.connection.posts.length = cs := by
        rw [hchange.posts, List.drop_left]
      cases task with
      | cleanup => exact absurd rfl hcleanup
      | read | write | close | socket => exact hdrop
    refine ⟨⟨hsound, fun kind => ?_⟩, hchange.error, fun herror => ?_⟩
    · have hmoved : connection.inFlight kind + 0 = _ := hchange.inFlight kind
      rw [h.counted kind] at hmoved
      rw [hcalls, Reactor.calls_inFlight, hchange.qpNum]
      push_cast
      omega
    · show connection.posts = s.connection.posts
      rw [hchange.posts, hchange.silent herror, List.append_nil]

/-- A poll keeps the counters equal to what is in flight. -/
theorem inv_poll {s s' : System} {batch : List (Wc × Results × List Call)} (h : Inv s)
    (henabled : s.enabled (.poll batch)) (hstep : s.step (.poll batch) = some s') :
    Inv s' ∧ Later s s' := by
  obtain ⟨-, hothers, hcleanups⟩ := henabled
  rw [step] at hstep
  obtain ⟨device, hpoll, hstep⟩ := Option.bind_eq_some_iff.mp hstep
  have hdispatched := dispatch_spec batch h.sound (Device.pollCq_polled _ hpoll).opcodes hothers
    hcleanups (by
      intro kind
      have hsends := Reactor.pollCq_sendsOf kind s.connection.qpNum _ hpoll
      rw [h.counted kind, Reactor.inFlight, ← hsends]
      push_cast
      omega)
  generalize dispatch batch s.connection = dispatched at hstep hdispatched
  obtain ⟨connection, batch'⟩ := dispatched
  simp only at hstep hdispatched
  cases hreactor : { s.reactor with device := device }.pollOnce batch' with
  | throws reactor =>
      rw [hreactor] at hstep
      exact nomatch hstep
  | returns reactor =>
      rw [hreactor] at hstep
      cases hstep
      rw [← hdispatched.completions] at hpoll
      refine ⟨⟨hdispatched.sound, fun kind => ?_⟩, fun herror => (hdispatched.silent herror).1,
        fun herror => (hdispatched.silent herror).2⟩
      have hmoved := hdispatched.inFlight kind
      have hreactor' := Reactor.poll_inFlight hpoll hreactor kind s.connection.qpNum
      rw [h.counted kind, ← hdispatched.completions] at hmoved
      show connection.inFlight kind = reactor.inFlight kind connection.qpNum
      rw [hdispatched.qpNum]
      omega

/-- A step keeps the counters equal to what is in flight. -/
theorem inv_step {s s' : System} {st : Step} (h : Inv s) (henabled : s.enabled st)
    (hstep : s.step st = some s') : Inv s' ∧ Later s s' := by
  cases st with
  | task task => exact inv_task h henabled hstep
  | poll batch => exact inv_poll h henabled hstep
  | others call =>
      cases hstep
      refine ⟨⟨h.sound, fun kind => ?_⟩, id, fun _ => rfl⟩
      have hnone := @countP_others s.connection.qpNum [call] (by
        intro call' hmem
        rw [List.mem_singleton.mp hmem]
        exact henabled) kind
      rw [List.countP_singleton] at hnone
      show _ = (((s.reactor.call call).inFlight kind s.connection.qpNum : Nat) : Int)
      rw [Reactor.call_inFlight, hnone]
      exact h.counted kind

/-- In every reachable system the counters equal what is in flight. -/
theorem inv_of_reachable {s : System} (h : Reachable s) : Inv s := by
  induction h with
  | @init connection reactor polled hconnection hreactor hfresh =>
      obtain ⟨hsends, hwrites, hacks⟩ := hfresh
      refine ⟨?_, fun kind => ?_⟩
      · rw [hconnection]
        exact ⟨nofun, rfl, Nat.le_refl _, ⟨fun _ => rfl, fun _ => rfl⟩, rfl⟩
      · have hnothing : reactor.inFlight kind connection.qpNum = 0 := by
          have hdevice : reactor.device.sendsOf kind connection.qpNum = 0 :=
            List.countP_eq_zero.mpr (fun wr hmem hof =>
              hsends wr hmem (beq_iff_eq.mp (Bool.and_eq_true_iff.mp hof).2))
          have hpending : reactor.pendingOf kind connection.qpNum = 0 := by
            cases kind with
            | write =>
                exact List.countP_eq_zero.mpr (fun p hmem hof => hwrites p hmem (beq_iff_eq.mp hof))
            | ack =>
                exact List.countP_eq_zero.mpr (fun p hmem hof => hacks p hmem (beq_iff_eq.mp hof))
          rw [Reactor.inFlight, hdevice, hpending]
        rw [Reactor.call_inFlight, hnothing, hconnection]
        cases kind <;> rfl
  | step _ st henabled hstep ih => exact (inv_step ih henabled hstep).1

-- ── Teardown ─────────────────────────────────────────────────────────────────

/-- The runs from a state on. -/
inductive Run (s : System) : System → Prop where
  | refl : Run s s
  | step {s' s'' : System} (h : Run s s') (st : Step) (henabled : s'.enabled st)
      (hstep : s'.step st = some s'') : Run s s''

/-- A run from a system of the invariant keeps it, and only goes forward. -/
theorem later_of_run {s s' : System} (h : Inv s) (hrun : Run s s') : Inv s' ∧ Later s s' := by
  induction hrun with
  | refl => exact ⟨h, Later.refl s⟩
  | step _ st henabled hstep ih =>
      obtain ⟨hinv, hlater⟩ := inv_step ih.1 henabled hstep
      exact ⟨hinv, ih.2.trans hlater⟩

/-- What holds of a connection and the reactor between any two steps: each counter is the number
    of requests whose completion was not reported; the cleanup has been scheduled once if there
    is an error and both counters are zero, and not at all otherwise, and it never runs more often
    than it was scheduled; the queue pair was not used after it; and from an error on the
    connection makes no request. -/
structure TornDown (s : System) : Prop where
  writes : s.connection.numWritesInFlight = s.reactor.inFlight .write s.connection.qpNum
  acks : s.connection.numAcksInFlight = s.reactor.inFlight .ack s.connection.qpNum
  scheduled : s.connection.scheduled =
    if s.connection.error = true ∧ s.connection.numWritesInFlight = 0
      ∧ s.connection.numAcksInFlight = 0 then 1 else 0
  cleanups : s.connection.cleanups ≤ s.connection.scheduled
  dangling : s.connection.dangling = false
  silent : s.connection.error = true → ∀ s', Run s s' →
    s'.connection.posts = s.connection.posts

/-- A connection in error is cleaned up once, when nothing is in flight, and touches no queue pair
    afterwards. -/
theorem connection_teardown {s : System} (h : Reachable s) : TornDown s := by
  have hinv := inv_of_reachable h
  exact
    { writes := hinv.counted .write
      acks := hinv.counted .ack
      scheduled := hinv.sound.scheduled
      cleanups := hinv.sound.cleanups
      dangling := hinv.sound.dangling
      silent := fun herror s' hrun => (later_of_run hinv hrun).2.posts herror }

-- ── A connection that is closed while it writes ──────────────────────────────

/-- One buffer for each write operation. -/
def oneBuffer : Results where
  reads := fun _ => ⟨0, true⟩
  writes := fun _ => ⟨[(0, 8)], true⟩

/-- The connection of queue pair 7 was established, wrote once and was closed. -/
def closed : ConnectionImpl where
  qpNum := 7
  state := .ESTABLISHED
  error := true
  socket := false
  peerInboxHead := 8
  numWritesInFlight := 1
  posts := [.postWrite 7 ⟨0, 8, 0, 0, 0⟩]

/-- An established connection that was closed, on any reactor that knows nothing of it. -/
theorem reachable_closed {reactor : Reactor} {polled : List Wc}
    (hreactor : Reactor.Reachable reactor polled)
    (hfresh : (∀ wr ∈ reactor.device.sends, wr.qpNum ≠ 7)
      ∧ (∀ p ∈ reactor.pendingQpWrites, p.1 ≠ 7) ∧ ∀ p ∈ reactor.pendingQpAcks, p.1 ≠ 7) :
    Reachable { connection := closed
                reactor := (reactor.call (.registerQp 7)).postWrite 7 ⟨0, 8, 0, 0, 0⟩ } := by
  have h₀ := Reachable.init { qpNum := 7 } rfl hreactor hfresh
  have h₁ := h₀.step (.task (.socket (.EPOLLOUT true) oneBuffer)) rfl rfl
  have h₂ := h₁.step (.task (.socket (.EPOLLIN (some ⟨0, 0⟩)) oneBuffer)) rfl rfl
  have h₃ := h₂.step (.task (.write 0 oneBuffer)) trivial rfl
  exact h₃.step (.task .close) trivial rfl

/-- A poll of one completion can run while the connection is there. -/
theorem enabled_poll_one {s : System} (hcleanups : s.connection.cleanups = 0) (wc : Wc) :
    s.enabled (.poll [(wc, oneBuffer, [])]) := by
  refine ⟨Nat.succ_le_succ (Nat.zero_le _), ?_, ?_⟩
  · intro entry hmem call hcall
    rw [List.mem_singleton.mp hmem] at hcall
    exact nomatch hcall
  · intro hpos
    exact absurd hcleanups (Nat.ne_of_gt hpos)

/-- The write is flushed, and the connection cleaned up. -/
theorem connection_teardown_closed :
    ∃ s : System, s.connection.error = true ∧ s.connection.scheduled = 1
      ∧ s.connection.cleanups = 1 ∧ TornDown s := by
  have hclosed := reachable_closed Reactor.Reachable.make (by
    rw [Reactor.make_eq]
    exact ⟨nofun, nofun, nofun⟩)
  rw [Reactor.make_eq] at hclosed
  have hflushed := hclosed.step (.poll [(Reactor.writeWc (.error 5), oneBuffer, [])])
    (enabled_poll_one rfl _) rfl
  have hcleaned := hflushed.step (.task .cleanup) (Nat.zero_lt_one) rfl
  exact ⟨_, rfl, rfl, rfl, connection_teardown hcleaned⟩

/-- A write of another queue pair. -/
def otherWrite : SendWr := .rdmaWriteWithImm kWriteRequestId 8 ⟨0, 8, 0, 0, 0⟩ 8

/-- Queue pair 8 has made this many writes. -/
def othersWrote (n : Nat) : Reactor where
  queuePairEventHandler := [8]
  numAvailableWrites := kNumPendingWriteReqs - n
  device :=
    { posted := List.replicate n otherWrite
      sends := List.replicate n otherWrite
      recvsPosted := kNumPendingRecvReqs }

/-- The writes of another queue pair, as many as there are credits for. -/
theorem reachable_othersWrote (n : Nat) (hn : n ≤ kNumPendingWriteReqs) :
    Reactor.Reachable (othersWrote n) [] := by
  induction n with
  | zero =>
      have h := Reactor.Reachable.make.call (.registerQp 8)
      rw [Reactor.make_eq] at h
      exact h
  | succ n ih =>
      have h := (ih (Nat.le_of_succ_le hn)).call (.postWrite 8 ⟨0, 8, 0, 0, 0⟩)
      have havail : 0 < (othersWrote n).numAvailableWrites := Nat.sub_pos_of_lt hn
      rw [Reactor.call, Reactor.postWrite, if_pos havail] at h
      have hsame : othersWrote (n + 1) =
          { othersWrote n with
            device := (othersWrote n).device.postSend otherWrite
            numAvailableWrites := (othersWrote n).numAvailableWrites - 1 } := by
        simp only [othersWrote, Device.postSend, List.replicate_succ', Nat.sub_succ]
        rfl
      rw [hsame]
      exact h

/-- A write that the reactor holds back when the connection is closed is handed to the device
    later, once another write completes. -/
theorem held_back_write_posted :
    ¬ ∀ (s s' : System) (st : Step), Reachable s → s.connection.error = true → s.enabled st →
      s.step st = some s' →
      s'.reactor.device.posted.countP (fun wr => wr.qpNum == s.connection.qpNum)
        = s.reactor.device.posted.countP (fun wr => wr.qpNum == s.connection.qpNum) := by
  intro hall
  have hreach := reachable_closed (reachable_othersWrote kNumPendingWriteReqs (Nat.le_refl _))
    ⟨fun wr hmem => by
      rw [List.eq_of_mem_replicate hmem]
      exact nofun, nofun, nofun⟩
  let wc : Wc := ⟨kWriteRequestId, 8, .WC_SUCCESS, .WC_RDMA_WRITE, false, 0⟩
  have hsame := hall _ _ (.poll [(wc, oneBuffer, [])]) hreach rfl
    (enabled_poll_one rfl _) rfl
  have hposted : ∀ (before after : List SendWr) (wr : SendWr), after = before ++ [wr] →
      wr.qpNum = 7 → after.countP (fun wr => wr.qpNum == 7)
        ≠ before.countP (fun wr => wr.qpNum == 7) := by
    intro before after wr hafter hqp
    rw [hafter, List.countP_append, List.countP_singleton, hqp]
    exact Nat.succ_ne_self _
  exact hposted _ _ (.rdmaWriteWithImm kWriteRequestId 7 ⟨0, 8, 0, 0, 0⟩ 8) rfl rfl hsame

end System

end TpIbv
