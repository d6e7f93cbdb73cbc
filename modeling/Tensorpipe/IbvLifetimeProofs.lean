import Mathlib.Tactic.Common
import Tensorpipe.IbvConnectionProofs

/-! # The InfiniBand connection — what it acquires, and what its error gives back

    A connection is initialised step by step: a socket, the memory of its two buffers, a queue
    pair, its registration with the reactor, and that of the socket with the loop.  Any step of
    the socket may fail, and then the initialisation stops with an error.  There is one error
    handler, and one cleanup, for whatever was acquired.

    The idea of the proofs: once the queue pair was created the connection is a run of the
    system of connection and reactor (`Phase.created`), which never uses it after the cleanup.
    The error handler uses the queue pair in any case; so an error from within the
    initialisation, when there is none, is one that nothing later makes good
    (`Goes.dangling`). -/

namespace TpIbv

open TpStateMachine

-- ── The connection, from its first task on ───────────────────────────────────

/-- Something was given back that was not there. -/
inductive Misuse where
  | unregisterDescriptor
  | unregisterQp
deriving DecidableEq, Repr

/-- A connection and its reactor, with what the connection has registered.  `socket` and `qp`
    of the connection tell whether `socket_` and `qp_` are set; `created` whether `qp_` ever
    was, and `dangling` whether `qp_` was used while it was not. -/
structure Lifetime where
  connection : ConnectionImpl
  reactor : Reactor
  initialized : Bool := false
  created : Bool := false
  enrolled : Bool := false
  buffers : Bool := false
  qpRegistered : Bool := false
  descriptor : Bool := false
  misuses : List Misuse := []
deriving DecidableEq, Repr

/-- Which of the calls of the initialisation that concern the socket succeed. -/
structure SocketCalls where
  createForFamily : Bool
  reuseAddr : Bool
  connect : Bool
  block : Bool
deriving DecidableEq, Repr

/-- Those of the calls that are made succeed: a connection that was accepted has a socket. -/
def SocketCalls.Succeed (accepted : Bool) (calls : SocketCalls) : Prop :=
  (accepted = false →
    calls.createForFamily = true ∧ calls.reuseAddr = true ∧ calls.connect = true)
    ∧ calls.block = true

namespace Lifetime

/-- A connection that was accepted has a socket, and one that is to connect has none. -/
def make (accepted : Bool) (reactor : Reactor) : Lifetime where
  connection := { qpNum := 0, state := .INITIALIZING, socket := accepted, qp := false }
  reactor := reactor

/-- Replaces what the teardown knows of the connection. -/
def withConnection (l : Lifetime) (connection : ConnectionImpl) : Lifetime := { l with connection }

/-- Takes a descriptor out of the loop, which must be there. -/
def unregisterDescriptor (l : Lifetime) : Lifetime :=
  if l.descriptor then { l with descriptor := false }
  else { l with misuses := l.misuses ++ [.unregisterDescriptor] }

/-- The part of `handleErrorImpl` that concerns the socket. -/
def resetSocket (l : Lifetime) : Lifetime :=
  if l.connection.socket then
    let l := if l.connection.state ≠ .INITIALIZING then l.unregisterDescriptor else l
    l.withConnection { l.connection with socket := false }
  else l

/-- What the first error does, with the descriptor and the context. -/
def handleErrorImpl (l : Lifetime) : Lifetime :=
  let x := { l.connection with readOperations := [], writeOperations := [] }
  -- the queue pair is set to an error state
  let x := x.useQp.tryCleanup
  { (l.withConnection x).resetSocket with enrolled := false }

/-- Don't overwrite an error that's already set. -/
def setError (l : Lifetime) : Lifetime :=
  if l.connection.error then l
  else (l.withConnection { l.connection with error := true }).handleErrorImpl

/-- The deferred clean-up: the queue pair, the two buffers and their registrations. -/
def cleanup (l : Lifetime) : Lifetime :=
  let l :=
    if l.qpRegistered then { l with qpRegistered := false }
    else { l with misuses := l.misuses ++ [.unregisterQp] }
  { l with connection := l.connection.cleanup, buffers := false }

-- ── The initialisation ───────────────────────────────────────────────────────

/-- The first part of `initImplFromLoop`, in which each failure sets the error and returns. -/
def initSocket (calls : SocketCalls) (l : Lifetime) : Except Lifetime Lifetime :=
  let opened : Except Lifetime Lifetime :=
    if l.connection.socket then .ok l
    else if calls.createForFamily = false then .error l.setError
    else
      let l := l.withConnection { l.connection with socket := true }
      if calls.reuseAddr = false then .error l.setError
      else if calls.connect = false then .error l.setError
      else .ok l
  opened.bind (fun l => if calls.block = false then .error l.setError else .ok l)

/-- The second part, in which each failure is an exception: the buffers, the queue pair, and
    the two registrations. -/
def initQueuePair (qpNum outboxLkey : UInt32) (l : Lifetime) : Lifetime :=
  { l with
    buffers := true
    created := true
    connection := { l.connection with qpNum, outboxLkey, qp := true, state := .SEND_ADDR }
    qpRegistered := true
    reactor := l.reactor.call (.registerQp qpNum)
    descriptor := true }

/-- `initImplFromLoop`: enrols, then the socket, then the queue pair. -/
def initImplFromLoop (calls : SocketCalls) (qpNum outboxLkey : UInt32) (l : Lifetime) :
    Lifetime :=
  match { l with enrolled := true }.initSocket calls with
  | .error l => l
  | .ok l => l.initQueuePair qpNum outboxLkey

/-- `closed` is whether the context was. -/
def initFromLoop (closed : Bool) (calls : SocketCalls) (qpNum outboxLkey : UInt32)
    (l : Lifetime) : Lifetime :=
  let l := { l with initialized := true }
  -- the handler is not called, since it would find itself in a weird state
  if closed then l.withConnection { l.connection with error := true }
  else l.initImplFromLoop calls qpNum outboxLkey

-- ── What comes after it ──────────────────────────────────────────────────────

/-- The device failed a request of this queue pair. -/
def onError (wrId : Nat) (l : Lifetime) : Lifetime :=
  let l := l.setError
  if wrId = kWriteRequestId then l.withConnection l.connection.onWriteCompleted
  else if wrId = kAckRequestId then l.withConnection l.connection.onAckCompleted
  else l

/-- What the reactor reports to a registered queue pair. -/
def onEvent (results : Results) (event : IbvEvent) (l : Lifetime) : Lifetime :=
  match event with
  | .onError _ wrId => l.onError wrId
  | event => l.withConnection (l.connection.onEvent results event)

/-- The socket is readable: the peer's half of the handshake. -/
def handleEventInFromLoop (exchange : Option ConnectionImpl.Exchange) (results : Results)
    (l : Lifetime) : Option Lifetime :=
  match l.connection.state with
  | .RECV_ADDR =>
      match exchange with
      | none => some l.setError
      | some _ =>
          (l.connection.handleEventInFromLoop exchange results).map (fun x => l.withConnection x)
  | .ESTABLISHED => some l.setError
  | _ => none

/-- The socket is writable: this end's half of the handshake. -/
def handleEventOutFromLoop (written : Bool) (l : Lifetime) : Option Lifetime :=
  match l.connection.state with
  | .SEND_ADDR =>
      if written then
        (l.connection.handleEventOutFromLoop written).map (fun x => l.withConnection x)
      else some l.setError
  | _ => none

/-- What epoll reports of the socket. -/
def handleEventsFromLoop (event : ConnectionImpl.SocketEvent) (results : Results)
    (l : Lifetime) : Option Lifetime :=
  match event with
  | .EPOLLERR => some l.setError
  | .EPOLLIN exchange => l.handleEventInFromLoop exchange results
  | .EPOLLOUT written => l.handleEventOutFromLoop written
  | .EPOLLHUP => some l.setError

/-- A task of the loop on a connection that was initialised. -/
def runTask (l : Lifetime) : ConnectionImpl.Task → Option Lifetime
  | .read op results => some (l.withConnection (l.connection.readFromLoop op results))
  | .write op results => some (l.withConnection (l.connection.writeFromLoop op results))
  | .close => some l.setError
  | .socket event results => l.handleEventsFromLoop event results
  | .cleanup => some l.cleanup

/-- A batch of completions goes to the handlers, as in `System.dispatch`. -/
def dispatch : List (Wc × Results × List Call) → Lifetime → Lifetime × List (Wc × List Call)
  | [], l => (l, [])
  | (wc, results, others) :: rest, l =>
      if wc.qpNum = l.connection.qpNum then
        let l' := (wc.event.map (fun event => l.onEvent results event)).getD l
        let (l'', batch) := dispatch rest l'
        (l'', (wc, l'.connection.posts.drop l.connection.posts.length) :: batch)
      else
        let (l', batch) := dispatch rest l
        (l', (wc, others) :: batch)

-- ── Runs ─────────────────────────────────────────────────────────────────────

/-- The connection and the reactor, without what the lifetime adds. -/
def system (l : Lifetime) : System where
  connection := l.connection
  reactor := l.reactor

/-- A step of the lifetime: its beginning, then the steps of the connection and the reactor. -/
inductive Step where
  | init (closed : Bool) (calls : SocketCalls) (qpNum outboxLkey : UInt32)
  | task (task : ConnectionImpl.Task)
  | others (call : Call)
  | poll (batch : List (Wc × Results × List Call))

/-- The initialisation comes first, and its queue pair is a new one.  The loop watches the
    descriptors that were registered.  What the reactor does is followed from the creation of
    the queue pair on. -/
def enabled (l : Lifetime) : Step → Prop
  | .init _ _ qpNum _ => l.initialized = false
      ∧ (∀ wr ∈ l.reactor.device.sends, wr.qpNum ≠ qpNum)
      ∧ (∀ p ∈ l.reactor.pendingQpWrites, p.1 ≠ qpNum)
      ∧ ∀ p ∈ l.reactor.pendingQpAcks, p.1 ≠ qpNum
  | .task (.socket _ _) => l.initialized = true ∧ l.descriptor = true
  | .task .cleanup => l.initialized = true ∧ l.connection.cleanups < l.connection.scheduled
  | .task _ => l.initialized = true
  | .others call => l.created = true ∧ call.qpNum ≠ l.connection.qpNum
  | .poll batch => l.created = true ∧ l.system.enabled (.poll batch)

/-- A step of the lifetime. -/
def step (l : Lifetime) : Step → Option Lifetime
  | .init closed calls qpNum outboxLkey => some (l.initFromLoop closed calls qpNum outboxLkey)
  | .task task =>
      (l.runTask task).map (fun l' => { l' with
        reactor := l.reactor.calls (System.callsOf l.connection l'.connection task) })
  | .others call => some { l with reactor := l.reactor.call call }
  | .poll batch =>
      (l.reactor.device.pollCq (batch.map Prod.fst)).bind (fun device =>
        let (l', batch') := dispatch batch l
        match { l.reactor with device }.pollOnce batch' with
        | .returns reactor => some { l' with reactor }
        | .throws _ => none)

/-- The initialisation, if this is what the step does, is not stopped by an error of its own. -/
def Step.opens (accepted : Bool) : Step → Prop
  | .init closed calls _ _ => closed = true ∨ calls.Succeed accepted
  | _ => True

/-- The runs of a connection, with their steps. -/
inductive Run (accepted : Bool) : List Step → Lifetime → Prop where
  | start {reactor : Reactor} {polled : List Wc} (h : Reactor.Reachable reactor polled) :
      Run accepted [] (make accepted reactor)
  | step {steps : List Step} {l l' : Lifetime} (h : Run accepted steps l) (s : Step)
      (henabled : l.enabled s) (hstep : l.step s = some l') : Run accepted (steps ++ [s]) l'

end Lifetime

-- ── What the connection leaves alone ─────────────────────────────────────────

namespace ConnectionImpl

/-- Neither the error nor the socket nor the queue pair changes, and the handshake does not go
    back to its beginning. -/
structure Frame (x x' : ConnectionImpl) : Prop where
  error : x'.error = x.error
  socket : x'.socket = x.socket
  qp : x'.qp = x.qp
  state : x.state ≠ .INITIALIZING → x'.state ≠ .INITIALIZING
  dangling : x.dangling = true → x'.dangling = true

variable {x x' x'' : ConnectionImpl}

/-- Nothing is within the frame. -/
theorem Frame.refl (x : ConnectionImpl) : Frame x x := ⟨rfl, rfl, rfl, id, id⟩

/-- What stays in the frame twice stays in it. -/
theorem Frame.trans (h : Frame x x') (h' : Frame x' x'') : Frame x x'' where
  error := h'.error.trans h.error
  socket := h'.socket.trans h.socket
  qp := h'.qp.trans h.qp
  state := fun hstate => h'.state (h.state hstate)
  dangling := fun hdangling => h'.dangling (h.dangling hdangling)

/-- A use of a queue pair that is gone stays noted. -/
theorem useQp_dangling (hdangling : x.dangling = true) : x.useQp.dangling = true := by
  show (x.dangling || !x.qp) = true
  rw [hdangling]
  rfl

/-- A use of the queue pair is within the frame. -/
theorem useQp_frame (x : ConnectionImpl) : Frame x x.useQp :=
  ⟨rfl, rfl, rfl, id, useQp_dangling⟩

/-- An acknowledgement is within the frame. -/
theorem postAck_frame (length : Nat) (x : ConnectionImpl) : Frame x (x.postAck length) :=
  ⟨rfl, rfl, rfl, id, useQp_dangling⟩

/-- A write is within the frame. -/
theorem postWrite_frame (buffer : Nat × Nat) (x : ConnectionImpl) :
    Frame x (x.postWrite buffer) :=
  ⟨rfl, rfl, rfl, id, useQp_dangling⟩

/-- Serving the reads is within the frame. -/
theorem serveReads_frame (results : Nat → ReadResult) (ops : List Nat) :
    ∀ (i : Nat) (x : ConnectionImpl), Frame x (serveReads results i ops x) := by
  induction ops with
  | nil => intro i x; exact ⟨rfl, rfl, rfl, id, id⟩
  | cons op rest ih =>
      intro i x
      rw [serveReads]
      have hack : Frame x (if 0 < (results i).len then x.postAck (results i).len else x) := by
        split
        · exact postAck_frame _ x
        · exact Frame.refl x
      by_cases hdone : (results i).completed = true
      · simp only [if_pos hdone]
        exact hack.trans (ih (i + 1) _)
      · simp only [if_neg hdone]
        exact hack.trans ⟨rfl, rfl, rfl, id, id⟩

/-- Serving the writes is within the frame. -/
theorem serveWrites_frame (results : Nat → WriteResult) (ops : List Nat) :
    ∀ (i : Nat) (x : ConnectionImpl), Frame x (serveWrites results i ops x) := by
  have hposts (buffers : List (Nat × Nat)) : ∀ x : ConnectionImpl,
      Frame x (buffers.foldl (fun x buffer => x.postWrite buffer) x) := by
    induction buffers with
    | nil => exact Frame.refl
    | cons buffer rest ih => intro x; exact (postWrite_frame buffer x).trans (ih _)
  induction ops with
  | nil => intro i x; exact ⟨rfl, rfl, rfl, id, id⟩
  | cons op rest ih =>
      intro i x
      rw [serveWrites]
      by_cases hdone : (results i).completed = true
      · simp only [if_pos hdone]
        exact (hposts _ x).trans (ih (i + 1) _)
      · simp only [if_neg hdone]
        exact (hposts _ x).trans ⟨rfl, rfl, rfl, id, id⟩

/-- Processing the reads is within the frame. -/
theorem processReadOperationsFromLoop_frame (results : Results) (x : ConnectionImpl) :
    Frame x (x.processReadOperationsFromLoop results) := by
  rw [processReadOperationsFromLoop]
  split
  · exact Frame.refl x
  · exact serveReads_frame _ _ 0 x

/-- Processing the writes is within the frame. -/
theorem processWriteOperationsFromLoop_frame (results : Results) (x : ConnectionImpl) :
    Frame x (x.processWriteOperationsFromLoop results) := by
  rw [processWriteOperationsFromLoop]
  split
  · exact Frame.refl x
  · exact serveWrites_frame _ _ 0 x

/-- A call of `read` is within the frame. -/
theorem readFromLoop_frame (op : Nat) (results : Results) (x : ConnectionImpl) :
    Frame x (x.readFromLoop op results) := by
  rw [readFromLoop]
  split
  · exact Frame.refl x
  · have hqueued : Frame x { x with readOperations := x.readOperations ++ [op] } :=
      ⟨rfl, rfl, rfl, id, id⟩
    exact hqueued.trans (processReadOperationsFromLoop_frame results _)

/-- A call of `write` is within the frame. -/
theorem writeFromLoop_frame (op : Nat) (results : Results) (x : ConnectionImpl) :
    Frame x (x.writeFromLoop op results) := by
  rw [writeFromLoop]
  split
  · exact Frame.refl x
  · have hqueued : Frame x { x with writeOperations := x.writeOperations ++ [op] } :=
      ⟨rfl, rfl, rfl, id, id⟩
    exact hqueued.trans (processWriteOperationsFromLoop_frame results _)

/-- Scheduling the clean-up is within the frame. -/
theorem tryCleanup_frame (x : ConnectionImpl) : Frame x x.tryCleanup := by
  rw [tryCleanup]
  split
  · split
    · exact ⟨rfl, rfl, rfl, id, id⟩
    · exact useQp_frame x
  · exact Frame.refl x

/-- A completed write is within the frame. -/
theorem onWriteCompleted_frame (x : ConnectionImpl) : Frame x x.onWriteCompleted := by
  have hcounted : Frame x { x.useQp with numWritesInFlight := x.numWritesInFlight - 1 } :=
    ⟨rfl, rfl, rfl, id, useQp_dangling⟩
  exact hcounted.trans (tryCleanup_frame _)

/-- A completed acknowledgement is within the frame. -/
theorem onAckCompleted_frame (x : ConnectionImpl) : Frame x x.onAckCompleted := by
  have hcounted : Frame x { x.useQp with numAcksInFlight := x.numAcksInFlight - 1 } :=
    ⟨rfl, rfl, rfl, id, useQp_dangling⟩
  exact hcounted.trans (tryCleanup_frame _)

/-- The addresses are exchanged. -/
theorem handshake_frame {exchange : Exchange} {results : Results}
    (hstep : x.handleEventInFromLoop (some exchange) results = some x')
    (hstate : x.state = .RECV_ADDR) : Frame x x' := by
  rw [handleEventInFromLoop, hstate] at hstep
  cases hstep
  have hready : Frame x { x.useQp with
      peerInboxKey := exchange.memoryRegionKey
      peerInboxPtr := exchange.memoryRegionPtr
      state := .ESTABLISHED } :=
    ⟨rfl, rfl, rfl, fun _ hstate => (nomatch hstate), useQp_dangling⟩
  exact (hready.trans (processWriteOperationsFromLoop_frame results _)).trans
    (processReadOperationsFromLoop_frame results _)

/-- Sending the address is within the frame. -/
theorem addressSent_frame (hstep : x.handleEventOutFromLoop true = some x')
    (hstate : x.state = .SEND_ADDR) : Frame x x' := by
  rw [handleEventOutFromLoop, hstate] at hstep
  cases hstep
  exact ⟨rfl, rfl, rfl, fun _ hstate => absurd hstate (by simp), useQp_dangling⟩

end ConnectionImpl

-- ── What the lifetime keeps ──────────────────────────────────────────────────

namespace Lifetime

/-- What is registered, once the queue pair was created: the two descriptors until the error,
    and the queue pair until it is destroyed. -/
structure Registered (l : Lifetime) : Prop where
  initialized : l.initialized = true
  created : l.created = true
  misuses : l.misuses = []
  socket : l.connection.socket = !l.connection.error
  descriptor : l.descriptor = !l.connection.error
  enrolled : l.enrolled = !l.connection.error
  state : l.connection.state ≠ .INITIALIZING
  buffers : l.buffers = l.connection.qp
  qpRegistered : l.qpRegistered = l.connection.qp

/-- What all steps have in common: they keep what is registered in order, and they do not make
    good a use of the queue pair when there is none. -/
structure Goes (l l' : Lifetime) : Prop where
  registered : Registered l → Registered l'
  dangling : l.connection.dangling = true → l'.connection.dangling = true
  initialized : l'.initialized = l.initialized
  created : l'.created = l.created

variable {l l' l'' : Lifetime}

/-- Doing nothing keeps what is registered. -/
theorem Goes.refl (l : Lifetime) : Goes l l := ⟨id, id, rfl, rfl⟩

/-- Two steps keep what is registered. -/
theorem Goes.trans (h : Goes l l') (h' : Goes l' l'') : Goes l l'' where
  registered := fun hreg => h'.registered (h.registered hreg)
  dangling := fun hdangling => h'.dangling (h.dangling hdangling)
  initialized := h'.initialized.trans h.initialized
  created := h'.created.trans h.created

/-- A step of the connection within its frame keeps what is registered. -/
theorem goes_frame {x : ConnectionImpl} (hframe : l.connection.Frame x) :
    Goes l (l.withConnection x) where
  registered := fun h =>
    { initialized := h.initialized
      created := h.created
      misuses := h.misuses
      socket := by rw [withConnection, hframe.socket, hframe.error, h.socket]
      descriptor := by rw [withConnection, hframe.error, h.descriptor]
      enrolled := by rw [withConnection, hframe.error, h.enrolled]
      state := hframe.state h.state
      buffers := h.buffers.trans hframe.qp.symm
      qpRegistered := h.qpRegistered.trans hframe.qp.symm }
  dangling := hframe.dangling
  initialized := rfl
  created := rfl

/-- Taking out a descriptor leaves the rest alone. -/
theorem unregisterDescriptor_connection (l : Lifetime) :
    l.unregisterDescriptor.connection = l.connection ∧ l.unregisterDescriptor.reactor = l.reactor
      ∧ l.unregisterDescriptor.initialized = l.initialized
      ∧ l.unregisterDescriptor.created = l.created := by
  rw [unregisterDescriptor]
  split <;> exact ⟨rfl, rfl, rfl, rfl⟩

/-- Resetting the socket takes it from the connection and leaves the rest alone. -/
theorem resetSocket_connection (l : Lifetime) :
    l.resetSocket.connection = { l.connection with socket := false }
      ∧ l.resetSocket.reactor = l.reactor ∧ l.resetSocket.initialized = l.initialized
      ∧ l.resetSocket.created = l.created := by
  rw [resetSocket]
  by_cases hsocket : l.connection.socket = true
  · rw [if_pos hsocket]
    dsimp only [withConnection]
    by_cases hstate : l.connection.state ≠ .INITIALIZING
    · obtain ⟨hconnection, hreactor, hinit, hcreated⟩ := unregisterDescriptor_connection l
      rw [if_pos hstate, hconnection]
      exact ⟨rfl, hreactor, hinit, hcreated⟩
    · rw [if_neg hstate]
      exact ⟨rfl, rfl, rfl, rfl⟩
  · rw [if_neg hsocket]
    refine ⟨?_, rfl, rfl, rfl⟩
    rw [← eq_false_of_ne_true hsocket]

/-- The connection is told of the error as in the model of the connection alone. -/
theorem setError_connection (l : Lifetime) :
    l.setError.connection = l.connection.setError ∧ l.setError.reactor = l.reactor
      ∧ l.setError.initialized = l.initialized ∧ l.setError.created = l.created := by
  rw [setError, ConnectionImpl.setError]
  by_cases herror : l.connection.error = true
  · rw [if_pos herror, if_pos herror]
    exact ⟨rfl, rfl, rfl, rfl⟩
  · rw [if_neg herror, if_neg herror]
    exact resetSocket_connection _

/-- What the error does to the connection.  The queue pair is used in any case. -/
theorem setError_fields {x : ConnectionImpl} (herror : x.error = false) :
    x.setError.error = true ∧ x.setError.socket = false ∧ x.setError.qp = x.qp
      ∧ x.setError.state = x.state
      ∧ ((x.dangling || !x.qp) = true → x.setError.dangling = true) := by
  have hset : ¬ x.error = true := by rw [herror]; exact Bool.false_ne_true
  have htry := ConnectionImpl.tryCleanup_frame ({ x with
    error := true, readOperations := [], writeOperations := [] } : ConnectionImpl).useQp
  have hstate : ({ x with
      error := true, readOperations := [], writeOperations := [] }
        : ConnectionImpl).useQp.tryCleanup.state = x.state := by
    rw [ConnectionImpl.tryCleanup]
    split
    · split <;> rfl
    · rfl
  rw [ConnectionImpl.setError, if_neg hset]
  exact ⟨htry.error, rfl, htry.qp, hstate, htry.dangling⟩

/-- An open socket is reset with its descriptor. -/
theorem resetSocket_open (hsocket : l.connection.socket = true)
    (hstate : l.connection.state ≠ .INITIALIZING) (hdescriptor : l.descriptor = true) :
    l.resetSocket = { l with
      connection := { l.connection with socket := false }, descriptor := false } := by
  rw [resetSocket, if_pos hsocket]
  dsimp only
  rw [if_pos hstate, unregisterDescriptor, if_pos hdescriptor]
  rfl

/-- The error, while all is registered. -/
theorem Registered.setError_eq (h : Registered l) (herror : l.connection.error = false) :
    l.setError = { l with
      connection := l.connection.setError, descriptor := false, enrolled := false } := by
  have hset : ¬ l.connection.error = true := by rw [herror]; exact Bool.false_ne_true
  have htry := ConnectionImpl.tryCleanup_frame ({ l.connection with
    error := true, readOperations := [], writeOperations := [] } : ConnectionImpl).useQp
  have hsocket : l.connection.socket = true := by rw [h.socket, herror]; rfl
  have hdescriptor : l.descriptor = true := by rw [h.descriptor, herror]; rfl
  have hreset : (l.withConnection ({ l.connection with
        error := true, readOperations := [], writeOperations := [] }
          : ConnectionImpl).useQp.tryCleanup).resetSocket = _ :=
    resetSocket_open (htry.socket.trans hsocket) (htry.state h.state) hdescriptor
  rw [setError, if_neg hset, ConnectionImpl.setError, if_neg hset]
  exact congrArg (fun l : Lifetime => { l with enrolled := false }) hreset

/-- The first error gives back the socket and what was enrolled. -/
theorem goes_setError (l : Lifetime) : Goes l l.setError where
  registered := by
    intro h
    cases herror : l.connection.error with
    | true =>
        rw [setError, if_pos herror]
        exact h
    | false =>
        obtain ⟨hset, hclosed, hqp, hstate, -⟩ := setError_fields herror
        rw [h.setError_eq herror]
        exact {
          initialized := h.initialized
          created := h.created
          misuses := h.misuses
          socket := by rw [hclosed, hset]; rfl
          descriptor := by rw [hset]; rfl
          enrolled := by rw [hset]; rfl
          state := hstate ▸ h.state
          buffers := h.buffers.trans hqp.symm
          qpRegistered := h.qpRegistered.trans hqp.symm }
  dangling := by
    intro hdangling
    rw [(setError_connection l).1]
    cases herror : l.connection.error with
    | true =>
        rw [ConnectionImpl.setError, if_pos herror]
        exact hdangling
    | false =>
        refine (setError_fields herror).2.2.2.2 ?_
        rw [hdangling]
        rfl
  initialized := (setError_connection l).2.2.1
  created := (setError_connection l).2.2.2

/-- A failed request keeps what is registered. -/
theorem onError_goes (wrId : Nat) (l : Lifetime) : Goes l (l.onError wrId) := by
  refine (goes_setError l).trans ?_
  rw [onError]
  split
  · exact goes_frame (ConnectionImpl.onWriteCompleted_frame _)
  · split
    · exact goes_frame (ConnectionImpl.onAckCompleted_frame _)
    · exact Goes.refl _

/-- An event of the reactor keeps what is registered. -/
theorem onEvent_goes (results : Results) (event : IbvEvent) (l : Lifetime) :
    Goes l (l.onEvent results event) := by
  cases event with
  | onRemoteProducedData length =>
      exact goes_frame ((ConnectionImpl.useQp_frame _).trans
        (ConnectionImpl.processReadOperationsFromLoop_frame results _))
  | onRemoteConsumedData length =>
      exact goes_frame ((ConnectionImpl.useQp_frame _).trans
        (ConnectionImpl.processWriteOperationsFromLoop_frame results _))
  | onWriteCompleted => exact goes_frame (ConnectionImpl.onWriteCompleted_frame _)
  | onAckCompleted => exact goes_frame (ConnectionImpl.onAckCompleted_frame _)
  | onError status wrId => exact onError_goes wrId l

/-- A batch of events keeps what is registered. -/
theorem dispatch_goes (batch : List (Wc × Results × List Call)) :
    ∀ l : Lifetime, Goes l (dispatch batch l).1 := by
  induction batch with
  | nil => exact Goes.refl
  | cons entry rest ih =>
      obtain ⟨wc, results, others⟩ := entry
      intro l
      rw [dispatch]
      by_cases hqp : wc.qpNum = l.connection.qpNum
      · rw [if_pos hqp]
        refine Goes.trans ?_ (ih _)
        cases wc.event with
        | none => exact Goes.refl l
        | some event => exact onEvent_goes results event l
      · rw [if_neg hqp]
        exact ih l

/-- An event of the socket keeps what is registered. -/
theorem handleEventsFromLoop_goes {event : ConnectionImpl.SocketEvent} {results : Results}
    (hstep : l.handleEventsFromLoop event results = some l') : Goes l l' := by
  cases event with
  | EPOLLERR =>
      cases hstep
      exact goes_setError l
  | EPOLLHUP =>
      cases hstep
      exact goes_setError l
  | EPOLLIN exchange =>
      rw [handleEventsFromLoop, handleEventInFromLoop.eq_def] at hstep
      split at hstep
      · rename_i hstate
        cases exchange with
        | none =>
            cases hstep
            exact goes_setError l
        | some ex =>
            obtain ⟨x, hx, rfl⟩ := Option.map_eq_some_iff.mp hstep
            exact goes_frame (ConnectionImpl.handshake_frame hx hstate)
      · cases hstep
        exact goes_setError l
      · exact nomatch hstep
  | EPOLLOUT written =>
      rw [handleEventsFromLoop, handleEventOutFromLoop] at hstep
      split at hstep
      · rename_i hstate
        cases written with
        | true =>
            obtain ⟨x, hx, rfl⟩ := Option.map_eq_some_iff.mp hstep
            exact goes_frame (ConnectionImpl.addressSent_frame hx hstate)
        | false =>
            cases hstep
            exact goes_setError l
      · exact nomatch hstep

/-- The cleanup runs while the queue pair is there. -/
theorem cleanup_registered (h : Registered l) (hqp : l.connection.qp = true) :
    Registered l.cleanup := by
  have hregistered : l.qpRegistered = true := h.qpRegistered.trans hqp
  rw [cleanup, if_pos hregistered]
  exact {
    initialized := h.initialized
    created := h.created
    misuses := h.misuses
    socket := h.socket
    descriptor := h.descriptor
    enrolled := h.enrolled
    state := h.state
    buffers := rfl
    qpRegistered := rfl }

/-- What the clean-up does to the connection. -/
theorem cleanup_fields (l : Lifetime) :
    l.cleanup.connection = l.connection.cleanup ∧ l.cleanup.initialized = l.initialized
      ∧ l.cleanup.created = l.created := by
  rw [cleanup]
  split <;> exact ⟨rfl, rfl, rfl⟩

/-- A task other than the clean-up keeps what is registered. -/
theorem runTask_goes {task : ConnectionImpl.Task} (hstep : l.runTask task = some l')
    (htask : task ≠ .cleanup) : Goes l l' := by
  cases task with
  | read op results =>
      cases hstep
      exact goes_frame (ConnectionImpl.readFromLoop_frame op results _)
  | write op results =>
      cases hstep
      exact goes_frame (ConnectionImpl.writeFromLoop_frame op results _)
  | close =>
      cases hstep
      exact goes_setError l
  | socket event results => exact handleEventsFromLoop_goes hstep
  | cleanup => exact absurd rfl htask

-- ── The connection as part of the system ─────────────────────────────────────

/-- An event does to the connection what it does without the lifetime. -/
theorem onEvent_connection (results : Results) (event : IbvEvent) (l : Lifetime) :
    (l.onEvent results event).connection = l.connection.onEvent results event := by
  cases event with
  | onError status wrId =>
      show (l.onError wrId).connection = l.connection.onError wrId
      rw [onError, ConnectionImpl.onError, ← (setError_connection l).1]
      split
      · rfl
      · split <;> rfl
  | onRemoteProducedData | onRemoteConsumedData | onWriteCompleted | onAckCompleted => rfl

/-- A batch does to the connection what it does without the lifetime. -/
theorem dispatch_connection (batch : List (Wc × Results × List Call)) :
    ∀ l : Lifetime, System.dispatch batch l.connection
      = ((dispatch batch l).1.connection, (dispatch batch l).2) := by
  induction batch with
  | nil => intro l; rfl
  | cons entry rest ih =>
      obtain ⟨wc, results, others⟩ := entry
      intro l
      rw [System.dispatch, dispatch]
      by_cases hqp : wc.qpNum = l.connection.qpNum
      · rw [if_pos hqp, if_pos hqp]
        have hevent : (wc.event.map (fun event => l.connection.onEvent results event)).getD
              l.connection
            = ((wc.event.map (fun event => l.onEvent results event)).getD l).connection := by
          cases wc.event with
          | none => rfl
          | some event => exact (onEvent_connection results event l).symm
        simp only [hevent, ih]
      · rw [if_neg hqp, if_neg hqp]
        simp only [ih]

/-- The socket does to the connection what it does without the lifetime. -/
theorem handleEventsFromLoop_connection {event : ConnectionImpl.SocketEvent} {results : Results}
    (hstep : l.handleEventsFromLoop event results = some l') :
    l.connection.handleEventsFromLoop event results = some l'.connection := by
  have hset : some l.connection.setError = some l.setError.connection :=
    congrArg some (setError_connection l).1.symm
  cases event with
  | EPOLLERR =>
      cases hstep
      exact hset
  | EPOLLHUP =>
      cases hstep
      exact hset
  | EPOLLIN exchange =>
      rw [handleEventsFromLoop, handleEventInFromLoop.eq_def] at hstep
      rw [ConnectionImpl.handleEventsFromLoop]
      split at hstep
      · rename_i hstate
        cases exchange with
        | none =>
            cases hstep
            rw [ConnectionImpl.handleEventInFromLoop, hstate]
            exact hset
        | some ex =>
            obtain ⟨x, hx, rfl⟩ := Option.map_eq_some_iff.mp hstep
            exact hx
      · rename_i hstate
        cases hstep
        rw [ConnectionImpl.handleEventInFromLoop.eq_def, hstate]
        exact hset
      · exact absurd hstep (by simp)
  | EPOLLOUT written =>
      rw [handleEventsFromLoop, handleEventOutFromLoop] at hstep
      rw [ConnectionImpl.handleEventsFromLoop]
      split at hstep
      · rename_i hstate
        cases written with
        | true =>
            obtain ⟨x, hx, rfl⟩ := Option.map_eq_some_iff.mp hstep
            exact hx
        | false =>
            cases hstep
            rw [ConnectionImpl.handleEventOutFromLoop, hstate]
            exact hset
      · exact absurd hstep (by simp)

/-- A task does to the connection what it does without the lifetime. -/
theorem runTask_connection {task : ConnectionImpl.Task} (hstep : l.runTask task = some l') :
    l.connection.step task = some l'.connection := by
  cases task with
  | read op results =>
      cases hstep
      rfl
  | write op results =>
      cases hstep
      rfl
  | close =>
      cases hstep
      exact congrArg some (setError_connection l).1.symm
  | socket event results => exact handleEventsFromLoop_connection hstep
  | cleanup =>
      cases hstep
      exact congrArg some (cleanup_fields l).1.symm

/-- A step of the system, as one of the lifetime. -/
def Step.ofSystem : System.Step → Step
  | .task t => .task t
  | .others call => .others call
  | .poll batch => .poll batch

/-- From the creation of the queue pair on, the lifetime is a run of the system. -/
theorem step_system {st : System.Step} (hstep : l.step (.ofSystem st) = some l') :
    l.system.step st = some l'.system := by
  cases st with
  | task task =>
      obtain ⟨l₁, hrun, rfl⟩ := Option.map_eq_some_iff.mp hstep
      show (l.connection.step task).map _ = _
      rw [runTask_connection hrun]
      rfl
  | others call =>
      cases hstep
      rfl
  | poll batch =>
      obtain ⟨device, hpoll, hrest⟩ := Option.bind_eq_some_iff.mp hstep
      show (l.reactor.device.pollCq _).bind _ = _
      have hdispatch : System.dispatch batch l.system.connection
          = ((dispatch batch l).1.connection, (dispatch batch l).2) := dispatch_connection batch l
      have hreactor : l.system.reactor = l.reactor := rfl
      rw [hpoll, Option.bind_some, hdispatch, hreactor]
      generalize dispatch batch l = dispatched at hrest ⊢
      obtain ⟨l₁, batch'⟩ := dispatched
      dsimp only at hrest ⊢
      generalize Reactor.pollOnce _ batch' = outcome at hrest ⊢
      cases outcome with
      | returns reactor =>
          cases hrest
          rfl
      | throws e => exact absurd hrest (by simp)

/-- What can happen in the lifetime can happen in the system. -/
theorem enabled_system {st : System.Step} (h : Registered l)
    (henabled : l.enabled (.ofSystem st)) : l.system.enabled st := by
  cases st with
  | task task =>
      cases task with
      | socket event results =>
          have hopen : l.connection.socket = true :=
            h.socket.trans (h.descriptor.symm.trans henabled.2)
          exact hopen
      | cleanup => exact henabled.2
      | read | write | close => trivial
  | others call => exact henabled.2
  | poll batch => exact henabled.2

-- ── The initialisation ───────────────────────────────────────────────────────

/-- When every call succeeds, the connection has its socket. -/
theorem initSocket_ok {calls : SocketCalls} (hcalls : calls.Succeed l.connection.socket) :
    l.initSocket calls = .ok (l.withConnection { l.connection with socket := true }) := by
  obtain ⟨hopen, hblock⟩ := hcalls
  have hnot {b : Bool} (hb : b = true) : ¬ b = false := by rw [hb]; exact Bool.noConfusion
  rw [initSocket]
  cases hsocket : l.connection.socket with
  | true =>
      show (if calls.block = false then _ else _) = _
      rw [if_neg (hnot hblock), ← hsocket]
      rfl
  | false =>
      obtain ⟨hcreate, hreuse, hconnect⟩ := hopen hsocket
      dsimp only
      rw [if_neg Bool.false_ne_true, if_neg (hnot hcreate), if_neg (hnot hreuse),
        if_neg (hnot hconnect)]
      exact if_neg (hnot hblock)

/-- The first of the calls that fails. -/
theorem initSocket_error {calls : SocketCalls} (hcalls : ¬ calls.Succeed l.connection.socket) :
    ∃ socket, l.initSocket calls
      = .error (l.withConnection { l.connection with socket }).setError := by
  rw [initSocket]
  cases hsocket : l.connection.socket with
  | true =>
      refine ⟨true, ?_⟩
      have hblock : calls.block = false := by
        refine eq_false_of_ne_true (fun hblock => hcalls ⟨fun hfalse => ?_, hblock⟩)
        exact absurd (hsocket.symm.trans hfalse) Bool.noConfusion
      show (if calls.block = false then _ else _) = _
      rw [if_pos hblock, ← hsocket]
      rfl
  | false =>
      dsimp only
      rw [if_neg Bool.false_ne_true]
      by_cases hcreate : calls.createForFamily = false
      · refine ⟨false, ?_⟩
        rw [if_pos hcreate, ← hsocket]
        rfl
      · rw [if_neg hcreate]
        refine ⟨true, ?_⟩
        by_cases hreuse : calls.reuseAddr = false
        · rw [if_pos hreuse]
          rfl
        · rw [if_neg hreuse]
          by_cases hconnect : calls.connect = false
          · rw [if_pos hconnect]
            rfl
          · rw [if_neg hconnect]
            dsimp only [Except.bind]
            refine if_pos (eq_false_of_ne_true (fun hblock => hcalls ⟨fun _ => ?_, hblock⟩))
            exact ⟨eq_true_of_ne_false hcreate, eq_true_of_ne_false hreuse,
              eq_true_of_ne_false hconnect⟩

-- ── Whole runs ───────────────────────────────────────────────────────────────

/-- The context was closed before the connection was initialised. -/
structure Refused (l : Lifetime) : Prop where
  initialized : l.initialized = true
  created : l.created = false
  error : l.connection.error = true
  dangling : l.connection.dangling = false
  misuses : l.misuses = []
  cleanups : l.connection.cleanups = 0 ∧ l.connection.scheduled = 0
  descriptor : l.descriptor = false
  enrolled : l.enrolled = false

/-- Where a run can be. -/
inductive Phase (accepted : Bool) : List Step → Lifetime → Prop where
  | fresh {reactor : Reactor} {polled : List Wc} (hreactor : Reactor.Reachable reactor polled) :
      Phase accepted [] (make accepted reactor)
  | refused {steps : List Step} {l : Lifetime} (hopens : ∀ s ∈ steps, s.opens accepted)
      (h : Refused l) : Phase accepted steps l
  | created {steps : List Step} {l : Lifetime} (hopens : ∀ s ∈ steps, s.opens accepted)
      (h : Registered l) (hsystem : System.Reachable l.system) : Phase accepted steps l
  | failed {steps : List Step} {l : Lifetime} (hfails : ¬ ∀ s ∈ steps, s.opens accepted)
      (hinitialized : l.initialized = true) (hcreated : l.created = false)
      (hdangling : l.connection.dangling = true) : Phase accepted steps l

/-- What holds of the steps and of the one after them holds of all. -/
theorem forall_concat {P : Step → Prop} {steps : List Step} {s : Step}
    (hsteps : ∀ s ∈ steps, P s) (hlast : P s) : ∀ s' ∈ steps ++ [s], P s' := by
  intro s' hmem
  rcases List.mem_append.mp hmem with hold | hnew
  · exact hsteps s' hold
  · rw [List.mem_singleton.mp hnew]
    exact hlast

/-- A failed call of the initialisation makes the error handler use a queue pair that was not
    created. -/
theorem setError_dangling (hqp : l.connection.qp = false) (herror : l.connection.error = false) :
    l.setError.connection.dangling = true := by
  rw [(setError_connection l).1]
  refine (setError_fields herror).2.2.2.2 ?_
  rw [hqp]
  exact Bool.or_true _

/-- Where the first step leads, whatever fails in it. -/
theorem init_phase {accepted : Bool} {reactor : Reactor} {polled : List Wc}
    (hreactor : Reactor.Reachable reactor polled) {closed : Bool} {calls : SocketCalls}
    {qpNum outboxLkey : UInt32}
    (henabled : (make accepted reactor).enabled (.init closed calls qpNum outboxLkey)) :
    Phase accepted [.init closed calls qpNum outboxLkey]
      ((make accepted reactor).initFromLoop closed calls qpNum outboxLkey) := by
  rw [initFromLoop]
  cases closed with
  | true =>
      exact .refused (List.forall_mem_singleton.mpr (.inl rfl))
        ⟨rfl, rfl, rfl, rfl, rfl, ⟨rfl, rfl⟩, rfl, rfl⟩
  | false =>
      rw [if_neg Bool.false_ne_true, initImplFromLoop]
      by_cases hcalls : calls.Succeed accepted
      · rw [initSocket_ok hcalls]
        refine .created (List.forall_mem_singleton.mpr (.inr hcalls))
          ⟨rfl, rfl, rfl, rfl, rfl, rfl, fun hstate => (nomatch hstate), rfl, rfl⟩ ?_
        exact .init { qpNum, outboxLkey } rfl hreactor henabled.2
      · obtain ⟨socket, hsocket⟩ := initSocket_error
          (l := { make accepted reactor with initialized := true, enrolled := true }) hcalls
        rw [hsocket]
        refine .failed (fun hopens => ?_) ?_ ?_ (setError_dangling rfl rfl)
        · rcases hopens _ (List.mem_singleton_self _) with hclosed | hsucceed
          · exact nomatch hclosed
          · exact hcalls hsucceed
        · exact (setError_connection _).2.2.1
        · exact (setError_connection _).2.2.2

/-- Tasks run on connections that were initialised. -/
theorem enabled_task {task : ConnectionImpl.Task} (henabled : l.enabled (.task task)) :
    l.initialized = true := by
  cases task with
  | socket | cleanup => exact henabled.1
  | read | write | close => exact henabled

/-- A connection that was refused does nothing any more. -/
theorem Refused.runTask (h : Refused l) {task : ConnectionImpl.Task}
    (henabled : l.enabled (.task task)) (hrun : l.runTask task = some l') : l' = l := by
  cases task with
  | read op results =>
      cases hrun
      rw [ConnectionImpl.readFromLoop, if_pos h.error]
      rfl
  | write op results =>
      cases hrun
      rw [ConnectionImpl.writeFromLoop, if_pos h.error]
      rfl
  | close =>
      cases hrun
      exact if_pos h.error
  | socket event results => exact absurd (h.descriptor.symm.trans henabled.2) Bool.noConfusion
  | cleanup =>
      have hlt := henabled.2
      rw [h.cleanups.1, h.cleanups.2] at hlt
      exact absurd hlt (Nat.lt_irrefl 0)

/-- A step after the queue pair was created keeps what is registered. -/
theorem created_step {st : System.Step} (h : Registered l) (hsystem : System.Reachable l.system)
    (henabled : l.enabled (.ofSystem st)) (hstep : l.step (.ofSystem st) = some l') :
    Registered l' := by
  have hsound := (System.inv_of_reachable hsystem).sound
  cases st with
  | task task =>
      obtain ⟨l₁, hrun, rfl⟩ := Option.map_eq_some_iff.mp hstep
      have hregistered : Registered l₁ := by
        by_cases htask : task = .cleanup
        · subst htask
          cases hrun
          have hlt : l.connection.cleanups < l.connection.scheduled := henabled.2
          have honce : l.connection.scheduled ≤ 1 := by
            have hscheduled : l.connection.scheduled = _ := hsound.scheduled
            rw [hscheduled]
            split
            · exact Nat.le_refl 1
            · exact Nat.zero_le 1
          exact cleanup_registered h
            (hsound.qp.mpr (Nat.lt_one_iff.mp (Nat.lt_of_lt_of_le hlt honce)))
        · exact (runTask_goes hrun htask).registered h
      exact { hregistered with }
  | others call =>
      cases hstep
      exact { h with }
  | poll batch =>
      obtain ⟨device, -, hrest⟩ := Option.bind_eq_some_iff.mp hstep
      have hregistered := (dispatch_goes batch l).registered h
      generalize dispatch batch l = dispatched at hrest hregistered
      obtain ⟨l₁, batch'⟩ := dispatched
      dsimp only at hrest hregistered
      split at hrest
      · cases hrest
        exact { hregistered with }
      · exact nomatch hrest

/-- A step leads from one phase to a phase. -/
theorem phase_step {accepted : Bool} {steps : List Step} {s : Step}
    (h : Phase accepted steps l) (henabled : l.enabled s) (hstep : l.step s = some l') :
    Phase accepted (steps ++ [s]) l' := by
  cases h with
  | fresh hreactor =>
      cases s with
      | init closed calls qpNum outboxLkey =>
          cases hstep
          exact init_phase hreactor henabled
      | task task => exact absurd (enabled_task henabled) Bool.false_ne_true
      | others call => exact nomatch henabled.1
      | poll batch => exact nomatch henabled.1
  | refused hopens h =>
      cases s with
      | init closed calls qpNum outboxLkey =>
          exact absurd (h.initialized.symm.trans henabled.1) Bool.noConfusion
      | task task =>
          obtain ⟨l₁, hrun, rfl⟩ := Option.map_eq_some_iff.mp hstep
          have hsame := h.runTask henabled hrun
          subst hsame
          exact .refused (forall_concat hopens trivial) { h with }
      | others call => exact absurd (h.created.symm.trans henabled.1) Bool.noConfusion
      | poll batch => exact absurd (h.created.symm.trans henabled.1) Bool.noConfusion
  | created hopens h hsystem =>
      have hnext (st : System.Step) (hopen : (Step.ofSystem st).opens accepted)
          (henabled : l.enabled (.ofSystem st)) (hstep : l.step (.ofSystem st) = some l') :
          Phase accepted (steps ++ [.ofSystem st]) l' :=
        .created (forall_concat hopens hopen) (created_step h hsystem henabled hstep)
          (.step hsystem st (enabled_system h henabled) (step_system hstep))
      cases s with
      | init closed calls qpNum outboxLkey =>
          exact absurd (h.initialized.symm.trans henabled.1) Bool.noConfusion
      | task task => exact hnext (.task task) trivial henabled hstep
      | others call => exact hnext (.others call) trivial henabled hstep
      | poll batch => exact hnext (.poll batch) trivial henabled hstep
  | failed hfails hinitialized hcreated hdangling =>
      have hfails' : ¬ ∀ s' ∈ steps ++ [s], s'.opens accepted :=
        fun hopens => hfails (fun s' hmem => hopens s' (List.mem_append_left _ hmem))
      cases s with
      | init closed calls qpNum outboxLkey =>
          exact absurd (hinitialized.symm.trans henabled.1) Bool.noConfusion
      | task task =>
          obtain ⟨l₁, hrun, rfl⟩ := Option.map_eq_some_iff.mp hstep
          by_cases htask : task = .cleanup
          · subst htask
            cases hrun
            obtain ⟨hconnection, hinit, hcreate⟩ := cleanup_fields l
            refine .failed hfails' (hinit.trans hinitialized) (hcreate.trans hcreated) ?_
            show l.cleanup.connection.dangling = true
            rw [hconnection]
            exact ConnectionImpl.useQp_dangling hdangling
          · have hgoes := runTask_goes hrun htask
            exact .failed hfails' (hgoes.initialized.trans hinitialized)
              (hgoes.created.trans hcreated) (hgoes.dangling hdangling)
      | others call => exact absurd (hcreated.symm.trans henabled.1) Bool.noConfusion
      | poll batch => exact absurd (hcreated.symm.trans henabled.1) Bool.noConfusion

/-- Every run is in one of the phases. -/
theorem Run.phase {accepted : Bool} {steps : List Step} (h : Run accepted steps l) :
    Phase accepted steps l := by
  induction h with
  | start hreactor => exact .fresh hreactor
  | step _ s henabled hstep ih => exact phase_step ih henabled hstep

/-- What is used was created, and what is given back was registered; and whenever the error was
    raised, what is left in the end is nothing. -/
structure Clean (l : Lifetime) : Prop where
  queuePair : l.connection.dangling = false
  misuses : l.misuses = []
  failed : l.connection.error = true → l.descriptor = false ∧ l.enrolled = false
  settled : l.created = true → l.connection.error = true →
    l.connection.numWritesInFlight = 0 → l.connection.numAcksInFlight = 0 →
      l.connection.scheduled = 1
  cleanedUp : 0 < l.connection.cleanups →
    l.connection.qp = false ∧ l.connection.socket = false ∧ l.qpRegistered = false
      ∧ l.descriptor = false ∧ l.enrolled = false ∧ l.buffers = false

/-- A connection that was refused has nothing to give back. -/
theorem Refused.clean (h : Refused l) : Clean l where
  queuePair := h.dangling
  misuses := h.misuses
  failed := fun _ => ⟨h.descriptor, h.enrolled⟩
  settled := fun hcreated => absurd (h.created.symm.trans hcreated) Bool.noConfusion
  cleanedUp := by
    rw [h.cleanups.1]
    exact fun hpos => absurd hpos (Nat.lt_irrefl 0)

/-- A connection that has its queue pair gives back what it registered. -/
theorem Registered.clean (h : Registered l) (hsystem : System.Reachable l.system) : Clean l := by
  have hsound := (System.inv_of_reachable hsystem).sound
  have hfailed (herror : l.connection.error = true) :
      l.connection.socket = false ∧ l.descriptor = false ∧ l.enrolled = false := by
    rw [h.socket, h.descriptor, h.enrolled, herror]
    exact ⟨rfl, rfl, rfl⟩
  exact {
    queuePair := hsound.dangling
    misuses := h.misuses
    failed := fun herror => (hfailed herror).2
    settled := by
      intro _ herror hwrites hacks
      have hscheduled : l.connection.scheduled = _ := hsound.scheduled
      rw [hscheduled]
      exact if_pos ⟨herror, hwrites, hacks⟩
    cleanedUp := by
      intro hpos
      have hqp : l.connection.qp = false := by
        refine eq_false_of_ne_true (fun hqp => ?_)
        have hzero : l.connection.cleanups = 0 := hsound.qp.mp hqp
        omega
      have herror : l.connection.error = true := by
        refine eq_true_of_ne_false (fun hfalse => ?_)
        have hzero : l.connection.cleanups = 0 := (hsound.live hfalse).2
        omega
      obtain ⟨hsocket, hdescriptor, henrolled⟩ := hfailed herror
      exact ⟨hqp, hsocket, h.qpRegistered.trans hqp, hdescriptor, henrolled,
        h.buffers.trans hqp⟩ }

/-- A run is clean if and only if no error came from within the initialisation. -/
theorem clean_iff {accepted : Bool} {steps : List Step} (h : Run accepted steps l) :
    Clean l ↔ ∀ s ∈ steps, s.opens accepted := by
  cases h.phase with
  | fresh hreactor =>
      refine iff_of_true ?_ (fun _ hmem => absurd hmem List.not_mem_nil)
      exact ⟨rfl, rfl, fun herror => (nomatch herror), fun hcreated => (nomatch hcreated),
        fun hpos => absurd hpos (Nat.lt_irrefl 0)⟩
  | refused hopens hrefused => exact iff_of_true hrefused.clean hopens
  | created hopens hregistered hsystem => exact iff_of_true (hregistered.clean hsystem) hopens
  | failed hfails hinitialized hcreated hdangling =>
      refine iff_of_false (fun hclean => ?_) hfails
      exact absurd (hclean.queuePair.symm.trans hdangling) Bool.noConfusion

/-- A connection that was accepted, and is closed before it has done anything. -/
theorem clean_iff_closed : ∃ l,
    (Clean l ↔ ∀ s ∈ [Step.init false ⟨false, false, false, true⟩ 7 1, .task .close,
      .task .cleanup], s.opens true) ∧ l.connection.cleanups = 1 := by
  have hinit : Run true [.init false ⟨false, false, false, true⟩ 7 1] _ :=
    .step (.start .make) _ ⟨rfl, fun _ hmem => (nomatch hmem), fun _ hmem => (nomatch hmem),
      fun _ hmem => (nomatch hmem)⟩ rfl
  have hclose : Run true [.init false ⟨false, false, false, true⟩ 7 1, .task .close] _ :=
    .step hinit _ rfl rfl
  have hcleanup : Run true
      [.init false ⟨false, false, false, true⟩ 7 1, .task .close, .task .cleanup] _ :=
    .step hclose _ ⟨rfl, Nat.zero_lt_one⟩ rfl
  exact ⟨_, clean_iff hcleanup, rfl⟩

/-- The address cannot be connected to: the queue pair, which was not created, is used. -/
theorem refused_connect_dangles : ¬ ∀ (accepted : Bool) (steps : List Step) (l : Lifetime),
    Run accepted steps l → Clean l := by
  intro hclaim
  have hstart : Run false [] (make false .make) := .start .make
  have hinit := Run.step hstart (.init false ⟨true, true, false, true⟩ 7 1)
    ⟨rfl, fun _ hmem => (nomatch hmem), fun _ hmem => (nomatch hmem),
      fun _ hmem => (nomatch hmem)⟩ rfl
  have hdangling := (hclaim _ _ _ hinit).queuePair
  exact nomatch hdangling

end Lifetime

end TpIbv
