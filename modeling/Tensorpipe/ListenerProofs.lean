import Tensorpipe.RegistrationProofs

/-! # Requested connections — the listener and the mpt context

    A pipe that wants another connection from its peer registers with its listener and tells the
    peer the number that it got; the peer connects, and says the number in its first packet.
    The mpt context does the same for the lanes of its channels.

    The idea of the proofs: what both do with their registrations is a run of a registry, so
    that the law of registries holds of them. -/

namespace TpListener

open TpRegistration TpStateMachine

-- ── Callbacks ────────────────────────────────────────────────────────────────

/-- The errors of a listener or a context: its own close, or what came from below. -/
inductive Error where
  | ListenerClosedError
  | ContextClosedError
  | other (code : Nat)
deriving DecidableEq, Repr

/-- `CallbackWrapper::entryPointFromLoop`; `none` is `Error::kSuccess`. -/
def entryPointFromLoop {S R : Type} (setError : Error → S → S) (fn : S → R)
    (error : Option Error) (subject : S) : R :=
  match error with
  | some e => fn (setError e subject)
  | none => fn subject

/-- The error of a result, if it is one. -/
def failure {A : Type} : Except Error A → Option Error
  | .error e => some e
  | .ok _ => none

/-- The callbacks that wait for a value, or the values that wait for a callback. -/
structure RearmableCallback (F A : Type) where
  callbacks : List F := []
  args : List A := []
deriving DecidableEq, Repr

namespace RearmableCallback

variable {F A : Type}

/-- What is to be called is returned, with its arguments. -/
def arm (fn : F) (cb : RearmableCallback F A) : RearmableCallback F A × List (F × A) :=
  match cb.args with
  | a :: args => ({ cb with args }, [(fn, a)])
  | [] => ({ cb with callbacks := cb.callbacks ++ [fn] }, [])

/-- A value goes to the first callback, or waits for one. -/
def trigger (a : A) (cb : RearmableCallback F A) : RearmableCallback F A × List (F × A) :=
  match cb.callbacks with
  | fn :: callbacks => ({ cb with callbacks }, [(fn, a)])
  | [] => ({ cb with args := cb.args ++ [a] }, [])

/-- All callbacks that wait get the value. -/
def triggerAll (generator : A) (cb : RearmableCallback F A) :
    RearmableCallback F A × List (F × A) :=
  ({ cb with callbacks := [] }, cb.callbacks.map (fun fn => (fn, generator)))

end RearmableCallback

-- ── The listener ─────────────────────────────────────────────────────────────

/-- What a client says first.  A variant may also be empty. -/
inductive Packet where
  | SpontaneousConnection (contextName : String)
  | RequestedConnection (registrationId : Nat)
  | empty
deriving DecidableEq, Repr

/-- A pipe, by what it was made of. -/
structure Pipe where
  remoteName : String
  transport : String
  connection : Nat
deriving DecidableEq, Repr

/-- A call of accept: its sequence number and its callback. -/
abbrev Accept := Nat × Nat

/-- `requests` has `error_`, `nextConnectionRequestRegistrationId_` and
    `connectionRequestRegistrations_`.  A transport in `accepting` owes a call of the callback
    that it was armed with, and a connection in `reading` owes its first packet.  `acceptCalls`
    are the calls of the callbacks of accept, and `closed` the connections that were closed. -/
structure ListenerImpl where
  requests : Registry Nat Error (String × Nat) := {}
  listeners : List String
  listenersClosed : Bool := false
  enrolled : Bool := false
  accepting : List String := []
  nextPipeBeingAccepted : Nat := 0
  nextAcceptCallbackToCall : Nat := 0
  acceptCallback : RearmableCallback Accept (Except Error Pipe) := {}
  acceptCalls : List (Accept × Except Error Pipe) := []
  connectionsWaitingForHello : List Nat := []
  reading : List (String × Nat) := []
  closed : List Nat := []

namespace ListenerImpl

/-- The error of a listener is that of its registry. -/
def error (x : ListenerImpl) : Option Error := x.requests.error

/-- A request for a connection with an identifier of its own. -/
def registerConnectionRequest (fn : Nat) (x : ListenerImpl) : ListenerImpl :=
  { x with requests := x.requests.register fn }

/-- Withdraws a request. -/
def unregisterConnectionRequest (registrationId : Nat) (x : ListenerImpl) : ListenerImpl :=
  { x with requests := x.requests.unregister registrationId }

/-- The callbacks of accept are called, and count the calls. -/
def callAccepts (calls : List (Accept × Except Error Pipe)) (x : ListenerImpl) : ListenerImpl :=
  { x with
    nextAcceptCallbackToCall := x.nextAcceptCallbackToCall + calls.length
    acceptCalls := x.acceptCalls ++ calls }

/-- A call of `accept`, which waits for a pipe or gets the listener's error. -/
def acceptFromLoop (fn : Nat) (x : ListenerImpl) : ListenerImpl :=
  let sequenceNumber := x.nextPipeBeingAccepted
  let x := { x with nextPipeBeingAccepted := sequenceNumber + 1 }
  match x.error with
  | some e => x.callAccepts [((sequenceNumber, fn), .error e)]
  | none =>
      let (acceptCallback, calls) := x.acceptCallback.arm (sequenceNumber, fn)
      { x with acceptCallback }.callAccepts calls

/-- The listener's error answers all that wait, and closes what it accepted. -/
def handleError (e : Error) (x : ListenerImpl) : ListenerImpl :=
  let (acceptCallback, calls) := x.acceptCallback.triggerAll (.error e)
  let x := { x with acceptCallback }.callAccepts calls
  { x with
    requests := x.requests.flush e
    listenersClosed := true
    closed := x.closed ++ x.connectionsWaitingForHello
    connectionsWaitingForHello := []
    enrolled := false }

/-- The first error is set and handled; the others are ignored. -/
def setError (e : Error) (x : ListenerImpl) : ListenerImpl :=
  match x.error with
  | some _ => x
  | none => { x with requests := x.requests.fail e }.handleError e

/-- A call of `close`. -/
def closeFromLoop (x : ListenerImpl) : ListenerImpl := x.setError .ListenerClosedError

/-- A connection was accepted, and its hello is read. -/
def onAccept (transport : String) (connection : Nat) (x : ListenerImpl) : ListenerImpl :=
  { x with
    connectionsWaitingForHello := x.connectionsWaitingForHello.insert connection
    reading := x.reading ++ [(transport, connection)] }

/-- `none` stands for the exception. -/
def armListener (transport : String) (x : ListenerImpl) : Option ListenerImpl :=
  if transport ∈ x.listeners then some { x with accepting := x.accepting ++ [transport] } else none

/-- When the context is closed already, the error is set and nothing else is done. -/
def initFromLoop (contextClosed : Bool) (x : ListenerImpl) : Option ListenerImpl :=
  if contextClosed then some { x with requests := x.requests.fail .ListenerClosedError }
  else x.listeners.foldlM (fun x transport => x.armListener transport) { x with enrolled := true }

/-- The hello of a connection says whether it was asked for. -/
def onConnectionHelloRead (transport : String) (connection : Nat) (packet : Packet)
    (x : ListenerImpl) : ListenerImpl :=
  match packet with
  | .SpontaneousConnection contextName =>
      let pipe := { remoteName := contextName, transport, connection }
      let (acceptCallback, calls) := x.acceptCallback.trigger (.ok pipe)
      { x with acceptCallback }.callAccepts calls
  | .RequestedConnection registrationId =>
      { x with requests := x.requests.deliver registrationId (transport, connection) }
  | .empty => x

/-- The callback of the accept of a transport.  In case of an error there is no connection, and
    to use it nevertheless is an error of its own. -/
def onTransportAccept (transport : String) (result : Except Error Nat) (x : ListenerImpl) :
    Option ListenerImpl :=
  let fn (x : ListenerImpl) :=
    if x.error.isSome then some x
    else result.toOption.bind
      (fun connection => (x.onAccept transport connection).armListener transport)
  entryPointFromLoop setError fn (failure result)
    { x with accepting := x.accepting.erase transport }

/-- The callback of the read of the first packet. -/
def onHelloRead (transport : String) (connection : Nat) (result : Except Error Packet)
    (x : ListenerImpl) : Option ListenerImpl :=
  let fn (x : ListenerImpl) :=
    if x.error.isSome then some x
    else
      let x := { x with
        connectionsWaitingForHello := x.connectionsWaitingForHello.erase connection }
      result.toOption.map (fun packet => x.onConnectionHelloRead transport connection packet)
  entryPointFromLoop setError fn (failure result)
    { x with reading := x.reading.erase (transport, connection) }

/-- What the loop of a listener runs. -/
inductive Step where
  | acceptFromLoop (fn : Nat)
  | closeFromLoop
  | registerConnectionRequest (fn : Nat)
  | unregisterConnectionRequest (registrationId : Nat)
  | onTransportAccept (transport : String) (result : Except Error Nat)
  | onHelloRead (transport : String) (connection : Nat) (result : Except Error Packet)
  | rehash (entries : AList (fun _ : Nat => Nat))

/-- A transport calls back once for each time that it was armed, a connection once for the
    read. -/
def enabled (x : ListenerImpl) : Step → Prop
  | .onTransportAccept transport _ => transport ∈ x.accepting
  | .onHelloRead transport connection _ => (transport, connection) ∈ x.reading
  | .rehash entries => entries.entries.Perm x.requests.entries.entries
  | _ => True

/-- One task of the loop. -/
def step (x : ListenerImpl) : Step → Option ListenerImpl
  | .acceptFromLoop fn => some (x.acceptFromLoop fn)
  | .closeFromLoop => some x.closeFromLoop
  | .registerConnectionRequest fn => some (x.registerConnectionRequest fn)
  | .unregisterConnectionRequest registrationId =>
      some (x.unregisterConnectionRequest registrationId)
  | .onTransportAccept transport result => x.onTransportAccept transport result
  | .onHelloRead transport connection result => x.onHelloRead transport connection result
  | .rehash entries => some { x with requests := { x.requests with entries } }

/-- The listener is initialised before anything else. -/
inductive Reachable (listeners : List String) : ListenerImpl → Prop where
  | init {x : ListenerImpl} (contextClosed : Bool)
      (hinit : initFromLoop contextClosed { listeners } = some x) : Reachable listeners x
  | step {x x' : ListenerImpl} (h : Reachable listeners x) (s : Step) (henabled : x.enabled s)
      (hstep : x.step s = some x') : Reachable listeners x'

end ListenerImpl

-- ── The mpt context ──────────────────────────────────────────────────────────

namespace Mpt

/-- The hello of a lane, from either side. -/
inductive Packet where
  | ServerHello
  | ClientHello (registrationId : Nat)
deriving DecidableEq, Repr

/-- As above, with lanes for transports. -/
structure ContextImpl where
  requests : Registry Nat Error Nat := {}
  numLanes : Nat
  contextsClosed : Bool := false
  accepting : List Nat := []
  connectionsWaitingForHello : List Nat := []
  reading : List Nat := []
  closed : List Nat := []

namespace ContextImpl

/-- The error of a context is that of its registry. -/
def error (x : ContextImpl) : Option Error := x.requests.error

/-- A request for a lane with an identifier of its own. -/
def registerConnectionRequest (_laneIdx fn : Nat) (x : ContextImpl) : ContextImpl :=
  { x with requests := x.requests.register fn }

/-- Withdraws a request. -/
def unregisterConnectionRequest (registrationId : Nat) (x : ContextImpl) : ContextImpl :=
  { x with requests := x.requests.unregister registrationId }

/-- The context's error answers all requests, and closes what it accepted. -/
def handleErrorImpl (e : Error) (x : ContextImpl) : ContextImpl :=
  { x with
    requests := x.requests.flush e
    closed := x.closed ++ x.connectionsWaitingForHello
    connectionsWaitingForHello := []
    contextsClosed := true }

/-- The channels are closed first, at once, and what they had registered they unregister: these
    are `ids`. -/
def setError (ids : List Nat) (e : Error) (x : ContextImpl) : ContextImpl :=
  match x.error with
  | some _ => x
  | none => { x with requests := (x.requests.fail e).withdraw ids }.handleErrorImpl e

/-- A call of `close`. -/
def closeFromLoop (ids : List Nat) (x : ContextImpl) : ContextImpl :=
  x.setError ids .ContextClosedError

/-- Accepts the next connection of a lane. -/
def acceptLane (laneIdx : Nat) (x : ContextImpl) : ContextImpl :=
  { x with accepting := x.accepting ++ [laneIdx] }

/-- Accepts the first connection of every lane. -/
def initFromLoop (x : ContextImpl) : ContextImpl :=
  (List.range x.numLanes).foldl (fun x laneIdx => x.acceptLane laneIdx) x

/-- A connection was accepted, and its hello is read. -/
def onAcceptOfLane (connection : Nat) (x : ContextImpl) : ContextImpl :=
  { x with
    connectionsWaitingForHello := x.connectionsWaitingForHello.insert connection
    reading := x.reading ++ [connection] }

/-- The packet is asserted to be of its kind, and used as such. -/
def onReadClientHelloOnLane (connection : Nat) (packet : Packet) (x : ContextImpl) :
    Option ContextImpl :=
  match packet with
  | .ServerHello => none
  | .ClientHello registrationId =>
      some { x with requests := x.requests.deliver registrationId connection }

/-- The callback of an accept, run unless the context is in error. -/
def onTransportAccept (ids : List Nat) (laneIdx : Nat) (result : Except Error Nat)
    (x : ContextImpl) : Option ContextImpl :=
  let fn (x : ContextImpl) :=
    if x.error.isSome then some x
    else result.toOption.map
      (fun connection => (x.onAcceptOfLane connection).acceptLane laneIdx)
  entryPointFromLoop (setError ids) fn (failure result)
    { x with accepting := x.accepting.erase laneIdx }

/-- The callback of the read of a hello, run unless the context is in error. -/
def onHelloRead (ids : List Nat) (connection : Nat) (result : Except Error Packet)
    (x : ContextImpl) : Option ContextImpl :=
  let fn (x : ContextImpl) :=
    if x.error.isSome then some x
    else
      let x := { x with
        connectionsWaitingForHello := x.connectionsWaitingForHello.erase connection }
      result.toOption.bind (fun packet => x.onReadClientHelloOnLane connection packet)
  entryPointFromLoop (setError ids) fn (failure result)
    { x with reading := x.reading.erase connection }

/-- What the loop of a context runs. -/
inductive Step where
  | closeFromLoop (ids : List Nat)
  | registerConnectionRequest (laneIdx fn : Nat)
  | unregisterConnectionRequest (registrationId : Nat)
  | onTransportAccept (ids : List Nat) (laneIdx : Nat) (result : Except Error Nat)
  | onHelloRead (ids : List Nat) (connection : Nat) (result : Except Error Packet)
  | rehash (entries : AList (fun _ : Nat => Nat))

/-- When a task can run. -/
def enabled (x : ContextImpl) : Step → Prop
  | .onTransportAccept _ laneIdx _ => laneIdx ∈ x.accepting
  | .onHelloRead _ connection _ => connection ∈ x.reading
  | .rehash entries => entries.entries.Perm x.requests.entries.entries
  | _ => True

/-- One task of the loop. -/
def step (x : ContextImpl) : Step → Option ContextImpl
  | .closeFromLoop ids => some (x.closeFromLoop ids)
  | .registerConnectionRequest laneIdx fn => some (x.registerConnectionRequest laneIdx fn)
  | .unregisterConnectionRequest registrationId =>
      some (x.unregisterConnectionRequest registrationId)
  | .onTransportAccept ids laneIdx result => x.onTransportAccept ids laneIdx result
  | .onHelloRead ids connection result => x.onHelloRead ids connection result
  | .rehash entries => some { x with requests := { x.requests with entries } }

/-- The contexts that can be reached from their initialisation. -/
inductive Reachable (numLanes : Nat) : ContextImpl → Prop where
  | init : Reachable numLanes (initFromLoop { numLanes })
  | step {x x' : ContextImpl} (h : Reachable numLanes x) (s : Step) (henabled : x.enabled s)
      (hstep : x.step s = some x') : Reachable numLanes x'

end ContextImpl

end Mpt

-- ── The listener and its registry ────────────────────────────────────────────

namespace ListenerImpl

variable {x x' : ListenerImpl}

/-- A listener in error keeps its error. -/
theorem setError_some {e e' : Error} (h : x.error = some e') : x.setError e = x := by
  rw [setError, h]

/-- The first error is set and handled. -/
theorem setError_none {e : Error} (h : x.error = none) :
    x.setError e = { x with requests := x.requests.fail e }.handleError e := by
  rw [setError, h]

/-- To the registry, an error of the listener is a failure with nobody withdrawing. -/
theorem setError_requests (e : Error) (x : ListenerImpl) :
    (x.setError e).requests = x.requests.setError e [] := by
  cases herror : x.error with
  | some e' => rw [setError_some herror, Registry.setError, show x.requests.error = some e' from herror]
  | none =>
      rw [setError_none herror, Registry.setError, show x.requests.error = none from herror]
      rfl

/-- After an error there is one. -/
theorem setError_isSome (e : Error) (x : ListenerImpl) : (x.setError e).error.isSome = true := by
  cases herror : x.error with
  | some e' => rw [setError_some herror, herror]; rfl
  | none => rw [setError_none herror]; rfl

/-- A failed accept sets its error. -/
theorem onTransportAccept_error (transport : String) (e : Error) (x : ListenerImpl) :
    x.onTransportAccept transport (.error e)
      = some ({ x with accepting := x.accepting.erase transport }.setError e) :=
  if_pos (setError_isSome ..)

/-- A failed hello sets its error. -/
theorem onHelloRead_error (transport : String) (connection : Nat) (e : Error) (x : ListenerImpl) :
    x.onHelloRead transport connection (.error e)
      = some ({ x with reading := x.reading.erase (transport, connection) }.setError e) :=
  if_pos (setError_isSome ..)

/-- Waiting for the next connection has nothing to do with the requests. -/
theorem armListener_requests {transport : String} (h : x.armListener transport = some x') :
    x'.requests = x.requests := by
  rw [armListener] at h
  split at h
  · rw [← Option.some.inj h]
  · cases h

/-- Waiting on all transports has nothing to do with the requests. -/
theorem armAll_requests (transports : List String) (x : ListenerImpl)
    (h : transports.foldlM (fun x transport => x.armListener transport) x = some x') :
    x'.requests = x.requests := by
  induction transports generalizing x with
  | nil => exact congrArg requests (Option.some.inj h).symm
  | cons transport rest ih =>
      rw [List.foldlM_cons] at h
      obtain ⟨mid, hmid, hrest⟩ := Option.bind_eq_some_iff.mp h
      rw [ih mid hrest, armListener_requests hmid]

/-- A callback of a transport does nothing to the registry, or fails. -/
theorem onTransportAccept_requests {transport : String} {result : Except Error Nat}
    (h : x.onTransportAccept transport result = some x') :
    x'.requests = x.requests ∨ ∃ e, x'.requests = x.requests.setError e [] := by
  cases result with
  | error e =>
      rw [onTransportAccept_error] at h
      rw [← Option.some.inj h]
      exact .inr ⟨e, setError_requests ..⟩
  | ok connection =>
      refine .inl ?_
      change (if x.error.isSome then _ else _) = _ at h
      split at h
      · rw [← Option.some.inj h]
      · have harm : (onAccept transport connection
            { x with accepting := x.accepting.erase transport }).armListener transport = some x' := h
        have hsame := armListener_requests harm
        exact hsame

/-- The first packet of a client is delivered, or does nothing to the registry, or its read
    fails. -/
theorem onHelloRead_requests {transport : String} {connection : Nat}
    {result : Except Error Packet} (h : x.onHelloRead transport connection result = some x') :
    x'.requests = x.requests ∨ (∃ e, x'.requests = x.requests.setError e [])
      ∨ ∃ id, x.requests.error = none
        ∧ x'.requests = x.requests.deliver id (transport, connection) := by
  cases result with
  | error e =>
      rw [onHelloRead_error] at h
      rw [← Option.some.inj h]
      exact .inr (.inl ⟨e, setError_requests ..⟩)
  | ok packet =>
      change (if x.error.isSome then _ else _) = _ at h
      split at h
      case isTrue =>
        rw [← Option.some.inj h]
        exact .inl rfl
      case isFalse herror =>
        rw [← Option.some.inj h]
        cases packet with
        | SpontaneousConnection contextName => exact .inl rfl
        | RequestedConnection id =>
            exact .inr (.inr ⟨id, Option.not_isSome_iff_eq_none.mp herror, rfl⟩)
        | empty => exact .inl rfl

/-- Each step of a listener is a step of its registry, or none. -/
theorem requests_step (s : Step) (henabled : x.enabled s) (hstep : x.step s = some x') :
    x'.requests = x.requests ∨ Registry.Step x.requests x'.requests := by
  cases s with
  | acceptFromLoop fn =>
      refine .inl ?_
      rw [← Option.some.inj hstep, acceptFromLoop]
      split <;> rfl
  | closeFromLoop =>
      rw [← Option.some.inj hstep, closeFromLoop, setError_requests]
      exact .inr (.setError ..)
  | registerConnectionRequest fn =>
      rw [← Option.some.inj hstep]
      exact .inr (.register ..)
  | unregisterConnectionRequest registrationId =>
      rw [← Option.some.inj hstep]
      exact .inr (.unregister ..)
  | onTransportAccept transport result =>
      rcases onTransportAccept_requests hstep with hsame | ⟨e, hfail⟩
      · exact .inl hsame
      · exact .inr (hfail ▸ .setError ..)
  | onHelloRead transport connection result =>
      rcases onHelloRead_requests hstep with hsame | ⟨e, hfail⟩ | ⟨id, herror, hdeliver⟩
      · exact .inl hsame
      · exact .inr (hfail ▸ .setError ..)
      · exact .inr (hdeliver ▸ .deliver _ _ _ herror)
  | rehash entries =>
      rw [← Option.some.inj hstep]
      exact .inr (.rehash _ entries henabled)

/-- A run of a listener is a run of its registry. -/
theorem requests_reachable {listeners : List String} (h : Reachable listeners x) :
    Registry.Reachable x.requests := by
  induction h with
  | init contextClosed hinit =>
      cases contextClosed with
      | true =>
          rw [← Option.some.inj hinit]
          exact .single (.setError {} Error.ListenerClosedError [])
      | false =>
          rw [armAll_requests _ _ hinit]
          exact .refl
  | step _ s henabled hstep ih =>
      rcases requests_step s henabled hstep with hsame | hone
      · rw [hsame]
        exact ih
      · exact ih.tail hone

end ListenerImpl

-- ── The mpt context and its registry ─────────────────────────────────────────

namespace Mpt.ContextImpl

variable {x x' : ContextImpl}

/-- A context in error keeps its error. -/
theorem setError_some {ids : List Nat} {e e' : Error} (h : x.error = some e') :
    x.setError ids e = x := by
  rw [setError, h]

/-- The first error is set and handled. -/
theorem setError_none {ids : List Nat} {e : Error} (h : x.error = none) :
    x.setError ids e
      = { x with requests := (x.requests.fail e).withdraw ids }.handleErrorImpl e := by
  rw [setError, h]

/-- What an error does to the requests. -/
theorem setError_requests (ids : List Nat) (e : Error) (x : ContextImpl) :
    (x.setError ids e).requests = x.requests.setError e ids := by
  cases herror : x.error with
  | some e' =>
      rw [setError_some herror, Registry.setError, show x.requests.error = some e' from herror]
  | none =>
      rw [setError_none herror, Registry.setError, show x.requests.error = none from herror]
      rfl

/-- After an error there is one. -/
theorem setError_isSome (ids : List Nat) (e : Error) (x : ContextImpl) :
    (x.setError ids e).error.isSome = true := by
  cases herror : x.error with
  | some e' => rw [setError_some herror, herror]; rfl
  | none =>
      rw [setError_none herror]
      show ((x.requests.fail e).withdraw ids).error.isSome = true
      rw [(Registry.withdraw_eq ..).2]
      rfl

/-- A failed accept sets its error. -/
theorem onTransportAccept_error (ids : List Nat) (laneIdx : Nat) (e : Error) (x : ContextImpl) :
    x.onTransportAccept ids laneIdx (.error e)
      = some ({ x with accepting := x.accepting.erase laneIdx }.setError ids e) :=
  if_pos (setError_isSome ..)

/-- A failed hello sets its error. -/
theorem onHelloRead_error (ids : List Nat) (connection : Nat) (e : Error) (x : ContextImpl) :
    x.onHelloRead ids connection (.error e)
      = some ({ x with reading := x.reading.erase connection }.setError ids e) :=
  if_pos (setError_isSome ..)

/-- An accept sets an error at most. -/
theorem onTransportAccept_requests {ids : List Nat} {laneIdx : Nat} {result : Except Error Nat}
    (h : x.onTransportAccept ids laneIdx result = some x') :
    x'.requests = x.requests ∨ ∃ e, x'.requests = x.requests.setError e ids := by
  cases result with
  | error e =>
      rw [onTransportAccept_error] at h
      rw [← Option.some.inj h]
      exact .inr ⟨e, setError_requests ..⟩
  | ok connection =>
      refine .inl ?_
      change (if x.error.isSome then _ else _) = _ at h
      split at h
      · rw [← Option.some.inj h]
      · rw [← Option.some.inj h]
        rfl

/-- A hello delivers its lane, or sets an error. -/
theorem onHelloRead_requests {ids : List Nat} {connection : Nat} {result : Except Error Packet}
    (h : x.onHelloRead ids connection result = some x') :
    x'.requests = x.requests ∨ (∃ e, x'.requests = x.requests.setError e ids)
      ∨ ∃ id, x.requests.error = none ∧ x'.requests = x.requests.deliver id connection := by
  cases result with
  | error e =>
      rw [onHelloRead_error] at h
      rw [← Option.some.inj h]
      exact .inr (.inl ⟨e, setError_requests ..⟩)
  | ok packet =>
      change (if x.error.isSome then _ else _) = _ at h
      split at h
      case isTrue =>
        rw [← Option.some.inj h]
        exact .inl rfl
      case isFalse herror =>
        cases packet with
        | ServerHello => cases h
        | ClientHello id =>
            rw [← Option.some.inj h]
            exact .inr (.inr ⟨id, Option.not_isSome_iff_eq_none.mp herror, rfl⟩)

/-- Each step of a context is a step of its registry, or none. -/
theorem requests_step (s : Step) (henabled : x.enabled s) (hstep : x.step s = some x') :
    x'.requests = x.requests ∨ Registry.Step x.requests x'.requests := by
  cases s with
  | closeFromLoop ids =>
      rw [← Option.some.inj hstep, closeFromLoop, setError_requests]
      exact .inr (.setError ..)
  | registerConnectionRequest laneIdx fn =>
      rw [← Option.some.inj hstep]
      exact .inr (.register ..)
  | unregisterConnectionRequest registrationId =>
      rw [← Option.some.inj hstep]
      exact .inr (.unregister ..)
  | onTransportAccept ids laneIdx result =>
      rcases onTransportAccept_requests hstep with hsame | ⟨e, hfail⟩
      · exact .inl hsame
      · exact .inr (hfail ▸ .setError ..)
  | onHelloRead ids connection result =>
      rcases onHelloRead_requests hstep with hsame | ⟨e, hfail⟩ | ⟨id, herror, hdeliver⟩
      · exact .inl hsame
      · exact .inr (hfail ▸ .setError ..)
      · exact .inr (hdeliver ▸ .deliver _ _ _ herror)
  | rehash entries =>
      rw [← Option.some.inj hstep]
      exact .inr (.rehash _ entries henabled)

/-- Accepting on the lanes has nothing to do with the requests. -/
theorem acceptLanes_requests (lanes : List Nat) (x : ContextImpl) :
    (lanes.foldl (fun x laneIdx => x.acceptLane laneIdx) x).requests = x.requests := by
  induction lanes generalizing x with
  | nil => rfl
  | cons laneIdx rest ih => exact ih (x.acceptLane laneIdx)

/-- A run of a context is a run of its registry. -/
theorem requests_reachable {numLanes : Nat} (h : Reachable numLanes x) :
    Registry.Reachable x.requests := by
  induction h with
  | init =>
      rw [initFromLoop, acceptLanes_requests]
      exact .refl
  | step _ s henabled hstep ih =>
      rcases requests_step s henabled hstep with hsame | hone
      · rw [hsame]
        exact ih
      · exact ih.tail hone

end Mpt.ContextImpl

-- ── Delivery ─────────────────────────────────────────────────────────────────

/-- How the registrations of a listener are answered: the law of registries holds of the log,
    and the log tells who is registered and whether there is an error. -/
structure RequestDelivery {C : Type} (r : Registry Nat Error C) : Prop where
  law : Lawful r.log
  registered : ∀ id fn, r.entries.lookup id = some fn ↔ Waits r.log id fn
  failed : ∀ e, r.error = some e ↔ .failed e ∈ r.log

/-- In every run of the registry the requests are delivered as they should. -/
theorem requestDelivery_of_reachable {C : Type} {r : Registry Nat Error C}
    (h : Registry.Reachable r) : RequestDelivery r where
  law := Registry.lawful h
  registered := by
    intro id fn
    rw [← (Registry.answering_of_reachable h).lived.waits_iff id fn]
    exact List.mem_dlookup_iff r.entries.nodupKeys
  failed := fun e => ((Registry.answering_of_reachable h).failed e).symm

/-- **Connection requests are answered once, by what they asked for.** -/
theorem connection_request_delivery {listeners : List String} {x : ListenerImpl} {numLanes : Nat}
    {y : Mpt.ContextImpl} (hx : ListenerImpl.Reachable listeners x)
    (hy : Mpt.ContextImpl.Reachable numLanes y) :
    RequestDelivery x.requests ∧ RequestDelivery y.requests :=
  ⟨requestDelivery_of_reachable (ListenerImpl.requests_reachable hx),
    requestDelivery_of_reachable (Mpt.ContextImpl.requests_reachable hy)⟩

/-- A listener serves one request, is closed while another one waits, and gets a third one; an
    mpt context gets a stranger's number, and is closed together with the channel that waits. -/
theorem connection_request_delivery_closed : ∃ x y, ListenerImpl.Reachable ["uv"] x
    ∧ Mpt.ContextImpl.Reachable 1 y ∧ RequestDelivery x.requests ∧ RequestDelivery y.requests
    ∧ x.requests.log = [.registered 0 7, .hello 0 ("uv", 3), .called 0 7 (.ok ("uv", 3)),
      .registered 1 8, .failed .ListenerClosedError, .called 1 8 (.error .ListenerClosedError),
      .registered 2 9, .called 2 9 (.error .ListenerClosedError)]
    ∧ y.requests.log = [.registered 0 7, .hello 5 3, .failed .ContextClosedError,
      .unregistered 0] := by
  have hserved : ListenerImpl.Reachable ["uv"] _ := .step (.step (.step (.init false rfl)
    (.registerConnectionRequest 7) trivial rfl)
    (.onTransportAccept "uv" (.ok 3)) (List.mem_singleton_self _) rfl)
    (.onHelloRead "uv" 3 (.ok (.RequestedConnection 0))) (List.mem_singleton_self _) rfl
  have hclosed : ListenerImpl.Reachable ["uv"] _ := .step (.step (.step hserved
    (.registerConnectionRequest 8) trivial rfl) .closeFromLoop trivial rfl)
    (.registerConnectionRequest 9) trivial rfl
  have hstranger : Mpt.ContextImpl.Reachable 1 _ := .step (.step (.step .init
    (.registerConnectionRequest 0 7) trivial rfl)
    (.onTransportAccept [] 0 (.ok 3)) (List.mem_singleton_self _) rfl)
    (.onHelloRead [] 3 (.ok (.ClientHello 5))) (List.mem_singleton_self _) rfl
  have hgone : Mpt.ContextImpl.Reachable 1 _ :=
    .step hstranger (.closeFromLoop [0]) trivial rfl
  obtain ⟨hx, hy⟩ := connection_request_delivery hclosed hgone
  exact ⟨_, _, hclosed, hgone, hx, hy, rfl, rfl⟩

-- ── A client that fails ──────────────────────────────────────────────────────

/-- Only the connection that failed is dropped. -/
structure ListenerImpl.Unharmed (connection : Nat) (x x' : ListenerImpl) : Prop where
  error : x'.error = none
  dropped : x'.connectionsWaitingForHello = x.connectionsWaitingForHello.erase connection
  registrations : x'.requests.entries = x.requests.entries
  accepts : x'.acceptCallback = x.acceptCallback

/-- The same for the mpt context. -/
structure Mpt.ContextImpl.Unharmed (connection : Nat) (x x' : ContextImpl) : Prop where
  error : x'.error = none
  dropped : x'.connectionsWaitingForHello = x.connectionsWaitingForHello.erase connection
  registrations : x'.requests.entries = x.requests.entries

/-- What an error does to a listener. -/
theorem ListenerImpl.setError_effect {x : ListenerImpl} (e : Error) (h : x.error = none) :
    (x.setError e).error = some e ∧ (x.setError e).connectionsWaitingForHello = []
      ∧ (x.setError e).requests.entries = ∅ ∧ (x.setError e).acceptCallback.callbacks = []
      ∧ (x.setError e).listenersClosed = true := by
  rw [setError_none h]
  exact ⟨rfl, rfl, rfl, rfl, rfl⟩

/-- What the first error of a context leaves behind. -/
theorem Mpt.ContextImpl.setError_effect {x : ContextImpl} (ids : List Nat) (e : Error)
    (h : x.error = none) : (x.setError ids e).error = some e
      ∧ (x.setError ids e).connectionsWaitingForHello = []
      ∧ (x.setError ids e).requests.entries = ∅ ∧ (x.setError ids e).contextsClosed = true := by
  rw [setError_none h]
  refine ⟨?_, rfl, rfl, rfl⟩
  show ((x.requests.fail e).withdraw ids).error = some e
  exact (Registry.withdraw_eq ids (x.requests.fail e)).2

/-- **One bad client takes the listener down.**  In whatever state: whenever the first packet
    of a client cannot be read, everything that the listener has is gone: the connections that
    wait for their first packet, the registrations, the armed callbacks and the listeners of the
    transports.  With the mpt context it is no different. -/
theorem bad_client_fails_listener {x : ListenerImpl} {y : Mpt.ContextImpl}
    (hxerror : x.error = none) (hyerror : y.error = none) (transport : String)
    (connection lane : Nat) (ids : List Nat) (e : Error)
    (hreading : (transport, connection) ∈ x.reading) (hlane : lane ∈ y.reading) :
    (x.enabled (.onHelloRead transport connection (.error e))
      ∧ ∃ x', x.step (.onHelloRead transport connection (.error e)) = some x'
        ∧ ¬ x.Unharmed connection x' ∧ x'.error = some e ∧ x'.connectionsWaitingForHello = []
        ∧ x'.requests.entries = ∅ ∧ x'.acceptCallback.callbacks = [] ∧ x'.listenersClosed = true)
    ∧ (y.enabled (.onHelloRead ids lane (.error e))
      ∧ ∃ y', y.step (.onHelloRead ids lane (.error e)) = some y'
        ∧ ¬ y.Unharmed lane y' ∧ y'.error = some e ∧ y'.connectionsWaitingForHello = []
        ∧ y'.requests.entries = ∅ ∧ y'.contextsClosed = true) := by
  constructor
  · have heffect := @ListenerImpl.setError_effect
      { x with reading := x.reading.erase (transport, connection) } e hxerror
    refine ⟨hreading, _, ListenerImpl.onHelloRead_error .., fun hunharmed => ?_, heffect⟩
    have herror := hunharmed.error
    rw [heffect.1] at herror
    cases herror
  · have heffect := @Mpt.ContextImpl.setError_effect
      { y with reading := y.reading.erase lane } ids e hyerror
    refine ⟨hlane, _, Mpt.ContextImpl.onHelloRead_error .., fun hunharmed => ?_, heffect⟩
    have herror := hunharmed.error
    rw [heffect.1] at herror
    cases herror

/-- A listener with a registration, an armed callback and two clients, the first of which
    disconnects before it says what it wants. -/
theorem bad_client_disconnects : ∃ x x', ListenerImpl.Reachable ["uv"] x ∧ x.error = none
    ∧ x.connectionsWaitingForHello = [4, 3] ∧ x.acceptCallback.callbacks = [(0, 6)]
    ∧ x.enabled (.onHelloRead "uv" 3 (.error (.other 104)))
    ∧ x.step (.onHelloRead "uv" 3 (.error (.other 104))) = some x'
    ∧ x'.closed = [4, 3] ∧ x'.acceptCalls = [((0, 6), .error (.other 104))]
    ∧ x'.requests.log = x.requests.log
      ++ [.failed (.other 104), .called 0 7 (.error (.other 104))]
    ∧ ¬ x.Unharmed 3 x' := by
  have harmed : ListenerImpl.Reachable ["uv"] _ := .step (.step (.init false rfl)
    (.registerConnectionRequest 7) trivial rfl) (.acceptFromLoop 6) trivial rfl
  have hclients : ListenerImpl.Reachable ["uv"] _ := .step (.step harmed
    (.onTransportAccept "uv" (.ok 3)) (List.mem_singleton_self _) rfl)
    (.onTransportAccept "uv" (.ok 4)) (List.mem_singleton_self _) rfl
  refine ⟨_, _, hclients, rfl, rfl, rfl, List.mem_cons_self .., rfl, rfl, rfl, rfl, fun h => ?_⟩
  cases h.error

/-- The same of that listener, and of an mpt context with one client. -/
theorem bad_client_fails_listener_reset : ∃ x y, ListenerImpl.Reachable ["uv"] x
    ∧ Mpt.ContextImpl.Reachable 1 y
    ∧ (∃ x', x.step (.onHelloRead "uv" 3 (.error (.other 104))) = some x' ∧ ¬ x.Unharmed 3 x')
    ∧ ∃ y', y.step (.onHelloRead [] 5 (.error (.other 104))) = some y' ∧ ¬ y.Unharmed 5 y' := by
  obtain ⟨x, hx, hxerror, hreading⟩ : ∃ x, ListenerImpl.Reachable ["uv"] x ∧ x.error = none
      ∧ ("uv", 3) ∈ x.reading :=
    ⟨_, .step (.init false rfl) (.onTransportAccept "uv" (.ok 3)) (List.mem_singleton_self _) rfl,
      rfl, List.mem_singleton_self _⟩
  obtain ⟨y, hy, hyerror, hlane⟩ : ∃ y, Mpt.ContextImpl.Reachable 1 y ∧ y.error = none
      ∧ 5 ∈ y.reading :=
    ⟨_, .step .init (.onTransportAccept [] 0 (.ok 5)) (List.mem_singleton_self _) rfl,
      rfl, List.mem_singleton_self _⟩
  obtain ⟨⟨-, x', hstep, hharm, -⟩, -, y', hstep', hharm', -⟩ :=
    bad_client_fails_listener hxerror hyerror "uv" 3 5 [] (.other 104) hreading hlane
  exact ⟨x, y, hx, hy, ⟨x', hstep, hharm⟩, y', hstep', hharm'⟩

end TpListener
