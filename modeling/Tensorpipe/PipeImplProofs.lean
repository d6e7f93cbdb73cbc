import Mathlib.Data.Finmap
import Tensorpipe.PipeReadInvariantProofs
import Tensorpipe.PipeWriteInvariantProofs

/-! # The pipe

    The two halves, the error, and the handshake that leads to the established
    state, with every task that runs on the loop: the user's calls, the callbacks
    of the lower-level operations, and the connection requests that the listener
    grants.

    A callback is wrapped: the error it reports goes through `setError` first,
    and only then does its own code run.  A lower-level operation therefore counts
    as outstanding until its callback has run on the loop.

    Where the source dereferences an iterator or an index that a debug check has
    just found missing, the model throws.

    Maps whose iteration order nothing depends on are finite maps, so that two
    states with the same contents are equal. -/

namespace TpPipe

open TpStateMachine TpMessage TpSelect

-- ── The handshake data ───────────────────────────────────────────────────────

/-- The states of a pipe, up to the end of the handshake. -/
inductive PipeState where
  | initializing
  | clientAboutToSendHelloAndBrochure
  | serverWaitingForBrochure
  | clientWaitingForBrochureAnswer
  | serverWaitingForConnections
  | established
deriving DecidableEq, Repr

/-- The two connections of a pipe. -/
inductive ConnectionId where
  | descriptor
  | descriptorReply
deriving DecidableEq, Repr

/-- Whether a pipe connects or listens. -/
inductive Endpoint where
  | connect
  | listen
deriving DecidableEq, Repr

/-- A transport connection, by identity. -/
abbrev Connection := Nat

/-- An unordered map, up to its iteration order. -/
abbrev FiniteMap (κ ν : Type) := Finmap (fun _ : κ => ν)

/-- A channel, as its context creates it. -/
structure Channel where
  connections : List Connection
  endpoint : Endpoint
deriving DecidableEq, Repr

/-- What the client offers. -/
structure Brochure where
  transportDomainDescriptors : UnorderedMap String String := ∅
  channelDeviceDescriptors : UnorderedMap String (UnorderedMap Device String) := ∅

/-- What the server has selected of it. -/
structure BrochureAnswer where
  transport : String := ""
  address : String := ""
  transportRegistrationIds : UnorderedMap ConnectionId Nat := ∅
  transportDomainDescriptor : String := ""
  channelRegistrationIds : UnorderedMap String (List Nat) := ∅
  channelDeviceDescriptors : UnorderedMap String (UnorderedMap Device String) := ∅
  channelForDevicePair : UnorderedMap (Device × Device) String := ∅

/-- A lower-level operation issued by the handshake. -/
inductive HandshakeCall where
  | writeSpontaneousConnection
  | writeBrochure (brochure : Brochure)
  | readBrochureAnswer
  | readBrochure
  | writeBrochureAnswer (answer : BrochureAnswer)
  | writeRequestedConnection (connection : Connection) (registrationId : Nat)

/-- What a connection requested from the listener is for. -/
inductive ConnectionRequest where
  | transport (connId : ConnectionId)
  | channel (channelName : String) (connId : Nat)
deriving DecidableEq, Repr

/-- The part of the listener that a pipe uses: its addresses, the next registration
    id, and the requests of this pipe that may still report. -/
structure ListenerImpl where
  addresses : UnorderedMap String String := ∅
  nextConnectionRequestRegistrationId : Nat := 0
  connectionRequestRegistrations : FiniteMap Nat ConnectionRequest := ∅

/-- A pipe: its handshake, its two halves and its error. -/
structure PipeImpl where
  state : PipeState := .initializing
  error : Error := none
  enrolled : Bool := false
  listener : ListenerImpl := {}
  transport : String := ""
  descriptorConnection : Connection
  descriptorReplyConnection : Option Connection := none
  channels : FiniteMap String Channel := ∅
  channelForDevicePair : UnorderedMap (Device × Device) String := ∅
  registrationIds : FiniteMap ConnectionId Nat := ∅
  channelRegistrationIds : FiniteMap String (List Nat) := ∅
  channelReceivedConnections : FiniteMap String (List (Option Connection)) := ∅
  nextConnection : Connection := 0
  handshake : List HandshakeCall := []
  dchecks : Bool := true
  reads : Reads := ({}, [])
  writes : Writes := ({}, [])

namespace PipeImpl

/-- What the state machines see of the pipe. -/
def gate (p : PipeImpl) : Gate where
  error := p.error
  established := p.state == .established
  channelForDevicePair := p.channelForDevicePair
  hasChannel := fun channelName => (p.channels.lookup channelName).isSome

/-- A debug check of the handshake. -/
def dcheck (p : PipeImpl) (b : Bool) : PipeImpl := { p with dchecks := p.dchecks && b }

/-- Issue an operation of the handshake. -/
def issue (p : PipeImpl) (call : HandshakeCall) : PipeImpl :=
  { p with handshake := p.handshake ++ [call] }

/-- Open a connection through a transport. -/
def connect (p : PipeImpl) : PipeImpl × Connection :=
  ({ p with nextConnection := p.nextConnection + 1 }, p.nextConnection)

-- ── The two halves ───────────────────────────────────────────────────────────

/-- A task of the reading half, within the pipe. -/
def onReads (task : Gate → Reads → Outcome Reads) (p : PipeImpl) : Outcome PipeImpl :=
  (task p.gate p.reads).map (fun x => { p with reads := x })

/-- A task of the writing half, within the pipe. -/
def onWrites (task : Gate → Writes → Outcome Writes) (p : PipeImpl) : Outcome PipeImpl :=
  (task p.gate p.writes).map (fun x => { p with writes := x })

/-- Advance all operations, the reads first. -/
def advanceAll (p : PipeImpl) : Outcome PipeImpl :=
  (p.onReads advanceAllReads).bind (fun p => p.onWrites advanceAllWrites)

-- ── Errors ───────────────────────────────────────────────────────────────────

/-- What the first error does: nothing is waited for, and all operations advance. -/
def handleError (p : PipeImpl) : Outcome PipeImpl :=
  (advanceAll { p with
    registrationIds := ∅
    channelRegistrationIds := ∅
    channelReceivedConnections := ∅ }).bind (fun p => .returns { p with enrolled := false })

/-- Does not overwrite an error that is already set. -/
def setError (error : Error) (p : PipeImpl) : Outcome PipeImpl :=
  if p.error.isSome || error.isNone then .returns p
  else handleError { p with error := error }

-- ── The handshake ────────────────────────────────────────────────────────────

/-- Whether a connection is still to arrive. -/
def pendingRegistrations (p : PipeImpl) : Bool :=
  decide (p.registrationIds ≠ ∅) || decide (p.channelRegistrationIds ≠ ∅)

/-- The pipe is established: what the operations were waiting for is there. -/
def establish (p : PipeImpl) : Outcome PipeImpl :=
  advanceAll { p with state := .established }

/-- The offer of a context. -/
def makeBrochure (context : ContextImpl) : Brochure where
  transportDomainDescriptors :=
    context.transportsByPriority.entries.foldl
      (fun acc e => acc.insert e.name e.context.domainDescriptor) ∅
  channelDeviceDescriptors := channelDeviceDescriptors context.channelsByPriority

/-- What a client writes and reads first. -/
def startClient (context : ContextImpl) (p : PipeImpl) : PipeImpl :=
  let p := p.issue .writeSpontaneousConnection
  let p := p.issue (.writeBrochure (makeBrochure context))
  { p.issue .readBrochureAnswer with state := .clientWaitingForBrochureAnswer }

/-- A closed context leaves the pipe with an error and nothing else. -/
def initFromLoop (context : ContextImpl) (contextClosed : Bool) (p : PipeImpl) : PipeImpl :=
  if contextClosed then { p with error := some "pipe closed" }
  else
    match p.state with
    | .clientAboutToSendHelloAndBrochure => startClient context { p with enrolled := true }
    | .serverWaitingForBrochure => { p.issue .readBrochure with enrolled := true }
    | _ => { p with enrolled := true }

/-- Ask the listener for a connection. -/
def registerConnectionRequest (request : ConnectionRequest) (p : PipeImpl) :
    PipeImpl × Nat :=
  let token := p.listener.nextConnectionRequestRegistrationId
  ({ p with
      listener := { p.listener with
        nextConnectionRequestRegistrationId := token + 1
        connectionRequestRegistrations :=
          p.listener.connectionRequestRegistrations.insert token request } },
    token)

/-- Asks the listener for a connection of the pipe. -/
def registerTransport (connId : ConnectionId) (p : PipeImpl) : PipeImpl × Nat :=
  let p := p.dcheck (p.registrationIds.lookup connId).isNone
  let (p, token) := p.registerConnectionRequest (.transport connId)
  ({ p with registrationIds := p.registrationIds.insert connId token }, token)

/-- The requests for the connections of a channel, by increasing connection id. -/
def registerChannelLoop (channelName : String) : List Nat → PipeImpl → PipeImpl × List Nat
  | [], p => (p, [])
  | connId :: rest, p =>
      let (p, token) := p.registerConnectionRequest (.channel channelName connId)
      let (p, tokens) := registerChannelLoop channelName rest p
      (p, token :: tokens)

/-- Asks the listener for the connections of a channel. -/
def registerChannel (channelContext : ChannelContext) (channelName : String)
    (p : PipeImpl) : PipeImpl × List Nat :=
  let (p, tokens) :=
    registerChannelLoop channelName (List.range channelContext.numConnectionsNeeded) p
  ({ p with
      channelRegistrationIds := p.channelRegistrationIds.insert channelName tokens
      channelReceivedConnections := p.channelReceivedConnections.insert channelName
        (List.replicate channelContext.numConnectionsNeeded none) },
    tokens)

/-- The loop over the selected channels, on the server.  An unknown channel throws. -/
def registerChannelsLoop (context : ContextImpl) :
    List ((_ : String) × UnorderedMap Device String) → PipeImpl × BrochureAnswer →
    Outcome (PipeImpl × BrochureAnswer)
  | [], x => .returns x
  | ⟨channelName, deviceDescriptors⟩ :: rest, (p, answer) =>
      match context.getChannel channelName with
      | none => .throws (p, answer)
      | some channelContext =>
          let (p, tokens) := p.registerChannel channelContext channelName
          registerChannelsLoop context rest (p, { answer with
            channelRegistrationIds :=
              answer.channelRegistrationIds.insert channelName tokens
            channelDeviceDescriptors :=
              answer.channelDeviceDescriptors.insert channelName deviceDescriptors })

/-- The transports of the answer: the descriptor connection is replaced only if the
    selected transport is another one, the reply connection is always requested. -/
def registerTransports (transport : SelectedTransport) (p : PipeImpl) :
    PipeImpl × BrochureAnswer :=
  let (p, ids) :=
    if transport.name ≠ p.transport then
      let (p, token) := registerTransport .descriptor { p with transport := transport.name }
      (p, (∅ : UnorderedMap ConnectionId Nat).insert .descriptor token)
    else (p, ∅)
  let (p, token) := p.registerTransport .descriptorReply
  (p, {
    transport := transport.name
    address := transport.address
    transportRegistrationIds := ids.insert .descriptorReply token
    transportDomainDescriptor := transport.domainDescriptor })

/-- Everything the server does with a brochure before it answers. -/
def prepareBrochureAnswer (context : ContextImpl) (brochure : Brochure) (p : PipeImpl) :
    Outcome (PipeImpl × BrochureAnswer) :=
  let p := p.dcheck (p.state == .serverWaitingForBrochure)
  match selectTransport brochure.transportDomainDescriptors p.listener.addresses
      context.transportsByPriority.entries with
  | none => .throws (p, {})
  | some transport =>
      let (p, answer) := p.registerTransports transport
      let selectedChannels :=
        selectChannels context.channelsByPriority brochure.channelDeviceDescriptors
      registerChannelsLoop context selectedChannels.descriptorsMap.entries
        ({ p with channelForDevicePair := selectedChannels.channelForDevicePair },
          { answer with channelForDevicePair := selectedChannels.channelForDevicePair })

/-- The brochure of the client was read. -/
def onReadWhileServerWaitingForBrochure (context : ContextImpl) (brochure : Brochure)
    (p : PipeImpl) : Outcome PipeImpl :=
  (p.prepareBrochureAnswer context brochure).chain Prod.fst (fun x =>
    let p := x.1.issue (.writeBrochureAnswer x.2)
    if p.pendingRegistrations = false then p.establish
    else .returns { p with state := .serverWaitingForConnections })

/-- Open a connection that the server has asked for. -/
def openConnection (registrationId : Nat) (p : PipeImpl) : PipeImpl × Connection :=
  let (p, connection) := p.connect
  (p.issue (.writeRequestedConnection connection registrationId), connection)

/-- A new descriptor connection, if the server picked another transport. -/
def openDescriptorConnection (answer : BrochureAnswer) (p : PipeImpl) : Outcome PipeImpl :=
  if answer.transport = p.transport then .returns p
  else match answer.transportRegistrationIds.lookup .descriptor with
    | none => .throws (p.dcheck false)
    | some token =>
        let (p, connection) := p.openConnection token
        .returns { p with transport := answer.transport, descriptorConnection := connection }

/-- Opens the connection of the replies, which the answer must have registered. -/
def openDescriptorReplyConnection (answer : BrochureAnswer) (p : PipeImpl) :
    Outcome PipeImpl :=
  match answer.transportRegistrationIds.lookup .descriptorReply with
  | none => .throws (p.dcheck false)
  | some token =>
      let (p, connection) := p.openConnection token
      .returns { p with descriptorReplyConnection := some connection }

/-- The connections of one channel, by increasing connection id. -/
def openChannelLoop (registrationIds : List Nat) : List Nat → PipeImpl →
    Outcome (PipeImpl × List Connection)
  | [], p => .returns (p, [])
  | connId :: rest, p =>
      match registrationIds[connId]? with
      | none => .throws (p, [])
      | some token =>
          let (p, connection) := p.openConnection token
          (openChannelLoop registrationIds rest p).map (fun x => (x.1, connection :: x.2))

/-- A channel already in the map is left alone. -/
def emplaceChannel (channelName : String) (channel : Channel) (p : PipeImpl) : PipeImpl :=
  if channelName ∈ p.channels then p
  else { p with channels := p.channels.insert channelName channel }

/-- The loop over the selected channels, on the client. -/
def openChannelsLoop (context : ContextImpl) (answer : BrochureAnswer) :
    List String → PipeImpl → Outcome PipeImpl
  | [], p => .returns p
  | channelName :: rest, p =>
      match context.getChannel channelName,
          answer.channelRegistrationIds.lookup channelName with
      | some channelContext, some registrationIds =>
          let p := p.dcheck (channelContext.numConnectionsNeeded == registrationIds.length)
          (openChannelLoop registrationIds
              (List.range channelContext.numConnectionsNeeded) p).chain Prod.fst (fun x =>
            openChannelsLoop context answer rest
              (x.1.emplaceChannel channelName ⟨x.2, .connect⟩))
      | _, _ => .throws p

/-- The selection is stored before it is compared with the server's. -/
def prepareChannels (context : ContextImpl) (answer : BrochureAnswer) (p : PipeImpl) :
    Outcome PipeImpl :=
  let selectedChannels :=
    selectChannels context.channelsByPriority answer.channelDeviceDescriptors
  let p := { p with channelForDevicePair := selectedChannels.channelForDevicePair }
  if consistentChannelSelection answer.channelForDevicePair
      selectedChannels.channelForDevicePair = false then .throws p
  else openChannelsLoop context answer selectedChannels.descriptorsMap.keys p

/-- The answer of the server was read. -/
def onReadWhileClientWaitingForBrochureAnswer (context : ContextImpl)
    (answer : BrochureAnswer) (p : PipeImpl) : Outcome PipeImpl :=
  let p := p.dcheck (p.state == .clientWaitingForBrochureAnswer)
  match context.getTransport answer.transport with
  | none => .throws p
  | some transportContext =>
      let p := p.dcheck
        (transportContext.canCommunicateWithRemote answer.transportDomainDescriptor)
      (((p.openDescriptorConnection answer).bind
        (openDescriptorReplyConnection answer)).bind
        (prepareChannels context answer)).bind establish

/-- Leave the handshake if nothing more is expected. -/
def establishIfComplete (p : PipeImpl) : Outcome PipeImpl :=
  if p.pendingRegistrations = false then p.establish else .returns p

/-- Store a received transport connection in the slot it was registered for. -/
def setTransportConnection (connId : ConnectionId) (connection : Connection)
    (p : PipeImpl) : PipeImpl :=
  match connId with
  | .descriptor => { p with descriptorConnection := connection }
  | .descriptorReply => { p with descriptorReplyConnection := some connection }

/-- A connection of the pipe has arrived. -/
def onAcceptWhileServerWaitingForConnection (connId : ConnectionId)
    (receivedTransport : String) (receivedConnection : Connection) (p : PipeImpl) :
    Outcome PipeImpl :=
  let p := p.dcheck (p.state == .serverWaitingForConnections)
  match p.registrationIds.lookup connId with
  | none => .throws (p.dcheck false)
  | some _ =>
      let p := { p with registrationIds := p.registrationIds.erase connId }
      let p := p.dcheck (p.transport == receivedTransport)
      (p.setTransportConnection connId receivedConnection).establishIfComplete

/-- Once its last connection is there, a channel is created and its registration and
    its received connections are dropped. -/
def createChannel (context : ContextImpl) (channelName : String)
    (connections : List Connection) (p : PipeImpl) : Outcome PipeImpl :=
  match context.getChannel channelName with
  | none => .throws p
  | some _ =>
      let p := { p with
        channelRegistrationIds := p.channelRegistrationIds.erase channelName
        channelReceivedConnections := p.channelReceivedConnections.erase channelName }
      let p := p.dcheck (p.channels.lookup channelName).isNone
      (p.emplaceChannel channelName ⟨connections, .listen⟩).establishIfComplete

/-- A connection of a channel has arrived. -/
def onAcceptWhileServerWaitingForChannel (context : ContextImpl) (channelName : String)
    (connId : Nat) (receivedTransport : String) (receivedConnection : Connection)
    (p : PipeImpl) : Outcome PipeImpl :=
  let p := p.dcheck (p.state == .serverWaitingForConnections)
  let p := p.dcheck (p.transport == receivedTransport)
  match p.channelRegistrationIds.lookup channelName,
      p.channelReceivedConnections.lookup channelName with
  | some registrationIds, some received =>
      if registrationIds.length ≤ connId ∨ received.length ≤ connId then .throws p
      else
        let received := received.set connId (some receivedConnection)
        let p := { p with channelReceivedConnections :=
          p.channelReceivedConnections.insert channelName received }
        if received.any Option.isNone then .returns p
        else p.createChannel context channelName (received.filterMap id)
  | _, _ => .throws (p.dcheck false)

-- ── Tasks ────────────────────────────────────────────────────────────────────

/-- What can happen on the loop of a pipe.  An operation of the handshake is named by
    its place among the outstanding ones; the context is the one at that moment. -/
inductive Task where
  | readDescriptor
  | read (allocation : Allocation)
  | write (message : Message)
  | close
  | readDone (call : ReadCall) (error : Error) (descriptor : Descriptor)
  | writeDone (call : WriteCall) (error : Error) (reply : DescriptorReply)
  | handshakeDone (index : Nat) (error : Error) (context : ContextImpl)
      (brochure : Brochure) (answer : BrochureAnswer)
  | accepted (registrationId : Nat) (error : Error) (context : ContextImpl)
      (transport : String) (connection : Connection)

/-- The callback of an operation of the handshake: its code is skipped on error. -/
def unlessError (f : PipeImpl → Outcome PipeImpl) (p : PipeImpl) : Outcome PipeImpl :=
  if p.error.isNone then f p else .returns p

/-- The connection request of a registration id, granted. -/
def onConnectionRequest (context : ContextImpl) (request : ConnectionRequest)
    (transport : String) (connection : Connection) : PipeImpl → Outcome PipeImpl :=
  match request with
  | .transport connId =>
      onAcceptWhileServerWaitingForConnection connId transport connection
  | .channel channelName connId =>
      onAcceptWhileServerWaitingForChannel context channelName connId transport connection

/-- A request that reports is no longer among those that may. -/
def takeRequest (registrationId : Nat) (p : PipeImpl) : PipeImpl :=
  { p with listener := { p.listener with
    connectionRequestRegistrations :=
      p.listener.connectionRequestRegistrations.erase registrationId } }

/-- What an operation of the handshake leads to. -/
def onHandshakeDone (context : ContextImpl) (brochure : Brochure)
    (answer : BrochureAnswer) (call : HandshakeCall) : PipeImpl → Outcome PipeImpl :=
  match call with
  | .readBrochure => onReadWhileServerWaitingForBrochure context brochure
  | .readBrochureAnswer => onReadWhileClientWaitingForBrochureAnswer context answer
  | _ => .returns

/-- Run a task on the loop. -/
def run (task : Task) (p : PipeImpl) : Outcome PipeImpl :=
  match task with
  | .readDescriptor => p.onReads readDescriptorFromLoop
  | .read allocation => p.onReads (fun g => readFromLoop g allocation)
  | .write message => p.onWrites (fun g => writeFromLoop g message)
  | .close => p.setError (some "pipe closed")
  | .readDone call error descriptor =>
      (p.setError error).bind (onReads (fun g => onReadDone g call descriptor))
  | .writeDone call error reply =>
      (p.setError error).bind (onWrites (fun g => onWriteDone g call reply))
  | .handshakeDone index error context brochure answer =>
      match p.handshake[index]? with
      | none => .returns p
      | some call =>
          (setError error { p with handshake := p.handshake.eraseIdx index }).bind
            (unlessError (onHandshakeDone context brochure answer call))
  | .accepted registrationId error context transport connection =>
      match p.listener.connectionRequestRegistrations.lookup registrationId with
      | none => .returns p
      | some request =>
          ((p.takeRequest registrationId).setError error).bind
            (unlessError (onConnectionRequest context request transport connection))

-- ── Runs ─────────────────────────────────────────────────────────────────────

/-- A callback belongs to an operation that is outstanding. -/
def Allowed (task : Task) (p : PipeImpl) : Prop :=
  match task with
  | .readDone call _ _ => call ∈ p.reads.1.pending
  | .writeDone call _ _ => call ∈ p.writes.1.pending
  | _ => True

/-- A read call is legal if an allocation is expected and this one fits. -/
def Legal (task : Task) (p : PipeImpl) : Prop :=
  match task with
  | .read allocation => ∃ op ∈ p.reads.2,
      p.reads.1.nextMessageGettingAllocation = some op.sequenceNumber
        ∧ checkAllocationCompatibility op.descriptor allocation = true
  | _ => True

/-- A pipe as the constructors make it: for a client, with the connection it opened;
    for a server, with the connection the listener accepted, and no request yet. -/
def client (transport : String) (connection : Connection) : PipeImpl where
  state := .clientAboutToSendHelloAndBrochure
  transport := transport
  descriptorConnection := connection
  nextConnection := connection + 1

/-- A pipe that the listener made for a connection. -/
def server (listener : ListenerImpl) (transport : String) (connection : Connection) :
    PipeImpl where
  state := .serverWaitingForBrochure
  listener := { listener with connectionRequestRegistrations := ∅ }
  transport := transport
  descriptorConnection := connection

/-- The states of a pipe between two tasks of its loop, in a run whose tasks all meet
    `C`.  The first task is `initFromLoop`, and every task returns: a task that throws
    never gives the loop back. -/
inductive Reachable (C : Task → PipeImpl → Prop) : PipeImpl → Prop where
  | client (transport : String) (connection : Connection) (context : ContextImpl)
      (contextClosed : Bool) :
      Reachable C ((client transport connection).initFromLoop context contextClosed)
  | server (listener : ListenerImpl) (transport : String) (connection : Connection)
      (context : ContextImpl) (contextClosed : Bool) :
      Reachable C ((server listener transport connection).initFromLoop context contextClosed)
  | step {p q : PipeImpl} (task : Task) (hp : Reachable C p) (hallowed : Allowed task p)
      (hC : C task p) (hrun : p.run task = .returns q) : Reachable C q

end PipeImpl

end TpPipe
