import Mathlib.Tactic.Common
import Tensorpipe.StateMachineProofs
import Tensorpipe.SelectChannelsProofs

/-! # The reading half of a pipe

    The read operations of a pipe, the actions of their state machine, and the
    loop tasks that touch them.  The writing half is `PipeWriteProofs`; the
    handshake and the pipe as a whole are in `PipeImplProofs`.

    What the state machine reads of the rest of the pipe and never writes is a
    `Gate`: the error, whether the pipe is established, and its channels.

    Some fields of `ReadSide` are not in the source.  They record what the pipe
    does to the outside: `pending`, the lower-level operations it has issued and
    that have not reported; `issued`, all of them in order; `called`, the user
    callbacks it has invoked; `accepted`, the read calls it took.  `dchecks` tells
    whether every debug check so far has passed, since a release build skips them
    and goes on.

    The invariant of all this is `ReadInv`, in `PipeReadInvariantProofs`. -/

namespace TpPipe

open TpStateMachine TpMessage TpSelect

/-- An error with its text; `none` is success. -/
abbrev Error := Option String

/-- What the state machines of a pipe read and do not write. -/
structure Gate where
  error : Error := none
  established : Bool := false
  channelForDevicePair : UnorderedMap (Device × Device) String := ∅
  hasChannel : String → Bool := fun _ => false

-- ── Read operations ──────────────────────────────────────────────────────────

/-- The states of a read operation, in the order in which it goes through them. -/
inductive ReadState where
  | uninitialized
  | readingDescriptor
  | askingForAllocation
  | askingForAllocationFirstInLine
  | readingPayloadsAndReceivingTensors
  | finished
deriving DecidableEq, Repr

namespace ReadState

/-- The value of the enumerator, by which states are compared. -/
def rank : ReadState → Nat
  | uninitialized => 0
  | readingDescriptor => 1
  | askingForAllocation => 2
  | askingForAllocationFirstInLine => 3
  | readingPayloadsAndReceivingTensors => 4
  | finished => 5

instance : LE ReadState := ⟨fun a b => a.rank ≤ b.rank⟩

instance (a b : ReadState) : Decidable (a ≤ b) := inferInstanceAs (Decidable (_ ≤ _))

end ReadState

/-- The reading of one message. -/
structure ReadOperation where
  sequenceNumber : Nat
  state : ReadState := .uninitialized
  doneReadingDescriptor : Bool := false
  doneGettingAllocation : Bool := false
  numPayloadsBeingRead : Nat := 0
  numTensorsBeingReceived : Nat := 0
  hasMissingTargetDevices : Bool := false
  descriptor : Descriptor := {}
  allocation : Allocation := {}
deriving DecidableEq, Repr

instance : Operation ReadOperation ReadState where
  sequenceNumber := ReadOperation.sequenceNumber
  state := ReadOperation.state
  withState op st := { op with state := st }
  finished := .finished
  state_withState _ _ := rfl
  sequenceNumber_withState _ _ := rfl

@[simp] theorem readOperation_state (op : ReadOperation) : Operation.state op = op.state :=
  rfl
@[simp] theorem readOperation_finished : finished ReadOperation = ReadState.finished := rfl
@[simp] theorem readState_le_finished (st : ReadState) : st ≤ ReadState.finished := by
  cases st <;> decide

/-- A lower-level operation issued by the reading half, with the number of its
    message.  All but the descriptor reply capture the read operation. -/
inductive ReadCall where
  | descriptor (n : Nat)
  | payload (n payloadIdx data length : Nat)
  | tensor (channel : String) (n tensorIdx : Nat) (buffer : Buffer) (length : Nat)
  | descriptorReply (n : Nat) (reply : DescriptorReply)
deriving DecidableEq, Repr

namespace ReadCall

/-- The message a call is for. -/
def message : ReadCall → Nat
  | descriptor n => n
  | payload n _ _ _ => n
  | tensor _ n _ _ _ => n
  | descriptorReply n _ => n

/-- Whether a call reads the descriptor of a message. -/
def isDescriptor (n : Nat) : ReadCall → Bool
  | descriptor m => m == n
  | _ => false

/-- Whether a call reads a payload of a message. -/
def isPayload (n : Nat) : ReadCall → Bool
  | payload m _ _ _ => m == n
  | _ => false

/-- Whether a call receives a tensor of a message. -/
def isTensor (n : Nat) : ReadCall → Bool
  | tensor _ m _ _ _ => m == n
  | _ => false

/-- Whether the call reads a frame from the descriptor connection. -/
def isFrame : ReadCall → Bool
  | descriptor _ => true
  | payload _ _ _ _ => true
  | _ => false

/-- The operation that the callback of the call writes to, if any. -/
def captures : ReadCall → Option Nat
  | descriptor n => some n
  | payload n _ _ _ => some n
  | tensor _ n _ _ _ => some n
  | descriptorReply _ _ => none

end ReadCall

/-- A user callback invoked by the reading half.  A read callback is recorded with
    the operations outstanding at that moment. -/
inductive ReadCallback where
  | readDescriptor (n : Nat) (error : Error) (descriptor : Descriptor)
  | read (n : Nat) (error : Error) (outstanding : List ReadCall)
deriving DecidableEq, Repr

namespace ReadCallback

/-- The call of `readDescriptor` that a callback answers. -/
def descriptorNumber : ReadCallback → Option Nat
  | readDescriptor n _ _ => some n
  | read _ _ _ => none

/-- The call of `read` that a callback answers. -/
def readNumber : ReadCallback → Option Nat
  | readDescriptor _ _ _ => none
  | read n _ _ => some n

end ReadCallback

/-- What comes next on the descriptor connection. -/
inductive ConnectionState where
  | awaitingDescriptor
  | awaitingPayloads
deriving DecidableEq, Repr

/-- The fields of a pipe that belong to reading.  The iterator
    `nextMessageGettingAllocation` is kept as the number of its operation. -/
structure ReadSide where
  nextMessageBeingRead : Nat := 0
  nextReadDescriptorCallbackToCall : Nat := 0
  nextReadCallbackToCall : Nat := 0
  connectionState : ConnectionState := .awaitingDescriptor
  messageBeingReadFromConnection : Nat := 0
  nextMessageGettingAllocation : Option Nat := none
  pending : List ReadCall := []
  issued : List ReadCall := []
  called : List ReadCallback := []
  accepted : List Nat := []
  dchecks : Bool := true
deriving DecidableEq, Repr

namespace ReadSide

/-- Hand operations to the connections and channels. -/
def issue (r : ReadSide) (calls : List ReadCall) : ReadSide :=
  { r with pending := r.pending ++ calls, issued := r.issued ++ calls }

/-- A debug check. -/
def dcheck (r : ReadSide) (b : Bool) : ReadSide := { r with dchecks := r.dchecks && b }

end ReadSide

-- ── Actions ──────────────────────────────────────────────────────────────────

/-- Hands the descriptor, or the error, to the user. -/
def callReadDescriptorCallback (g : Gate) (r : ReadSide) (op : ReadOperation) :
    Outcome (ReadSide × ReadOperation) :=
  let r := r.dcheck (op.sequenceNumber == r.nextReadDescriptorCallbackToCall)
  .returns
    ({ r with
        nextReadDescriptorCallbackToCall := r.nextReadDescriptorCallbackToCall + 1
        called := r.called ++ [.readDescriptor op.sequenceNumber g.error op.descriptor] },
      op)

/-- Tells the user that the message was read, or the error. -/
def callReadCallback (g : Gate) (r : ReadSide) (op : ReadOperation) :
    Outcome (ReadSide × ReadOperation) :=
  let r := r.dcheck (op.sequenceNumber == r.nextReadCallbackToCall)
  .returns
    ({ r with
        nextReadCallbackToCall := r.nextReadCallbackToCall + 1
        called := r.called ++ [.read op.sequenceNumber g.error r.pending] },
      op)

/-- Reads the descriptor of a message. -/
def readDescriptorOfMessage (r : ReadSide) (op : ReadOperation) :
    Outcome (ReadSide × ReadOperation) :=
  let r := r.dcheck (r.connectionState == .awaitingDescriptor)
  let r := r.dcheck (r.messageBeingReadFromConnection == op.sequenceNumber)
  .returns ({ r.issue [.descriptor op.sequenceNumber] with
    connectionState := .awaitingPayloads }, op)

/-- Waits for the user to call `read` for the message. -/
def expectReadCall (r : ReadSide) (op : ReadOperation) :
    Outcome (ReadSide × ReadOperation) :=
  let r := r.dcheck r.nextMessageGettingAllocation.isNone
  .returns ({ r with nextMessageGettingAllocation := some op.sequenceNumber }, op)

/-- The reads of the payloads, one after the other. -/
def payloadReads (op : ReadOperation) : List ReadCall :=
  (op.allocation.payloads.zip op.descriptor.payloads).zipIdx.map (fun p =>
    .payload op.sequenceNumber p.2 p.1.1.data p.1.2.length)

/-- Reads the payloads of a message. -/
def readPayloadsOfMessage (r : ReadSide) (op : ReadOperation) :
    Outcome (ReadSide × ReadOperation) :=
  let r := r.dcheck (r.connectionState == .awaitingPayloads)
  let r := r.dcheck (r.messageBeingReadFromConnection == op.sequenceNumber)
  .returns
    ({ r.issue (payloadReads op) with
        connectionState := .awaitingDescriptor
        messageBeingReadFromConnection := r.messageBeingReadFromConnection + 1 },
      { op with
        numPayloadsBeingRead := op.numPayloadsBeingRead + (payloadReads op).length })

/-- The loop over the tensors.  A device pair without a channel throws, and the
    tensors before it have already been handed to their channels. -/
def receiveTensorsLoop (g : Gate) :
    List ((Allocation.Tensor × Descriptor.Tensor) × Nat) → ReadSide → ReadOperation →
    Outcome (ReadSide × ReadOperation)
  | [], r, op => .returns (r, op)
  | ((tensor, tensorDescriptor), tensorIdx) :: rest, r, op =>
      match g.channelForDevicePair.lookup
          (tensor.buffer.device, tensorDescriptor.sourceDevice) with
      | none => .throws (r, op)
      | some channelName =>
          if g.hasChannel channelName = false then .throws (r, op)
          else receiveTensorsLoop g rest
            (r.issue [.tensor channelName op.sequenceNumber tensorIdx tensor.buffer
              tensorDescriptor.length])
            { op with numTensorsBeingReceived := op.numTensorsBeingReceived + 1 }

/-- Receives the tensors of a message. -/
def receiveTensorsOfMessage (g : Gate) (r : ReadSide) (op : ReadOperation) :
    Outcome (ReadSide × ReadOperation) :=
  let r := r.dcheck (op.descriptor.tensors.length == op.allocation.tensors.length)
  receiveTensorsLoop g (op.allocation.tensors.zip op.descriptor.tensors).zipIdx r op

/-- Writes the devices that the user has chosen. -/
def writeDescriptorReplyOfMessage (r : ReadSide) (op : ReadOperation) :
    Outcome (ReadSide × ReadOperation) :=
  let r := r.dcheck op.hasMissingTargetDevices
  .returns (r.issue [.descriptorReply op.sequenceNumber
    (makeDescriptorReplyForMessage op.descriptor op.allocation)], op)

-- ── The transitions ──────────────────────────────────────────────────────────

/-- The attempts of `advanceReadOperation`, in the order in which the code makes them. -/
def advanceReadOperation (g : Gate) : List (Transition ReadSide ReadOperation ReadState) :=
  [ -- Needs to go after previous op to ensure ordering of callback invocations.
    { source := .uninitialized
      target := .askingForAllocation
      cond := fun _ prevOpState =>
        g.error.isSome && decide (.askingForAllocation ≤ prevOpState)
      actions := [callReadDescriptorCallback g] },
    -- The wire has the descriptor of op N, then its payloads, then the descriptor
    -- of op N+1, so the previous op must have scheduled its payload reads.
    { source := .uninitialized
      target := .readingDescriptor
      cond := fun _ prevOpState =>
        g.error.isNone && g.established
          && decide (.readingPayloadsAndReceivingTensors ≤ prevOpState)
      actions := [readDescriptorOfMessage] },
    { source := .readingDescriptor
      target := .askingForAllocation
      cond := fun op prevOpState =>
        op.doneReadingDescriptor && decide (.askingForAllocation ≤ prevOpState)
      actions := [callReadDescriptorCallback g] },
    -- Only one operation at a time may expect a read call.
    { source := .askingForAllocation
      target := .askingForAllocationFirstInLine
      cond := fun op prevOpState =>
        op.doneReadingDescriptor
          && decide (.readingPayloadsAndReceivingTensors ≤ prevOpState)
      actions := [expectReadCall] },
    { source := .askingForAllocationFirstInLine
      target := .finished
      cond := fun op prevOpState =>
        g.error.isSome && op.doneGettingAllocation && decide (.finished ≤ prevOpState)
      actions := [callReadCallback g] },
    -- All target devices were provided by the sender: no reply to write.
    { source := .askingForAllocationFirstInLine
      target := .readingPayloadsAndReceivingTensors
      cond := fun op _ =>
        g.error.isNone && op.doneGettingAllocation && !op.hasMissingTargetDevices
      actions := [readPayloadsOfMessage, receiveTensorsOfMessage g] },
    { source := .askingForAllocationFirstInLine
      target := .readingPayloadsAndReceivingTensors
      cond := fun op _ =>
        g.error.isNone && op.doneGettingAllocation && op.hasMissingTargetDevices
      actions := [readPayloadsOfMessage, writeDescriptorReplyOfMessage,
        receiveTensorsOfMessage g] },
    { source := .readingPayloadsAndReceivingTensors
      target := .finished
      cond := fun op prevOpState =>
        op.numPayloadsBeingRead == 0 && op.numTensorsBeingReceived == 0
          && decide (.finished ≤ prevOpState)
      actions := [callReadCallback g] } ]

-- ── Tasks ────────────────────────────────────────────────────────────────────

/-- The reading half: its fields and its deque. -/
abbrev Reads := ReadSide × List ReadOperation

/-- A call of `readDescriptor`. -/
def readDescriptorFromLoop (g : Gate) (x : Reads) : Outcome Reads :=
  let n := x.1.nextMessageBeingRead
  advanceOperation (advanceReadOperation g) { x.1 with nextMessageBeingRead := n + 1 }
    (x.2 ++ [{ sequenceNumber := n }]) n

/-- Throws if no message expects an allocation or if this one does not fit. -/
def readFromLoop (g : Gate) (allocation : Allocation) (x : Reads) : Outcome Reads :=
  match x.1.nextMessageGettingAllocation with
  | none => .throws x
  | some n =>
      let r := { x.1 with nextMessageGettingAllocation := none }
      match x.2.find? (fun op => op.sequenceNumber == n) with
      | none => .throws (r, x.2)
      | some op =>
          if checkAllocationCompatibility op.descriptor allocation = false then
            .throws (r, x.2)
          else
            advanceOperation (advanceReadOperation g)
              { r with accepted := r.accepted ++ [n] }
              (modifyOperation n (fun op => { op with
                allocation := allocation, doneGettingAllocation := true }) x.2) n

/-- What the callback of a lower-level operation does to the operation it captured.
    The gate is the one after the error of the callback, if any, was handled. -/
def onReadDone (g : Gate) (call : ReadCall) (descriptor : Descriptor) (x : Reads) :
    Outcome Reads :=
  let r := { x.1 with pending := x.1.pending.erase call }
  match call with
  | .descriptor n =>
      advanceOperation (advanceReadOperation g) r
        (modifyOperation n (fun op =>
          if g.error.isNone then
            { op with
              doneReadingDescriptor := true
              descriptor := descriptor
              hasMissingTargetDevices :=
                op.hasMissingTargetDevices || descriptorHasMissingTargetDevices descriptor }
          else { op with doneReadingDescriptor := true }) x.2) n
  | .payload n _ _ _ =>
      advanceOperation (advanceReadOperation g) r
        (modifyOperation n (fun op => { op with
          numPayloadsBeingRead := op.numPayloadsBeingRead - 1 }) x.2) n
  | .tensor _ n _ _ _ =>
      advanceOperation (advanceReadOperation g) r
        (modifyOperation n (fun op => { op with
          numTensorsBeingReceived := op.numTensorsBeingReceived - 1 }) x.2) n
  | .descriptorReply _ _ => .returns (r, x.2)

/-- Advances the reads from the first one on. -/
def advanceAllReads (g : Gate) (x : Reads) : Outcome Reads :=
  advanceAllOperations (advanceReadOperation g) x.1 x.2

end TpPipe
