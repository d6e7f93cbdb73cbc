import Tensorpipe.PipeReadProofs

/-! # The writing half of a pipe

    The write operations of a pipe, the actions of their state machine, and the
    loop tasks that touch them, in the shape of `PipeReadProofs`.

    Two places of the source have undefined behaviour where the model throws: a
    descriptor reply with too few devices, and a tensor sent without a target
    device.  The invariant (`PipeWriteInvariantProofs`) rules the second one out;
    the first is up to the peer, and so is the debug check on the size of the
    reply, which has a flag of its own, `replyDchecks`. -/

namespace TpPipe

open TpStateMachine TpMessage TpSelect

-- ── Write operations ─────────────────────────────────────────────────────────

/-- The states of a write operation, in the order in which it goes through them. -/
inductive WriteState where
  | uninitialized
  | writingPayloadsAndReadingTargetDevices
  | writingPayloadsAndSendingTensors
  | finished
deriving DecidableEq, Repr

namespace WriteState

/-- The value of the enumerator, by which states are compared. -/
def rank : WriteState → Nat
  | uninitialized => 0
  | writingPayloadsAndReadingTargetDevices => 1
  | writingPayloadsAndSendingTensors => 2
  | finished => 3

instance : LE WriteState := ⟨fun a b => a.rank ≤ b.rank⟩

instance (a b : WriteState) : Decidable (a ≤ b) := inferInstanceAs (Decidable (_ ≤ _))

end WriteState

/-- The writing of one message. -/
structure WriteOperation where
  sequenceNumber : Nat
  state : WriteState := .uninitialized
  doneReadingDescriptorReply : Bool := false
  numPayloadsBeingWritten : Nat := 0
  numTensorsBeingSent : Nat := 0
  hasMissingTargetDevices : Bool := false
  message : Message
  tensors : List SentTensor
deriving DecidableEq, Repr

instance : Operation WriteOperation WriteState where
  sequenceNumber := WriteOperation.sequenceNumber
  state := WriteOperation.state
  withState op st := { op with state := st }
  finished := .finished
  state_withState _ _ := rfl
  sequenceNumber_withState _ _ := rfl

@[simp] theorem writeOperation_state (op : WriteOperation) :
    Operation.state op = op.state := rfl
@[simp] theorem writeOperation_finished : finished WriteOperation = WriteState.finished :=
  rfl
@[simp] theorem writeState_le_finished (st : WriteState) : st ≤ WriteState.finished := by
  cases st <;> decide

/-- A lower-level operation issued by the writing half, with the number of its
    message.  All but the descriptor capture the write operation. -/
inductive WriteCall where
  | descriptor (n : Nat) (descriptor : Descriptor)
  | payload (n payloadIdx data length : Nat)
  | tensor (channel : String) (n tensorIdx : Nat) (buffer : Buffer) (length : Nat)
  | descriptorReply (n : Nat)
deriving DecidableEq, Repr

namespace WriteCall

/-- The message a call is for. -/
def message : WriteCall → Nat
  | descriptor n _ => n
  | payload n _ _ _ => n
  | tensor _ n _ _ _ => n
  | descriptorReply n => n

/-- Whether a call reads the reply for a message. -/
def isDescriptorReply (n : Nat) : WriteCall → Bool
  | descriptorReply m => m == n
  | _ => false

/-- Whether a call writes a payload of a message. -/
def isPayload (n : Nat) : WriteCall → Bool
  | payload m _ _ _ => m == n
  | _ => false

/-- Whether a call sends a tensor of a message. -/
def isTensor (n : Nat) : WriteCall → Bool
  | tensor _ m _ _ _ => m == n
  | _ => false

/-- Whether the call writes a frame to the descriptor connection. -/
def isFrame : WriteCall → Bool
  | descriptor _ _ => true
  | payload _ _ _ _ => true
  | _ => false

/-- The operation that the callback of the call writes to, if any. -/
def captures : WriteCall → Option Nat
  | descriptor _ _ => none
  | payload n _ _ _ => some n
  | tensor _ n _ _ _ => some n
  | descriptorReply n => some n

end WriteCall

/-- A write callback that was invoked, with the operations outstanding then. -/
structure WriteCallback where
  number : Nat
  error : Error
  outstanding : List WriteCall
deriving DecidableEq, Repr

/-- The fields of a pipe that belong to writing. -/
structure WriteSide where
  nextMessageBeingWritten : Nat := 0
  nextWriteCallbackToCall : Nat := 0
  pending : List WriteCall := []
  issued : List WriteCall := []
  called : List WriteCallback := []
  dchecks : Bool := true
  replyDchecks : Bool := true
deriving DecidableEq, Repr

namespace WriteSide

/-- Hand operations to the connections and channels. -/
def issue (w : WriteSide) (calls : List WriteCall) : WriteSide :=
  { w with pending := w.pending ++ calls, issued := w.issued ++ calls }

/-- A debug check. -/
def dcheck (w : WriteSide) (b : Bool) : WriteSide := { w with dchecks := w.dchecks && b }

end WriteSide

-- ── Actions ──────────────────────────────────────────────────────────────────

/-- Tells the user that the message was written, or the error. -/
def callWriteCallback (g : Gate) (w : WriteSide) (op : WriteOperation) :
    Outcome (WriteSide × WriteOperation) :=
  let w := w.dcheck (op.sequenceNumber == w.nextWriteCallbackToCall)
  .returns
    ({ w with
        nextWriteCallbackToCall := w.nextWriteCallbackToCall + 1
        called := w.called ++ [⟨op.sequenceNumber, g.error, w.pending⟩] },
      op)

/-- Writes the descriptor of a message. -/
def writeDescriptorOfMessage (w : WriteSide) (op : WriteOperation) :
    Outcome (WriteSide × WriteOperation) :=
  let w := w.dcheck (op.message.tensors.length == op.tensors.length)
  .returns (w.issue [.descriptor op.sequenceNumber (makeDescriptorForMessage op.message)], op)

/-- The writes of the payloads, one after the other. -/
def payloadWrites (op : WriteOperation) : List WriteCall :=
  op.message.payloads.zipIdx.map (fun p =>
    .payload op.sequenceNumber p.2 p.1.data p.1.length)

/-- Writes the payloads of a message. -/
def writePayloadsOfMessage (w : WriteSide) (op : WriteOperation) :
    Outcome (WriteSide × WriteOperation) :=
  .returns
    (w.issue (payloadWrites op),
      { op with
        numPayloadsBeingWritten := op.numPayloadsBeingWritten + (payloadWrites op).length })

/-- The loop over the tensors.  A device pair without a channel throws, and the
    tensors before it have already been handed to their channels. -/
def sendTensorsLoop (g : Gate) :
    List ((Message.Tensor × SentTensor) × Nat) → WriteSide → WriteOperation →
    Outcome (WriteSide × WriteOperation)
  | [], w, op => .returns (w, op)
  | ((tensor, sent), tensorIdx) :: rest, w, op =>
      match sent.targetDevice with
      | none => .throws (w.dcheck false, op)
      | some remoteDevice =>
          match g.channelForDevicePair.lookup (sent.sourceDevice, remoteDevice) with
          | none => .throws (w, op)
          | some channelName =>
              if g.hasChannel channelName = false then .throws (w, op)
              else sendTensorsLoop g rest
                (w.issue [.tensor channelName op.sequenceNumber tensorIdx tensor.buffer
                  tensor.length])
                { op with numTensorsBeingSent := op.numTensorsBeingSent + 1 }

/-- Sends the tensors of a message. -/
def sendTensorsOfMessage (g : Gate) (w : WriteSide) (op : WriteOperation) :
    Outcome (WriteSide × WriteOperation) :=
  let w := w.dcheck (op.message.tensors.length == op.tensors.length)
  sendTensorsLoop g (op.message.tensors.zip op.tensors).zipIdx w op

/-- Reads the devices that the receiver has chosen. -/
def readDescriptorReplyOfMessage (w : WriteSide) (op : WriteOperation) :
    Outcome (WriteSide × WriteOperation) :=
  let w := w.dcheck op.hasMissingTargetDevices
  .returns (w.issue [.descriptorReply op.sequenceNumber], op)

-- ── The transitions ──────────────────────────────────────────────────────────

/-- The attempts of `advanceWriteOperation`, in the order in which the code makes them. -/
def advanceWriteOperation (g : Gate) :
    List (Transition WriteSide WriteOperation WriteState) :=
  [ -- Needs to go after previous op to ensure ordering of callback invocations.
    { source := .uninitialized
      target := .finished
      cond := fun _ prevOpState => g.error.isSome && decide (.finished ≤ prevOpState)
      actions := [callWriteCallback g] },
    -- All target devices were provided by the user: no reply to read.
    { source := .uninitialized
      target := .writingPayloadsAndSendingTensors
      cond := fun op prevOpState =>
        g.error.isNone && g.established && !op.hasMissingTargetDevices
          && decide (.writingPayloadsAndSendingTensors ≤ prevOpState)
      actions := [writeDescriptorOfMessage, writePayloadsOfMessage,
        sendTensorsOfMessage g] },
    { source := .uninitialized
      target := .writingPayloadsAndReadingTargetDevices
      cond := fun op prevOpState =>
        g.error.isNone && g.established && op.hasMissingTargetDevices
          && decide (.writingPayloadsAndReadingTargetDevices ≤ prevOpState)
      actions := [writeDescriptorOfMessage, writePayloadsOfMessage,
        readDescriptorReplyOfMessage] },
    { source := .writingPayloadsAndReadingTargetDevices
      target := .finished
      cond := fun op prevOpState =>
        g.error.isSome && op.numPayloadsBeingWritten == 0
          && op.doneReadingDescriptorReply && decide (.finished ≤ prevOpState)
      actions := [callWriteCallback g] },
    { source := .writingPayloadsAndReadingTargetDevices
      target := .writingPayloadsAndSendingTensors
      cond := fun op prevOpState =>
        g.error.isNone && op.doneReadingDescriptorReply
          && decide (.writingPayloadsAndSendingTensors ≤ prevOpState)
      actions := [sendTensorsOfMessage g] },
    { source := .writingPayloadsAndSendingTensors
      target := .finished
      cond := fun op prevOpState =>
        op.numPayloadsBeingWritten == 0 && op.numTensorsBeingSent == 0
          && decide (.finished ≤ prevOpState)
      actions := [callWriteCallback g] } ]

-- ── Tasks ────────────────────────────────────────────────────────────────────

/-- The writing half: its fields and its deque. -/
abbrev Writes := WriteSide × List WriteOperation

/-- A write operation as `writeFromLoop` creates it. -/
def newWriteOperation (n : Nat) (message : Message) : WriteOperation where
  sequenceNumber := n
  hasMissingTargetDevices := messageHasMissingTargetDevices message
  message := message
  tensors := tensorsOfMessage message

/-- A call of `write`. -/
def writeFromLoop (g : Gate) (message : Message) (x : Writes) : Outcome Writes :=
  let n := x.1.nextMessageBeingWritten
  advanceOperation (advanceWriteOperation g) { x.1 with nextMessageBeingWritten := n + 1 }
    (x.2 ++ [newWriteOperation n message]) n

/-- What the callback of a lower-level operation does to the operation it captured.
    The gate is the one after the error of the callback, if any, was handled. -/
def onWriteDone (g : Gate) (call : WriteCall) (reply : DescriptorReply) (x : Writes) :
    Outcome Writes :=
  let w := { x.1 with pending := x.1.pending.erase call }
  match call with
  | .descriptor _ _ => .returns (w, x.2)
  | .payload n _ _ _ =>
      advanceOperation (advanceWriteOperation g) w
        (modifyOperation n (fun op => { op with
          numPayloadsBeingWritten := op.numPayloadsBeingWritten - 1 }) x.2) n
  | .tensor _ n _ _ _ =>
      advanceOperation (advanceWriteOperation g) w
        (modifyOperation n (fun op => { op with
          numTensorsBeingSent := op.numTensorsBeingSent - 1 }) x.2) n
  | .descriptorReply n =>
      match x.2.find? (fun op => op.sequenceNumber == n) with
      | none => .throws (w, x.2)
      | some op =>
          if g.error.isSome then
            advanceOperation (advanceWriteOperation g) w
              (modifyOperation n (fun op => { op with
                doneReadingDescriptorReply := true }) x.2) n
          else match parseDescriptorReplyOfMessage op.message.tensors op.tensors
              reply.targetDevices with
            | none =>
                .throws (w, modifyOperation n (fun op => { op with
                  doneReadingDescriptorReply := true }) x.2)
            | some (tensors, rest) =>
                advanceOperation (advanceWriteOperation g)
                  { w with replyDchecks := w.replyDchecks && rest.isEmpty }
                  (modifyOperation n (fun op => { op with
                    doneReadingDescriptorReply := true, tensors := tensors }) x.2) n

/-- Advances the writes from the first one on. -/
def advanceAllWrites (g : Gate) (x : Writes) : Outcome Writes :=
  advanceAllOperations (advanceWriteOperation g) x.1 x.2

end TpPipe
