import Mathlib.Logic.Function.Basic
import Mathlib.Tactic.Common
import Tensorpipe.AllocatorProofs
import Tensorpipe.EventOrderProofs
import Tensorpipe.OperationSideProofs

/-! # The cuda_ipc channel — chunks through the outboxes of a context

    For each of its devices a context has an outbox, cut in slots, which all its channels share.
    A send copies its chunks into slots and writes a DESCRIPTOR for each: the device, the slot
    and, the first time, how to open the outbox.  The recv at the other end copies the chunk out
    of the slot and writes a REPLY, upon which the sender gives the slot back.

    The copies are only ISSUED, on the streams of the user, and are done at some later time: the
    descriptor may be read before the chunk is in its slot, and the reply before it has left it.
    Each slot has a CUDA event, which every copy waits for and records. -/

namespace TpCudaIpc

open TpStateMachine TpAllocator TpEventOrder

-- ── Outboxes ─────────────────────────────────────────────────────────────────

/-- The length of a slot of the outbox. -/
def kSlotSize : Nat := 8 * 1024 * 1024

/-- The number of slots of an outbox. -/
def kNumSlots : Nat := 4

/-- The quotient, rounded up. -/
def ceilOfRatio (n d : Nat) : Nat := (n + d - 1) / d

/-- One end of a channel. -/
structure Endpoint where
  channel : Nat
  side : Bool
deriving DecidableEq, Repr

/-- The peer of an endpoint. -/
def Endpoint.other (e : Endpoint) : Endpoint := { e with side := !e.side }

/-- A slot is allocated for a chunk of an end. -/
abbrev Owner := Endpoint × Nat

/-- The memory of the outbox that a context has for a device, with the events of its slots. -/
structure MemHandle where
  context : Nat
  deviceIdx : Nat
deriving DecidableEq, Repr

/-- What a process needs to open the outbox of another. -/
structure OutboxInfo where
  processIdentifier : String
  memHandle : MemHandle
deriving DecidableEq, Repr

/-- An outbox, of which the model keeps the allocator of its slots. -/
structure Outbox where
  allocator : Allocator Owner := Allocator.make kNumSlots

/-- The key under which a context keeps a remote outbox that it opened. -/
structure RemoteOutboxKey where
  processIdentifier : String
  remoteDeviceIdx : Nat
  localDeviceIdx : Nat
deriving DecidableEq, Repr

/-- What the two ends have to agree on. -/
structure Tag where
  sequenceNumber : Nat
  bufferSequenceNumber : Nat
  chunkId : Nat
  length : Nat
deriving DecidableEq, Repr

/-- A slot of an outbox, and its event. -/
abbrev Slot := MemHandle × Nat

/-- A stream of a context. -/
abbrev Stream := Nat × Nat

/-- A copy between the memory of the user at an address and a slot, of the chunk with a tag at
    an end. -/
inductive Transfer where
  | stage (e : Endpoint) (tag : Tag) (ptr : Nat) (slot : Slot)
  | fetch (e : Endpoint) (tag : Tag) (ptr : Nat) (slot : Slot)
deriving DecidableEq, Repr

namespace Transfer

/-- The slot that a transfer writes or reads. -/
def slot : Transfer → Slot
  | .stage _ _ _ slot | .fetch _ _ _ slot => slot

/-- The slot that a copy overwrites. -/
def target : Transfer → Option Slot
  | .stage _ _ _ slot => some slot
  | .fetch .. => none

/-- Only a transfer to a slot has a target, and that is its slot. -/
theorem target_slot (a : Transfer) (slot : Slot) (h : a.target = some slot) : a.slot = slot := by
  cases a with
  | stage => exact Option.some.inj h
  | fetch => exact absurd h (by simp [target])

end Transfer

/-- A command on a CUDA stream, as the channel enqueues it. -/
abbrev CudaCommand := Command Stream Slot Transfer

/-- `answers` are the allocation callbacks, with the device, that are deferred to the loop, and
    `commands` are what the channels of the context issued. -/
structure ContextImpl where
  name : Nat
  processIdentifier : String
  outboxes : Nat → Outbox := fun _ => {}
  answers : List (Nat × Answer Owner) := []
  remoteOutboxes : List (RemoteOutboxKey × MemHandle) := []
  commands : List CudaCommand := []

namespace ContextImpl

/-- An allocator invoked some callbacks. -/
def answered (x : ContextImpl) (deviceIdx : Nat) (y : Allocator Owner × List (Answer Owner)) :
    ContextImpl :=
  { x with
    outboxes := Function.update x.outboxes deviceIdx { allocator := y.1 }
    answers := x.answers ++ y.2.map (fun answer => (deviceIdx, answer)) }

/-- `Outbox::Allocator::alloc` of the outbox of a device. -/
def allocateSlot (x : ContextImpl) (deviceIdx : Nat) (owner : Owner) : ContextImpl :=
  x.answered deviceIdx ((x.outboxes deviceIdx).allocator.alloc owner)

/-- The pointer's deleter returns the slot to the allocator. -/
def releaseSlot (x : ContextImpl) (deviceIdx slotIdx : Nat) : ContextImpl :=
  x.answered deviceIdx ((x.outboxes deviceIdx).allocator.releaseChunk slotIdx)

/-- Wait for the event of the slot, copy, record the event. -/
def issue (x : ContextImpl) (stream : Nat) (transfer : Transfer) : ContextImpl :=
  { x with commands := x.commands ++ guarded Transfer.slot (x.name, stream) transfer }

/-- The description of the outbox of a device, as the context gives it out. -/
def getLocalOutboxInfo (x : ContextImpl) (deviceIdx : Nat) : OutboxInfo where
  processIdentifier := x.processIdentifier
  memHandle := ⟨x.name, deviceIdx⟩

/-- Opens a remote outbox, or finds it under its key when that was opened before. -/
def openRemoteOutbox (x : ContextImpl) (localDeviceIdx remoteDeviceIdx : Nat)
    (remoteOutboxInfo : OutboxInfo) : ContextImpl × MemHandle :=
  let key : RemoteOutboxKey :=
    { processIdentifier := remoteOutboxInfo.processIdentifier, remoteDeviceIdx, localDeviceIdx }
  match x.remoteOutboxes.lookup key with
  | some outbox => (x, outbox)
  | none => ({ x with
      remoteOutboxes := (key, remoteOutboxInfo.memHandle) :: x.remoteOutboxes },
      remoteOutboxInfo.memHandle)

end ContextImpl

-- ── Chunks ───────────────────────────────────────────────────────────────────

/-- A CUDA buffer: its pointer, the stream it is used on and its device. -/
structure Buffer where
  ptr : Nat
  stream : Nat
  deviceIdx : Nat
deriving DecidableEq, Repr

/-- The arguments at creation of the operation of a chunk. -/
structure Chunk where
  bufferSequenceNumber : Nat
  chunkId : Nat
  numChunks : Nat
  ptr : Nat
  length : Nat
  stream : Nat
  deviceIdx : Nat
deriving DecidableEq, Repr

/-- The chunk of a buffer with a given index. -/
def Buffer.chunk (buffer : Buffer) (sequenceNumber length chunkIdx : Nat) : Chunk :=
  let offset := chunkIdx * kSlotSize
  { bufferSequenceNumber := sequenceNumber
    chunkId := chunkIdx
    numChunks := ceilOfRatio length kSlotSize
    ptr := buffer.ptr + offset
    length := min (length - offset) kSlotSize
    stream := buffer.stream
    deviceIdx := buffer.deviceIdx }

/-- What tells a chunk from the others of its channel, whichever side it is on. -/
def Chunk.tag (chunk : Chunk) (sequenceNumber : Nat) : Tag where
  sequenceNumber := sequenceNumber
  bufferSequenceNumber := chunk.bufferSequenceNumber
  chunkId := chunk.chunkId
  length := chunk.length

/-- What is sent ahead of a chunk. It holds the outbox only when the peer has not seen it. -/
structure Descriptor where
  deviceIdx : Nat
  slotIdx : Nat
  outboxInfo : Option OutboxInfo
deriving DecidableEq, Repr

/-- Make room for an index. -/
def grow {α : Type} (l : List α) (i : Nat) (a : α) : List α :=
  l ++ List.replicate (i + 1 - l.length) a

-- ── Send operations ──────────────────────────────────────────────────────────

/-- The states of the sending of a chunk, in the order in which it goes through them. -/
inductive SendState where
  | UNINITIALIZED
  | ALLOCATING_STAGING_BUFFER
  | READING_REPLY
  | FINISHED
deriving DecidableEq, Repr

/-- The place of a state in the order of the declaration. -/
def SendState.rank : SendState → Nat
  | UNINITIALIZED => 0
  | ALLOCATING_STAGING_BUFFER => 1
  | READING_REPLY => 2
  | FINISHED => 3

instance : LE SendState := ⟨fun a b => a.rank ≤ b.rank⟩
instance (a b : SendState) : Decidable (a ≤ b) := inferInstanceAs (Decidable (a.rank ≤ b.rank))

/-- `callback` tells whether the operation has a callback to invoke. -/
structure ChunkSendOperation where
  sequenceNumber : Nat
  state : SendState := .UNINITIALIZED
  doneAllocatingStagingBuffer : Bool := false
  doneReadingReply : Bool := false
  chunk : Chunk
  callback : Bool
  slotIdx : Nat := 0xffffffffffffffff
  stagingBuffer : Option Nat := none
deriving DecidableEq, Repr

instance : Operation ChunkSendOperation SendState where
  sequenceNumber := ChunkSendOperation.sequenceNumber
  state := ChunkSendOperation.state
  withState op st := { op with state := st }
  finished := .FINISHED
  state_withState _ _ := rfl
  sequenceNumber_withState _ _ := rfl

/-- The tag of the chunk that an operation sends. -/
def ChunkSendOperation.tag (op : ChunkSendOperation) : Tag := op.chunk.tag op.sequenceNumber

/-- The sending half of a channel.  What it wrote on the descriptor connection and began to read
    from the reply connection is kept in order; `repliesRead` are the reads that have reported. -/
structure SendHalf where
  nextTensorBeingSent : Nat := 0
  nextChunkBeingSent : Nat := 0
  localOutboxesSent : List Bool := []
  chunkSendOps : List ChunkSendOperation := []
  descriptors : List (Tag × Descriptor) := []
  replyReads : List Tag := []
  repliesRead : List Nat := []
  callbacks : List (Nat × Bool) := []

/-- The sending half with its context, as its operations see them. -/
abbrev Sending := ContextImpl × SendHalf

/-- Asks the outbox of the chunk's device for a slot. -/
def allocateStagingBuffer (self : Endpoint) (s : Sending) (op : ChunkSendOperation) :
    Outcome (Sending × ChunkSendOperation) :=
  .returns ((s.1.allocateSlot op.chunk.deviceIdx (self, op.sequenceNumber), s.2), op)

/-- Enqueues the copy of the chunk to its slot, which waits for the slot's event and records it. -/
def copyFromSourceToStaging (self : Endpoint) (s : Sending) (op : ChunkSendOperation) :
    Outcome (Sending × ChunkSendOperation) :=
  match op.stagingBuffer with
  | none => .throws (s, op)
  | some slotIdx =>
      .returns ((s.1.issue op.chunk.stream
        (.stage self op.tag op.chunk.ptr (⟨s.1.name, op.chunk.deviceIdx⟩, slotIdx)), s.2), op)

/-- Writes the descriptor, with the outbox if this is the first chunk from its device. -/
def writeDescriptor (s : Sending) (op : ChunkSendOperation) :
    Outcome (Sending × ChunkSendOperation) :=
  let sent := grow s.2.localOutboxesSent op.chunk.deviceIdx false
  let descriptor : Descriptor :=
    { deviceIdx := op.chunk.deviceIdx
      slotIdx := op.slotIdx
      outboxInfo := if sent[op.chunk.deviceIdx]? = some true then none
        else some (s.1.getLocalOutboxInfo op.chunk.deviceIdx) }
  .returns ((s.1, { s.2 with
    localOutboxesSent := sent.set op.chunk.deviceIdx true
    descriptors := s.2.descriptors ++ [(op.tag, descriptor)] }), op)

/-- Reads the reply of the peer. -/
def readReply (s : Sending) (op : ChunkSendOperation) : Outcome (Sending × ChunkSendOperation) :=
  .returns ((s.1, { s.2 with replyReads := s.2.replyReads ++ [op.tag] }), op)

/-- Gives the slot back, once the peer has answered. -/
def releaseStagingBuffer (s : Sending) (op : ChunkSendOperation) :
    Outcome (Sending × ChunkSendOperation) :=
  match op.stagingBuffer with
  | none => .returns (s, op)
  | some slotIdx =>
      .returns ((s.1.releaseSlot op.chunk.deviceIdx slotIdx, s.2),
        { op with stagingBuffer := none })

/-- The user's callback, which only the last chunk of a tensor has. -/
def callSendCallback (error : Bool) (s : Sending) (op : ChunkSendOperation) :
    Outcome (Sending × ChunkSendOperation) :=
  if op.callback then
    .returns ((s.1, { s.2 with
      callbacks := s.2.callbacks ++ [(op.chunk.bufferSequenceNumber, error)] }),
      { op with callback := false })
  else .returns (s, op)

/-- The attempts of `advanceChunkSendOperation`, in the order in which the code makes them. -/
def advanceChunkSendOperation (self : Endpoint) (error : Bool) :
    List (Transition Sending ChunkSendOperation SendState) :=
  [ { source := .UNINITIALIZED
      target := .FINISHED
      cond := fun _ prevOpState => error && decide (SendState.FINISHED ≤ prevOpState)
      actions := [callSendCallback error] },
    { source := .UNINITIALIZED
      target := .ALLOCATING_STAGING_BUFFER
      cond := fun _ prevOpState => !error
        && decide (SendState.ALLOCATING_STAGING_BUFFER ≤ prevOpState)
      actions := [allocateStagingBuffer self] },
    { source := .ALLOCATING_STAGING_BUFFER
      target := .FINISHED
      cond := fun op prevOpState => error && op.doneAllocatingStagingBuffer
        && decide (SendState.FINISHED ≤ prevOpState)
      actions := [callSendCallback error, releaseStagingBuffer] },
    { source := .ALLOCATING_STAGING_BUFFER
      target := .READING_REPLY
      cond := fun op prevOpState => !error && op.doneAllocatingStagingBuffer
        && decide (SendState.READING_REPLY ≤ prevOpState)
      actions := [copyFromSourceToStaging self, writeDescriptor, readReply,
        callSendCallback error] },
    { source := .READING_REPLY
      target := .FINISHED
      cond := fun op prevOpState => op.doneReadingReply
        && decide (SendState.FINISHED ≤ prevOpState)
      actions := [releaseStagingBuffer] } ]

-- ── Recv operations ──────────────────────────────────────────────────────────

/-- The states of the receiving of a chunk, in the order in which it goes through them. -/
inductive RecvState where
  | UNINITIALIZED
  | READING_DESCRIPTOR
  | FINISHED
deriving DecidableEq, Repr

/-- The place of a state in the order of the declaration. -/
def RecvState.rank : RecvState → Nat
  | UNINITIALIZED => 0
  | READING_DESCRIPTOR => 1
  | FINISHED => 2

instance : LE RecvState := ⟨fun a b => a.rank ≤ b.rank⟩
instance (a b : RecvState) : Decidable (a ≤ b) := inferInstanceAs (Decidable (a.rank ≤ b.rank))

/-- `remoteDeviceIdx` and `remoteSlotIdx` are not initialized. -/
structure ChunkRecvOperation where
  sequenceNumber : Nat
  state : RecvState := .UNINITIALIZED
  doneReadingDescriptor : Bool := false
  chunk : Chunk
  callback : Bool
  remoteDeviceIdx : Option Nat := none
  remoteSlotIdx : Option Nat := none
deriving DecidableEq, Repr

instance : Operation ChunkRecvOperation RecvState where
  sequenceNumber := ChunkRecvOperation.sequenceNumber
  state := ChunkRecvOperation.state
  withState op st := { op with state := st }
  finished := .FINISHED
  state_withState _ _ := rfl
  sequenceNumber_withState _ _ := rfl

/-- The tag of the chunk that an operation receives. -/
def ChunkRecvOperation.tag (op : ChunkRecvOperation) : Tag := op.chunk.tag op.sequenceNumber

/-- A copy out of a slot of a remote outbox.  `received` is what was known of the outbox of the
    device when the copy was issued. -/
structure Copy where
  tag : Tag
  remoteDeviceIdx : Nat
  received : Option (Option OutboxInfo)
  ptr : Nat
  stream : Nat
  slot : Slot
deriving DecidableEq, Repr

/-- The receiving half of a channel. -/
structure RecvHalf where
  nextTensorBeingReceived : Nat := 0
  nextChunkBeingReceived : Nat := 0
  remoteOutboxesReceived : List (Option OutboxInfo) := []
  remoteOutboxesOpened : List (List (Option MemHandle)) := []
  dchecks : Bool := true
  chunkRecvOps : List ChunkRecvOperation := []
  descriptorReads : List Tag := []
  descriptorsRead : List Nat := []
  copied : List Copy := []
  replies : List Tag := []
  callbacks : List (Nat × Bool) := []

/-- The receiving half with its context, as its operations see them. -/
abbrev Receiving := ContextImpl × RecvHalf

/-- Reads the descriptor of the chunk. -/
def readDescriptor (s : Receiving) (op : ChunkRecvOperation) :
    Outcome (Receiving × ChunkRecvOperation) :=
  .returns ((s.1, { s.2 with descriptorReads := s.2.descriptorReads ++ [op.tag] }), op)

/-- Open the outbox unless it is open already.  The info must have been received. -/
def openedOutbox (s : Receiving) (localDeviceIdx remoteDeviceIdx : Nat) :
    Option (Receiving × MemHandle) :=
  let opened := grow s.2.remoteOutboxesOpened remoteDeviceIdx []
  let row := grow (opened[remoteDeviceIdx]?.getD []) localDeviceIdx none
  match row[localDeviceIdx]?.join with
  | some outbox => some ((s.1, { s.2 with
      remoteOutboxesOpened := opened.set remoteDeviceIdx row }), outbox)
  | none =>
      match s.2.remoteOutboxesReceived[remoteDeviceIdx]?.join with
      | none => none
      | some info =>
          let y := s.1.openRemoteOutbox localDeviceIdx remoteDeviceIdx info
          some ((y.1, { s.2 with
            remoteOutboxesOpened :=
              opened.set remoteDeviceIdx (row.set localDeviceIdx (some y.2)) }), y.2)

/-- Enqueues the copy out of the peer's slot, which waits for the slot's event and records it. -/
def copyFromStagingToTarget (self : Endpoint) (s : Receiving) (op : ChunkRecvOperation) :
    Outcome (Receiving × ChunkRecvOperation) :=
  match op.remoteDeviceIdx, op.remoteSlotIdx with
  | some remoteDeviceIdx, some remoteSlotIdx =>
      let received := s.2.remoteOutboxesReceived[remoteDeviceIdx]?
      match openedOutbox s op.chunk.deviceIdx remoteDeviceIdx with
      | none => .throws (s, op)
      | some (s', outbox) =>
          let copy : Copy :=
            { tag := op.tag
              remoteDeviceIdx
              received
              ptr := op.chunk.ptr
              stream := op.chunk.stream
              slot := (outbox, remoteSlotIdx) }
          .returns ((s'.1.issue copy.stream (.fetch self copy.tag copy.ptr copy.slot),
            { s'.2 with copied := s'.2.copied ++ [copy] }), op)
  | _, _ => .throws (s, op)

/-- Tells the peer that the copy out of its slot is enqueued. -/
def writeReply (s : Receiving) (op : ChunkRecvOperation) :
    Outcome (Receiving × ChunkRecvOperation) :=
  .returns ((s.1, { s.2 with replies := s.2.replies ++ [op.tag] }), op)

/-- The user's callback, which only the last chunk of a tensor has. -/
def callRecvCallback (error : Bool) (s : Receiving) (op : ChunkRecvOperation) :
    Outcome (Receiving × ChunkRecvOperation) :=
  if op.callback then
    .returns ((s.1, { s.2 with
      callbacks := s.2.callbacks ++ [(op.chunk.bufferSequenceNumber, error)] }),
      { op with callback := false })
  else .returns (s, op)

/-- The attempts of `advanceChunkRecvOperation`, in the order in which the code makes them. -/
def advanceChunkRecvOperation (self : Endpoint) (error : Bool) :
    List (Transition Receiving ChunkRecvOperation RecvState) :=
  [ { source := .UNINITIALIZED
      target := .FINISHED
      cond := fun _ prevOpState => error && decide (RecvState.FINISHED ≤ prevOpState)
      actions := [callRecvCallback error] },
    { source := .UNINITIALIZED
      target := .READING_DESCRIPTOR
      cond := fun _ prevOpState => !error && decide (RecvState.READING_DESCRIPTOR ≤ prevOpState)
      actions := [readDescriptor] },
    { source := .READING_DESCRIPTOR
      target := .FINISHED
      cond := fun op prevOpState => error && op.doneReadingDescriptor
        && decide (RecvState.FINISHED ≤ prevOpState)
      actions := [callRecvCallback error] },
    { source := .READING_DESCRIPTOR
      target := .FINISHED
      cond := fun op prevOpState => !error && op.doneReadingDescriptor
        && decide (RecvState.FINISHED ≤ prevOpState)
      actions := [copyFromStagingToTarget self, writeReply, callRecvCallback error] } ]

-- ── The channel ──────────────────────────────────────────────────────────────

/-- Advances the sequence of the sending half from a given operation on. -/
def sendAdvance (self : Endpoint) (error : Bool) (n : Nat) (s : Sending) : Sending :=
  let y := (advanceOperation (advanceChunkSendOperation self error) s s.2.chunkSendOps n).state
  (y.1.1, { y.1.2 with chunkSendOps := y.2 })

/-- Advances the sequence of the sending half from its first operation on. -/
def sendAdvanceAll (self : Endpoint) (error : Bool) (s : Sending) : Sending :=
  let y := (advanceAllOperations (advanceChunkSendOperation self error) s s.2.chunkSendOps).state
  (y.1.1, { y.1.2 with chunkSendOps := y.2 })

/-- The operation of a chunk, stored and advanced. -/
def emplaceSend (self : Endpoint) (error : Bool) (chunk : Chunk) (s : Sending) : Sending :=
  sendAdvance self error s.2.nextChunkBeingSent (s.1, { s.2 with
    nextChunkBeingSent := s.2.nextChunkBeingSent + 1
    chunkSendOps := s.2.chunkSendOps ++ [
      { sequenceNumber := s.2.nextChunkBeingSent
        chunk
        callback := chunk.chunkId == chunk.numChunks - 1 }] })

/-- Cuts a tensor into chunks and emplaces them one after the other. -/
def sendImplFromLoop (self : Endpoint) (error : Bool) (sequenceNumber : Nat) (buffer : Buffer)
    (length : Nat) (s : Sending) : Sending :=
  if length = 0 then
    (s.1, { s.2 with callbacks := s.2.callbacks ++ [(sequenceNumber, error)] })
  else
    (List.range (ceilOfRatio length kSlotSize)).foldl
      (fun s chunkIdx => emplaceSend self error (buffer.chunk sequenceNumber length chunkIdx) s) s

/-- A call of `send`, which a channel in error answers with that error. -/
def sendFromLoop (self : Endpoint) (error : Bool) (buffer : Buffer) (length : Nat) (s : Sending) :
    Sending :=
  let n := s.2.nextTensorBeingSent
  let s' : Sending := (s.1, { s.2 with nextTensorBeingSent := n + 1 })
  if error then (s'.1, { s'.2 with callbacks := s'.2.callbacks ++ [(n, error)] })
  else sendImplFromLoop self error n buffer length s'

/-- The callback of an allocation.  After an error the slot is not stored, and goes back when the
    callback is over. -/
def allocated (self : Endpoint) (error : Bool) (n deviceIdx : Nat) (slotIdx : Option Nat)
    (s : Sending) : Sending :=
  let y := sendAdvance self error n (s.1, { s.2 with
    chunkSendOps := modifyOperation n (fun op =>
      if error then { op with doneAllocatingStagingBuffer := true }
      else { op with
        doneAllocatingStagingBuffer := true
        slotIdx := slotIdx.getD 0
        stagingBuffer := slotIdx }) s.2.chunkSendOps })
  match slotIdx with
  | some slotIdx => if error then (y.1.releaseSlot deviceIdx slotIdx, y.2) else y
  | none => y

/-- The callback of the read of a reply. -/
def replyRead (self : Endpoint) (error : Bool) (n : Nat) (s : Sending) : Sending :=
  sendAdvance self error n (s.1, { s.2 with
    repliesRead := s.2.repliesRead ++ [n]
    chunkSendOps := modifyOperation n (fun op => { op with doneReadingReply := true })
      s.2.chunkSendOps })

/-- Advances the sequence of the receiving half from a given operation on. -/
def recvAdvance (self : Endpoint) (error : Bool) (n : Nat) (s : Receiving) :
    Receiving :=
  let y := (advanceOperation (advanceChunkRecvOperation self error) s s.2.chunkRecvOps n).state
  (y.1.1, { y.1.2 with chunkRecvOps := y.2 })

/-- Advances the sequence of the receiving half from its first operation on. -/
def recvAdvanceAll (self : Endpoint) (error : Bool) (s : Receiving) : Receiving :=
  let y := (advanceAllOperations (advanceChunkRecvOperation self error) s
    s.2.chunkRecvOps).state
  (y.1.1, { y.1.2 with chunkRecvOps := y.2 })

/-- Emplaces the receiving of a chunk and advances it. -/
def emplaceRecv (self : Endpoint) (error : Bool) (chunk : Chunk) (s : Receiving) :
    Receiving :=
  recvAdvance self error s.2.nextChunkBeingReceived (s.1, { s.2 with
    nextChunkBeingReceived := s.2.nextChunkBeingReceived + 1
    chunkRecvOps := s.2.chunkRecvOps ++ [
      { sequenceNumber := s.2.nextChunkBeingReceived
        chunk
        callback := chunk.chunkId == chunk.numChunks - 1 }] })

/-- Cuts a tensor into chunks and emplaces them one after the other. -/
def recvImplFromLoop (self : Endpoint) (error : Bool) (sequenceNumber : Nat)
    (buffer : Buffer) (length : Nat) (s : Receiving) : Receiving :=
  if length = 0 then
    (s.1, { s.2 with callbacks := s.2.callbacks ++ [(sequenceNumber, error)] })
  else
    (List.range (ceilOfRatio length kSlotSize)).foldl
      (fun s chunkIdx => emplaceRecv self error (buffer.chunk sequenceNumber length chunkIdx) s) s

/-- A call of `recv`, which a channel in error answers with that error. -/
def recvFromLoop (self : Endpoint) (error : Bool) (buffer : Buffer) (length : Nat)
    (s : Receiving) : Receiving :=
  let n := s.2.nextTensorBeingReceived
  let s' : Receiving := (s.1, { s.2 with nextTensorBeingReceived := n + 1 })
  if error then (s'.1, { s'.2 with callbacks := s'.2.callbacks ++ [(n, error)] })
  else recvImplFromLoop self error n buffer length s'

/-- The outbox information in a descriptor is stored; there must be none yet. -/
def receiveOutbox (descriptor : Descriptor) (s : RecvHalf) : RecvHalf :=
  match descriptor.outboxInfo with
  | none => s
  | some info =>
      let received := grow s.remoteOutboxesReceived descriptor.deviceIdx none
      { s with
        dchecks := s.dchecks && received[descriptor.deviceIdx]?.join.isNone
        remoteOutboxesReceived := received.set descriptor.deviceIdx (some info) }

/-- A descriptor was read, or the read failed. -/
def descriptorRead (self : Endpoint) (error : Bool) (n : Nat)
    (descriptor : Option Descriptor) (s : Receiving) : Receiving :=
  let told : RecvHalf := { s.2 with descriptorsRead := s.2.descriptorsRead ++ [n] }
  match descriptor, error with
  | some descriptor, false =>
      recvAdvance self error n (s.1, { receiveOutbox descriptor told with
        chunkRecvOps := modifyOperation n (fun op => { op with
          doneReadingDescriptor := true
          remoteDeviceIdx := some descriptor.deviceIdx
          remoteSlotIdx := some descriptor.slotIdx }) told.chunkRecvOps })
  | _, _ =>
      recvAdvance self error n (s.1, { told with
        chunkRecvOps := modifyOperation n (fun op => { op with doneReadingDescriptor := true })
          told.chunkRecvOps })

/-- One end of a channel: its error and its two halves. -/
structure ChannelImpl where
  error : Bool := false
  send : SendHalf := {}
  recv : RecvHalf := {}

/-- A channel with its context. -/
structure Local where
  context : ContextImpl
  channel : ChannelImpl

/-- What the loop of a context runs for one end of a channel. -/
inductive Task where
  | send (buffer : Buffer) (length : Nat)
  | recv (buffer : Buffer) (length : Nat)
  | close
  | allocated (n deviceIdx : Nat) (slotIdx : Option Nat)
  | descriptorRead (n : Nat) (descriptor : Option Descriptor)
  | replyRead (n : Nat) (error : Bool)

namespace Local

/-- Runs a function of the sending half on the context and that half. -/
def onSend (x : Local) (f : Bool → Sending → Sending) : Local :=
  let y := f x.channel.error (x.context, x.channel.send)
  { context := y.1, channel := { x.channel with send := y.2 } }

/-- Runs a function of the receiving half on the context and that half. -/
def onRecv (x : Local) (f : Bool → Receiving → Receiving) : Local :=
  let y := f x.channel.error (x.context, x.channel.recv)
  { context := y.1, channel := { x.channel with recv := y.2 } }

/-- The first error advances every operation of both halves. -/
def setError (self : Endpoint) (error : Bool) (x : Local) : Local :=
  if x.channel.error || !error then x
  else ({ x with channel := { x.channel with error := true } }.onSend (sendAdvanceAll self)).onRecv
    (recvAdvanceAll self)

/-- A task of the loop.  The callback of a call first sets the error that it was given. -/
def step (self : Endpoint) (x : Local) : Task → Local
  | .send buffer length => x.onSend (fun error => sendFromLoop self error buffer length)
  | .recv buffer length => x.onRecv (fun error => recvFromLoop self error buffer length)
  | .close => x.setError self true
  | .allocated n deviceIdx slotIdx =>
      (x.setError self slotIdx.isNone).onSend
        (fun error => allocated self error n deviceIdx slotIdx)
  | .descriptorRead n descriptor =>
      (x.setError self descriptor.isNone).onRecv
        (fun error => descriptorRead self error n descriptor)
  | .replyRead n error =>
      (x.setError self error).onSend (fun error => replyRead self error n)

end Local

-- ── Connected channels ───────────────────────────────────────────────────────

/-- Which context an end belongs to, and what it is asked to send and to receive: the n-th recv
    of an end is for as many bytes as the n-th send of the other one. -/
structure Setup where
  home : Endpoint → Nat
  processIdentifier : Nat → String
  length : Endpoint → Nat → Nat
  sendBuffer : Endpoint → Nat → Buffer
  recvBuffer : Endpoint → Nat → Buffer

/-- `issued` are the commands of all contexts, in the order in which they were issued. -/
structure World where
  context : Nat → ContextImpl
  channel : Endpoint → ChannelImpl
  issued : List CudaCommand := []

/-- A step of the pair: a call of the user, a callback, or a failure. -/
inductive Event where
  | send (e : Endpoint)
  | recv (e : Endpoint)
  | close (e : Endpoint)
  | allocated (name i : Nat)
  | descriptorRead (e : Endpoint) (i : Nat)
  | descriptorFailed (e : Endpoint) (i : Nat)
  | replyRead (e : Endpoint) (i : Nat)
  | replyFailed (e : Endpoint) (i : Nat)

namespace World

/-- Before the first call: every context with its identifier, every channel new. -/
def init (S : Setup) : World where
  context name := { name, processIdentifier := S.processIdentifier name }
  channel _ := {}

/-- Replaces one of the contexts. -/
def setContext (w : World) (name : Nat) (x : ContextImpl) : World :=
  { w with context := Function.update w.context name x }

/-- Runs a task at an endpoint, with the context that the endpoint lives in. -/
def act (S : Setup) (w : World) (e : Endpoint) (task : Task) : World :=
  let context := w.context (S.home e)
  let y := Local.step e ⟨context, w.channel e⟩ task
  { context := Function.update w.context (S.home e) y.context
    channel := Function.update w.channel e y.channel
    issued := w.issued ++ y.context.commands.drop context.commands.length }

/-- The i-th read on a connection gets the i-th frame that was written on it, at any time after
    that, also if the channel was closed at either end since.  A read may fail at any time. -/
def step (S : Setup) (w : World) : Event → Option World
  | .send e =>
      let n := (w.channel e).send.nextTensorBeingSent
      some (w.act S e (.send (S.sendBuffer e n) (S.length e n)))
  | .recv e =>
      let n := (w.channel e).recv.nextTensorBeingReceived
      some (w.act S e (.recv (S.recvBuffer e n) (S.length e.other n)))
  | .close e => some (w.act S e .close)
  | .allocated name i =>
      match (w.context name).answers[i]? with
      | some (deviceIdx, (e, n), slotIdx) =>
          let context := { w.context name with answers := (w.context name).answers.eraseIdx i }
          some ((w.setContext name context).act S e (.allocated n deviceIdx slotIdx))
      | none => none
  | .descriptorRead e i =>
      match (w.channel e).recv.descriptorReads[i]?, (w.channel e.other).send.descriptors[i]? with
      | some tag, some (_, descriptor) =>
          if tag.sequenceNumber ∈ (w.channel e).recv.descriptorsRead then none
          else some (w.act S e (.descriptorRead tag.sequenceNumber (some descriptor)))
      | _, _ => none
  | .descriptorFailed e i =>
      match (w.channel e).recv.descriptorReads[i]? with
      | some tag =>
          if tag.sequenceNumber ∈ (w.channel e).recv.descriptorsRead then none
          else some (w.act S e (.descriptorRead tag.sequenceNumber none))
      | none => none
  | .replyRead e i =>
      match (w.channel e).send.replyReads[i]?, (w.channel e.other).recv.replies[i]? with
      | some tag, some _ =>
          if tag.sequenceNumber ∈ (w.channel e).send.repliesRead then none
          else some (w.act S e (.replyRead tag.sequenceNumber false))
      | _, _ => none
  | .replyFailed e i =>
      match (w.channel e).send.replyReads[i]? with
      | some tag =>
          if tag.sequenceNumber ∈ (w.channel e).send.repliesRead then none
          else some (w.act S e (.replyRead tag.sequenceNumber true))
      | none => none

/-- The worlds that are reached by events that are `permitted`. -/
inductive Reachable (S : Setup) (permitted : World → Event → Prop) : World → Prop where
  | init : Reachable S permitted (init S)
  | step {w w' : World} (h : Reachable S permitted w) (event : Event)
      (hpermitted : permitted w event) (hstep : w.step S event = some w') : Reachable S permitted w'

end World

end TpCudaIpc
