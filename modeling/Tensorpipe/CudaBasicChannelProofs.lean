import Mathlib.Tactic.Common
import Tensorpipe.AllocatorProofs
import Tensorpipe.HistoryProofs

/-! # The cuda_basic channel — chunks through staging slots

    Buffers are cut in chunks.  A chunk of a CUDA buffer gets a slot of CPU memory from an
    allocator, goes there by a CUDA copy and from there through an inner channel for CPU
    memory; on the other side it comes out the same way.  A chunk of a CPU buffer takes the
    SHORTCUT: it goes through the inner channel as it is.  Only the last chunk of a buffer
    carries the callback of the user.

    The two allocators, one for each direction, belong to the context and serve its other
    channels too.

    Both halves keep a log of what happened. -/

namespace TpCudaBasic

open TpStateMachine TpAllocator

-- ── Buffers and chunks ───────────────────────────────────────────────────────

/-- The length of a staging slot, and so of a chunk. -/
def kSlotSize : Nat := 1024 * 1024

/-- The number of staging slots of an allocator. -/
def kNumSlots : Nat := 16

/-- The quotient, rounded up. -/
def ceilOfRatio (n d : Nat) : Nat := (n + d - 1) / d

/-- A buffer of the user, on the CPU or on a CUDA device. -/
inductive Buffer where
  | cpu (ptr : Nat)
  | cuda (ptr stream deviceIdx : Nat)
deriving DecidableEq, Repr

/-- Whether the channel underneath can take the buffer as it is. -/
def Buffer.isCpuBuffer : Buffer → Bool
  | cpu _ => true
  | cuda _ _ _ => false

/-- The address of the buffer, on its own device. -/
def Buffer.ptr : Buffer → Nat
  | cpu ptr => ptr
  | cuda ptr _ _ => ptr

/-- The arguments at creation of the operation of a chunk. -/
structure Chunk where
  bufferSequenceNumber : Nat
  isCpuBuffer : Bool
  devicePtr : Nat
  chunkId : Nat
  numChunks : Nat
  length : Nat
  stream : Nat := 0
  deviceIdx : Nat := 0
deriving DecidableEq, Repr

/-- The chunk of a buffer that starts at `offset`. -/
def Buffer.chunk (buffer : Buffer) (sequenceNumber length offset : Nat) : Chunk :=
  let chunkId := offset / kSlotSize
  let numChunks := ceilOfRatio length kSlotSize
  let chunkLength := min (length - offset) kSlotSize
  match buffer with
  | .cpu ptr =>
      { bufferSequenceNumber := sequenceNumber, chunkId, numChunks, length := chunkLength
        isCpuBuffer := true, devicePtr := ptr + offset }
  | .cuda ptr stream deviceIdx =>
      { bufferSequenceNumber := sequenceNumber, chunkId, numChunks, length := chunkLength
        isCpuBuffer := false, devicePtr := ptr + offset, stream, deviceIdx }

/-- Operations are processed in order, so we can afford to trigger the callback once the last
    operation is done. -/
def Chunk.isLast (chunk : Chunk) : Bool := chunk.chunkId == chunk.numChunks - 1

/-- CPU memory that the inner channel is given: of the user, or a slot. -/
inductive CpuPtr where
  | user (ptr : Nat)
  | staging (slot : Option Nat)
deriving DecidableEq, Repr

-- ── The log and the staging area ─────────────────────────────────────────────

/-- What happens to one half of a channel.  The allocator answers the request of a chunk
    (`allocated`) some time before the loop runs the callback (`delivered`), which stores the
    slot in the operation or not.  A slot goes back when its operation lets go of it
    (`returned`), or when the callback that did not store it does (`dropped`). -/
inductive Event (Call : Type) where
  | submitted (bufferSequenceNumber : Nat) (buffer : Buffer) (length : Nat)
  | emplaced (n : Nat) (chunk : Chunk) (callback : Bool)
  | issued (call : Call)
  | reported (call : Call)
  | allocated (n : Nat) (slot : Option Nat)
  | delivered (n : Nat) (slot : Option Nat) (stored : Bool)
  | returned (n slot : Nat)
  | dropped (n slot : Nat)
  | callback (bufferSequenceNumber : Nat) (error : Bool)
deriving DecidableEq, Repr

/-- The chunk that an event concerns, given the operation that each call captured. -/
def Event.about {Call : Type} (captures : Call → Option Nat) : Event Call → Option Nat
  | submitted _ _ _ => none
  | emplaced n _ _ => some n
  | issued call => captures call
  | reported call => captures call
  | allocated _ _ => none
  | delivered n _ _ => some n
  | returned n _ => some n
  | dropped _ _ => none
  | callback _ _ => none

/-- One half as its operations see it: the allocator, the allocation callbacks that are
    deferred to the loop, the slots in the hands of other channels, and the log.  Requests of
    other channels have no number. -/
structure Staging (Call : Type) where
  allocator : Allocator (Option Nat) := Allocator.make kNumSlots
  grants : List (Nat × Option Nat) := []
  others : List Nat := []
  log : List (Event Call) := []
deriving DecidableEq, Repr

namespace Staging

variable {Call : Type}

/-- Adds an entry to the log. -/
def record (e : Event Call) (s : Staging Call) : Staging Call := { s with log := s.log ++ [e] }

/-- The answers for this channel. -/
def own (answers : List (Answer (Option Nat))) : List (Nat × Option Nat) :=
  answers.filterMap (fun answer => answer.1.map (fun n => (n, answer.2)))

/-- The slots that other channels got. -/
def foreign (answers : List (Answer (Option Nat))) : List Nat :=
  answers.filterMap (fun answer => if answer.1.isNone then answer.2 else none)

/-- The allocator invoked some callbacks. -/
def answered (y : Allocator (Option Nat) × List (Answer (Option Nat))) (s : Staging Call) :
    Staging Call where
  allocator := y.1
  grants := s.grants ++ own y.2
  others := s.others ++ foreign y.2
  log := s.log ++ (own y.2).map (fun answer => .allocated answer.1 answer.2)

/-- Hands a call to another component. -/
def issue (call : Call) (s : Staging Call) : Staging Call := s.record (.issued call)

/-- The request of chunk `n`, which is the call `call`. -/
def alloc (n : Nat) (call : Call) (s : Staging Call) : Staging Call :=
  (s.issue call).answered (s.allocator.alloc (some n))

/-- The pointer's deleter returns the buffer to the allocator. -/
def release (n slot : Nat) (s : Staging Call) : Staging Call :=
  (s.record (.returned n slot)).answered (s.allocator.releaseChunk slot)

/-- The close of the allocator, which answers all that wait. -/
def close (s : Staging Call) : Staging Call := s.answered s.allocator.close

/-- A call is outstanding from the time it is issued until it reports. -/
def outstanding (s : Staging Call) (call : Call) : Prop :=
  .issued call ∈ s.log ∧ .reported call ∉ s.log

end Staging

-- ── Send operations ──────────────────────────────────────────────────────────

/-- The states of the sending of a chunk, in the order of the declaration. -/
inductive SendState where
  | uninitialized
  | allocatingCpuBuffer
  | copyingFromGpuToCpu
  | invokedCallback
  | sendingCpuBuffer
  | finished
deriving DecidableEq, Repr

/-- The place of a state in the order of the declaration. -/
def SendState.rank : SendState → Nat
  | uninitialized => 0
  | allocatingCpuBuffer => 1
  | copyingFromGpuToCpu => 2
  | invokedCallback => 3
  | sendingCpuBuffer => 4
  | finished => 5

instance : LE SendState := ⟨fun a b => a.rank ≤ b.rank⟩
instance (a b : SendState) : Decidable (a ≤ b) := inferInstanceAs (Decidable (a.rank ≤ b.rank))

/-- `callback` tells whether the operation still has a callback to invoke. -/
structure ChunkSendOperation where
  sequenceNumber : Nat
  state : SendState := .uninitialized
  chunk : Chunk
  callback : Bool
  tmpBuffer : Option Nat := none
  doneAllocatingCpuStagingBuffer : Bool := false
  doneCopyingFromGpuToCpu : Bool := false
  doneSendingCpuBuffer : Bool := false
deriving DecidableEq, Repr

instance : Operation ChunkSendOperation SendState where
  sequenceNumber := ChunkSendOperation.sequenceNumber
  state := ChunkSendOperation.state
  withState op st := { op with state := st }
  finished := .finished
  state_withState _ _ := rfl
  sequenceNumber_withState _ _ := rfl

/-- What the sending of a chunk hands to others. -/
inductive SendCall where
  | allocate (n length : Nat)
  | writeReadyToSend (n : Nat)
  | copyFromGpuToCpu (n : Nat) (tmpBuffer : Option Nat) (chunk : Chunk)
  | sendCpuBuffer (n : Nat) (ptr : CpuPtr) (length : Nat)
deriving DecidableEq, Repr

/-- The write of a notification captured no operation. -/
def SendCall.captures : SendCall → Option Nat
  | allocate n _ => some n
  | writeReadyToSend _ => none
  | copyFromGpuToCpu n _ _ => some n
  | sendCpuBuffer n _ _ => some n

/-- The staging memory as the sending half sees it. -/
abbrev SendStaging := Staging SendCall

/-- Where the chunk lies in CPU memory: at the user's pointer or in its staging slot. -/
def ChunkSendOperation.cpuPtr (op : ChunkSendOperation) : CpuPtr :=
  if op.chunk.isCpuBuffer then .user op.chunk.devicePtr else .staging op.tmpBuffer

/-- Asks the allocator for a staging slot. -/
def allocateSendCpuBuffer (s : SendStaging) (op : ChunkSendOperation) :
    Outcome (SendStaging × ChunkSendOperation) :=
  .returns (s.alloc op.sequenceNumber (.allocate op.sequenceNumber op.chunk.length), op)

/-- Notifies the peer that the chunk is about to be sent. -/
def writeReadyToSend (s : SendStaging) (op : ChunkSendOperation) :
    Outcome (SendStaging × ChunkSendOperation) :=
  .returns (s.issue (.writeReadyToSend op.sequenceNumber), op)

/-- Copies the chunk from the device to its staging slot. -/
def copyFromGpuToCpu (s : SendStaging) (op : ChunkSendOperation) :
    Outcome (SendStaging × ChunkSendOperation) :=
  .returns (s.issue (.copyFromGpuToCpu op.sequenceNumber op.tmpBuffer op.chunk), op)

/-- Hands the chunk to the CPU channel. -/
def sendCpuBuffer (s : SendStaging) (op : ChunkSendOperation) :
    Outcome (SendStaging × ChunkSendOperation) :=
  .returns (s.issue (.sendCpuBuffer op.sequenceNumber op.cpuPtr op.chunk.length), op)

/-- The user's callback, which only the last chunk of a tensor has. -/
def callSendCallback (error : Bool) (s : SendStaging) (op : ChunkSendOperation) :
    Outcome (SendStaging × ChunkSendOperation) :=
  if op.callback then
    .returns (s.record (.callback op.chunk.bufferSequenceNumber error), { op with callback := false })
  else .returns (s, op)

/-- Gives the staging slot back, if there is one. -/
def returnSendCpuBuffer (s : SendStaging) (op : ChunkSendOperation) :
    Outcome (SendStaging × ChunkSendOperation) :=
  match op.tmpBuffer with
  | none => .returns (s, op)
  | some slot => .returns (s.release op.sequenceNumber slot, { op with tmpBuffer := none })

/-- The attempts of `advanceChunkSendOperation`, in the order in which the code makes them. -/
def advanceChunkSendOperation (error : Bool) :
    List (Transition SendStaging ChunkSendOperation SendState) :=
  [ -- Needs to go after previous op invoked its callback because the last chunk in a series
    -- (that corresponds to one operation) must invoke its callback only when all chunks in
    -- the series are done.
    { source := .uninitialized
      target := .finished
      cond := fun _ prevOpState => error && decide (.invokedCallback ≤ prevOpState)
      actions := [callSendCallback error] },
    -- This transition shortcuts the allocation of/copy to staging memory when the buffer is
    -- already on CPU.
    { source := .uninitialized
      target := .sendingCpuBuffer
      cond := fun op prevOpState =>
        !error && op.chunk.isCpuBuffer && decide (.sendingCpuBuffer ≤ prevOpState)
      actions := [writeReadyToSend, sendCpuBuffer] },
    -- Needs to go after previous op to ensure later operations are not holding staging
    -- buffers while earlier ones are still blocked waiting for them.
    { source := .uninitialized
      target := .allocatingCpuBuffer
      cond := fun op prevOpState =>
        !error && !op.chunk.isCpuBuffer && decide (.allocatingCpuBuffer ≤ prevOpState)
      actions := [allocateSendCpuBuffer] },
    { source := .allocatingCpuBuffer
      target := .finished
      cond := fun op prevOpState => error && op.doneAllocatingCpuStagingBuffer
        && decide (.invokedCallback ≤ prevOpState)
      actions := [callSendCallback error, returnSendCpuBuffer] },
    { source := .allocatingCpuBuffer
      target := .copyingFromGpuToCpu
      cond := fun op prevOpState => !error && op.doneAllocatingCpuStagingBuffer
        && decide (.copyingFromGpuToCpu ≤ prevOpState)
      actions := [writeReadyToSend, copyFromGpuToCpu] },
    { source := .copyingFromGpuToCpu
      target := .finished
      cond := fun op prevOpState => error && op.doneCopyingFromGpuToCpu
        && decide (.invokedCallback ≤ prevOpState)
      actions := [callSendCallback error, returnSendCpuBuffer] },
    { source := .copyingFromGpuToCpu
      target := .invokedCallback
      cond := fun op prevOpState => !error && op.doneCopyingFromGpuToCpu
        && decide (.invokedCallback ≤ prevOpState)
      actions := [callSendCallback error] },
    { source := .invokedCallback
      target := .finished
      cond := fun _ _ => error
      actions := [returnSendCpuBuffer] },
    { source := .invokedCallback
      target := .sendingCpuBuffer
      cond := fun _ prevOpState => !error && decide (.sendingCpuBuffer ≤ prevOpState)
      actions := [sendCpuBuffer] },
    { source := .sendingCpuBuffer
      target := .finished
      cond := fun op _ => op.doneSendingCpuBuffer && op.chunk.isCpuBuffer
      actions := [callSendCallback error] },
    { source := .sendingCpuBuffer
      target := .finished
      cond := fun op _ => op.doneSendingCpuBuffer && !op.chunk.isCpuBuffer
      actions := [returnSendCpuBuffer] } ]

-- ── Receive operations ───────────────────────────────────────────────────────

/-- The states of the receiving of a chunk, in the order of the declaration. -/
inductive RecvState where
  | uninitialized
  | readingReadyToSend
  | allocatingCpuBuffer
  | receivingCpuBuffer
  | copyingFromCpuToGpu
  | copyingFromCpuToGpuAndInvokedCallback
  | finished
deriving DecidableEq, Repr

/-- The place of a state in the order of the declaration. -/
def RecvState.rank : RecvState → Nat
  | uninitialized => 0
  | readingReadyToSend => 1
  | allocatingCpuBuffer => 2
  | receivingCpuBuffer => 3
  | copyingFromCpuToGpu => 4
  | copyingFromCpuToGpuAndInvokedCallback => 5
  | finished => 6

instance : LE RecvState := ⟨fun a b => a.rank ≤ b.rank⟩
instance (a b : RecvState) : Decidable (a ≤ b) := inferInstanceAs (Decidable (a.rank ≤ b.rank))

/-- The receiving of one chunk. -/
structure ChunkRecvOperation where
  sequenceNumber : Nat
  state : RecvState := .uninitialized
  chunk : Chunk
  callback : Bool
  tmpBuffer : Option Nat := none
  doneReadingReadyToSend : Bool := false
  doneAllocatingCpuStagingBuffer : Bool := false
  doneReceivingCpuBuffer : Bool := false
  doneCopyingFromCpuToGpu : Bool := false
deriving DecidableEq, Repr

instance : Operation ChunkRecvOperation RecvState where
  sequenceNumber := ChunkRecvOperation.sequenceNumber
  state := ChunkRecvOperation.state
  withState op st := { op with state := st }
  finished := .finished
  state_withState _ _ := rfl
  sequenceNumber_withState _ _ := rfl

/-- What the receiving of a chunk hands to others. -/
inductive RecvCall where
  | readReadyToSend (n : Nat)
  | allocate (n length : Nat)
  | receiveCpuBuffer (n : Nat) (ptr : CpuPtr) (length : Nat)
  | copyFromCpuToGpu (n : Nat) (tmpBuffer : Option Nat) (chunk : Chunk)
deriving DecidableEq, Repr

/-- The operation that the callback of a call captures. -/
def RecvCall.captures : RecvCall → Option Nat
  | readReadyToSend n => some n
  | allocate n _ => some n
  | receiveCpuBuffer n _ _ => some n
  | copyFromCpuToGpu n _ _ => some n

/-- The staging memory as the receiving half sees it. -/
abbrev RecvStaging := Staging RecvCall

/-- Where the chunk goes in CPU memory: to the user's pointer or to its staging slot. -/
def ChunkRecvOperation.cpuPtr (op : ChunkRecvOperation) : CpuPtr :=
  if op.chunk.isCpuBuffer then .user op.chunk.devicePtr else .staging op.tmpBuffer

/-- Waits for the notification of the peer. -/
def readReadyToSend (s : RecvStaging) (op : ChunkRecvOperation) :
    Outcome (RecvStaging × ChunkRecvOperation) :=
  .returns (s.issue (.readReadyToSend op.sequenceNumber), op)

/-- Asks the allocator for a staging slot. -/
def allocateRecvCpuBuffer (s : RecvStaging) (op : ChunkRecvOperation) :
    Outcome (RecvStaging × ChunkRecvOperation) :=
  .returns (s.alloc op.sequenceNumber (.allocate op.sequenceNumber op.chunk.length), op)

/-- Hands the place of the chunk to the CPU channel. -/
def receiveCpuBuffer (s : RecvStaging) (op : ChunkRecvOperation) :
    Outcome (RecvStaging × ChunkRecvOperation) :=
  .returns (s.issue (.receiveCpuBuffer op.sequenceNumber op.cpuPtr op.chunk.length), op)

/-- Copies the chunk from its staging slot to the device. -/
def copyFromCpuToGpu (s : RecvStaging) (op : ChunkRecvOperation) :
    Outcome (RecvStaging × ChunkRecvOperation) :=
  .returns (s.issue (.copyFromCpuToGpu op.sequenceNumber op.tmpBuffer op.chunk), op)

/-- The user's callback, which only the last chunk of a tensor has. -/
def callRecvCallback (error : Bool) (s : RecvStaging) (op : ChunkRecvOperation) :
    Outcome (RecvStaging × ChunkRecvOperation) :=
  if op.callback then
    .returns (s.record (.callback op.chunk.bufferSequenceNumber error), { op with callback := false })
  else .returns (s, op)

/-- Gives the staging slot back, if there is one. -/
def returnRecvCpuBuffer (s : RecvStaging) (op : ChunkRecvOperation) :
    Outcome (RecvStaging × ChunkRecvOperation) :=
  match op.tmpBuffer with
  | none => .returns (s, op)
  | some slot => .returns (s.release op.sequenceNumber slot, { op with tmpBuffer := none })

/-- The attempts of `advanceChunkRecvOperation`, in the order in which the code makes them. -/
def advanceChunkRecvOperation (error : Bool) :
    List (Transition RecvStaging ChunkRecvOperation RecvState) :=
  [ -- Needs to go after previous op invoked its callback because the last chunk in a series
    -- (that corresponds to one operation) must invoke its callback only when all chunks in
    -- the series are done.
    { source := .uninitialized
      target := .finished
      cond := fun _ prevOpState =>
        error && decide (.copyingFromCpuToGpuAndInvokedCallback ≤ prevOpState)
      actions := [callRecvCallback error] },
    { source := .uninitialized
      target := .readingReadyToSend
      cond := fun _ prevOpState => !error && decide (.readingReadyToSend ≤ prevOpState)
      actions := [readReadyToSend] },
    { source := .readingReadyToSend
      target := .finished
      cond := fun op prevOpState => error && op.doneReadingReadyToSend
        && decide (.copyingFromCpuToGpuAndInvokedCallback ≤ prevOpState)
      actions := [callRecvCallback error] },
    -- This operation shortcuts allocating staging memory when receiving directly on CPU.
    { source := .readingReadyToSend
      target := .receivingCpuBuffer
      cond := fun op prevOpState => !error && op.doneReadingReadyToSend && op.chunk.isCpuBuffer
        && decide (.receivingCpuBuffer ≤ prevOpState)
      actions := [receiveCpuBuffer] },
    -- Needs to go after previous op to ensure later operations are not holding staging
    -- buffers while earlier ones are still blocked waiting for them.
    { source := .readingReadyToSend
      target := .allocatingCpuBuffer
      cond := fun op prevOpState => !error && op.doneReadingReadyToSend && !op.chunk.isCpuBuffer
        && decide (.allocatingCpuBuffer ≤ prevOpState)
      actions := [allocateRecvCpuBuffer] },
    { source := .allocatingCpuBuffer
      target := .finished
      cond := fun op prevOpState => error && op.doneAllocatingCpuStagingBuffer
        && decide (.copyingFromCpuToGpuAndInvokedCallback ≤ prevOpState)
      actions := [callRecvCallback error, returnRecvCpuBuffer] },
    { source := .allocatingCpuBuffer
      target := .receivingCpuBuffer
      cond := fun op prevOpState => !error && op.doneAllocatingCpuStagingBuffer
        && decide (.receivingCpuBuffer ≤ prevOpState)
      actions := [receiveCpuBuffer] },
    { source := .receivingCpuBuffer
      target := .finished
      cond := fun op prevOpState => error && op.doneReceivingCpuBuffer && !op.chunk.isCpuBuffer
        && decide (.copyingFromCpuToGpuAndInvokedCallback ≤ prevOpState)
      actions := [callRecvCallback error, returnRecvCpuBuffer] },
    -- This transition shortcuts the copy to GPU when receiving on CPU memory.
    { source := .receivingCpuBuffer
      target := .finished
      cond := fun op _ => op.doneReceivingCpuBuffer && op.chunk.isCpuBuffer
      actions := [callRecvCallback error] },
    { source := .receivingCpuBuffer
      target := .copyingFromCpuToGpu
      cond := fun op _ => !error && op.doneReceivingCpuBuffer && !op.chunk.isCpuBuffer
      actions := [copyFromCpuToGpu] },
    { source := .copyingFromCpuToGpu
      target := .copyingFromCpuToGpuAndInvokedCallback
      cond := fun _ prevOpState => decide (.copyingFromCpuToGpuAndInvokedCallback ≤ prevOpState)
      actions := [callRecvCallback error] },
    { source := .copyingFromCpuToGpuAndInvokedCallback
      target := .finished
      cond := fun op _ => op.doneCopyingFromCpuToGpu
      actions := [returnRecvCpuBuffer] } ]

-- ── The channel ──────────────────────────────────────────────────────────────

/-- The sequence of chunks being sent. -/
abbrev SendQueue := Queue ChunkSendOperation SendStaging

/-- The sequence of chunks being received. -/
abbrev RecvQueue := Queue ChunkRecvOperation RecvStaging

/-- `error` tells whether `error_` is set.  `next` of the two queues are the sequence numbers
    of the chunks, the others those of the calls to send and recv. -/
structure ChannelImpl where
  error : Bool := false
  nextTensorBeingSent : Nat := 0
  nextTensorBeingReceived : Nat := 0
  send : SendQueue := { outside := {} }
  recv : RecvQueue := { outside := {} }
deriving DecidableEq, Repr

/-- The tasks of the loop.  The other channels of the context ask for a slot, or return the
    one that they name. -/
inductive Task where
  | send (buffer : Buffer) (length : Nat)
  | recv (buffer : Buffer) (length : Nat)
  | close
  | closeContext
  | sendGrant
  | recvGrant
  | sendReport (call : SendCall) (failed : Bool)
  | recvReport (call : RecvCall) (failed : Bool)
  | sendOther (slot : Option Nat)
  | recvOther (slot : Option Nat)
deriving DecidableEq, Repr

/-- A step of another channel with its allocator. -/
def Staging.other {Call : Type} (slot : Option Nat) (s : Staging Call) : Staging Call :=
  match slot with
  | none => s.answered (s.allocator.alloc none)
  | some slot => { s with others := s.others.erase slot }.answered (s.allocator.releaseChunk slot)

/-- The body of the loop of `sendImplFromLoop`. -/
def emplaceSend (error : Bool) (chunk : Chunk) (x : SendQueue) : SendQueue :=
  let op : ChunkSendOperation := { sequenceNumber := x.next, chunk, callback := chunk.isLast }
  Queue.advance (advanceChunkSendOperation error)
    { next := x.next + 1
      ops := x.ops ++ [op]
      outside := x.outside.record (.emplaced x.next chunk chunk.isLast) } x.next

/-- The loop of `sendImplFromLoop`; `fuel` bounds the rounds that are left. -/
def sendChunks (error : Bool) (buffer : Buffer) (sequenceNumber length : Nat) :
    Nat → Nat → SendQueue → SendQueue
  | 0, _, x => x
  | fuel + 1, offset, x =>
      if offset < length then
        sendChunks error buffer sequenceNumber length fuel (offset + kSlotSize)
          (emplaceSend error (buffer.chunk sequenceNumber length offset) x)
      else x

/-- Cuts a tensor into chunks; one without bytes is called back at once. -/
def sendImplFromLoop (error : Bool) (sequenceNumber : Nat) (buffer : Buffer) (length : Nat)
    (x : SendQueue) : SendQueue :=
  let y := { x with outside := x.outside.record (.submitted sequenceNumber buffer length) }
  if length = 0 then { y with outside := y.outside.record (.callback sequenceNumber error) }
  else sendChunks error buffer sequenceNumber length (ceilOfRatio length kSlotSize) 0 y

/-- Emplaces the receiving of a chunk and advances it. -/
def emplaceRecv (error : Bool) (chunk : Chunk) (x : RecvQueue) : RecvQueue :=
  let op : ChunkRecvOperation := { sequenceNumber := x.next, chunk, callback := chunk.isLast }
  Queue.advance (advanceChunkRecvOperation error)
    { next := x.next + 1
      ops := x.ops ++ [op]
      outside := x.outside.record (.emplaced x.next chunk chunk.isLast) } x.next

/-- The loop over the chunks of a tensor, from `offset` on. -/
def recvChunks (error : Bool) (buffer : Buffer) (sequenceNumber length : Nat) :
    Nat → Nat → RecvQueue → RecvQueue
  | 0, _, x => x
  | fuel + 1, offset, x =>
      if offset < length then
        recvChunks error buffer sequenceNumber length fuel (offset + kSlotSize)
          (emplaceRecv error (buffer.chunk sequenceNumber length offset) x)
      else x

/-- Cuts a tensor into chunks; one without bytes is called back at once. -/
def recvImplFromLoop (error : Bool) (sequenceNumber : Nat) (buffer : Buffer) (length : Nat)
    (x : RecvQueue) : RecvQueue :=
  let y := { x with outside := x.outside.record (.submitted sequenceNumber buffer length) }
  if length = 0 then { y with outside := y.outside.record (.callback sequenceNumber error) }
  else recvChunks error buffer sequenceNumber length (ceilOfRatio length kSlotSize) 0 y

/-- A callback of a call of the sending half, after the error was dealt with. -/
def onSendReport (error : Bool) (call : SendCall) (x : SendQueue) : SendQueue :=
  let y := { x with outside := x.outside.record (.reported call) }
  match call with
  | .allocate _ _ => y
  | .writeReadyToSend _ => y
  | .copyFromGpuToCpu n _ _ =>
      Queue.advance (advanceChunkSendOperation error)
        { y with
          ops := modifyOperation n (fun op => { op with doneCopyingFromGpuToCpu := true }) y.ops } n
  | .sendCpuBuffer n _ _ =>
      Queue.advance (advanceChunkSendOperation error)
        { y with
          ops := modifyOperation n (fun op => { op with doneSendingCpuBuffer := true }) y.ops } n

/-- A callback of the receiving half other than that of the allocator. -/
def onRecvReport (error : Bool) (call : RecvCall) (x : RecvQueue) : RecvQueue :=
  let y := { x with outside := x.outside.record (.reported call) }
  match call with
  | .readReadyToSend n =>
      Queue.advance (advanceChunkRecvOperation error)
        { y with
          ops := modifyOperation n (fun op => { op with doneReadingReadyToSend := true }) y.ops } n
  | .allocate _ _ => y
  | .receiveCpuBuffer n _ _ =>
      Queue.advance (advanceChunkRecvOperation error)
        { y with
          ops := modifyOperation n (fun op => { op with doneReceivingCpuBuffer := true }) y.ops } n
  | .copyFromCpuToGpu n _ _ =>
      Queue.advance (advanceChunkRecvOperation error)
        { y with
          ops := modifyOperation n (fun op => { op with doneCopyingFromCpuToGpu := true }) y.ops } n

/-- The callback of an allocation takes its place off the loop. -/
def Staging.deliver {Call : Type} (error : Bool) (n : Nat) (slot : Option Nat) (s : Staging Call) :
    Staging Call :=
  { s with grants := s.grants.tail }.record (.delivered n slot !error)

/-- What became of the slot of a callback that did not store it. -/
def Staging.drop {Call : Type} (error : Bool) (n : Nat) (slot : Option Nat) (s : Staging Call) :
    Staging Call :=
  match error, slot with
  | true, some slot =>
      (s.record (.dropped n slot)).answered (s.allocator.releaseChunk slot)
  | _, _ => s

/-- The allocation callback.  With an error the slot is not stored, and goes back when the
    callback returns. -/
def onSendGrant (error : Bool) (n : Nat) (slot : Option Nat) (x : SendQueue) : SendQueue :=
  let y := Queue.advance (advanceChunkSendOperation error)
    { x with
      outside := x.outside.deliver error n slot
      ops := modifyOperation n (fun op => { op with
        doneAllocatingCpuStagingBuffer := true
        tmpBuffer := if error then op.tmpBuffer else slot }) x.ops } n
  { y with outside := y.outside.drop error n slot }

/-- The callback of the allocator to a chunk being received. -/
def onRecvGrant (error : Bool) (n : Nat) (slot : Option Nat) (x : RecvQueue) : RecvQueue :=
  let y := Queue.advance (advanceChunkRecvOperation error)
    { x with
      outside := x.outside.deliver error n slot
      ops := modifyOperation n (fun op => { op with
        doneAllocatingCpuStagingBuffer := true
        tmpBuffer := if error then op.tmpBuffer else slot }) x.ops } n
  { y with outside := y.outside.drop error n slot }

namespace ChannelImpl

/-- A channel of a context that is closed already gets its error without being
    initialised. -/
def init (contextClosed : Bool) : ChannelImpl := { error := contextClosed }

/-- Once the error is set, both sequences are walked from their first operation. -/
def handleErrorImpl (x : ChannelImpl) : ChannelImpl :=
  { x with
    send := x.send.advanceAll (advanceChunkSendOperation x.error)
    recv := x.recv.advanceAll (advanceChunkRecvOperation x.error) }

/-- Don't overwrite an error that's already set. -/
def setError (failed : Bool) (x : ChannelImpl) : ChannelImpl :=
  if x.error || !failed then x
  else handleErrorImpl { x with error := true }

/-- A call of `send`, which a channel in error answers with that error. -/
def sendFromLoop (buffer : Buffer) (length : Nat) (x : ChannelImpl) : ChannelImpl :=
  { x with
    nextTensorBeingSent := x.nextTensorBeingSent + 1
    send :=
      if x.error then
        { x.send with outside := x.send.outside.record (.callback x.nextTensorBeingSent true) }
      else sendImplFromLoop x.error x.nextTensorBeingSent buffer length x.send }

/-- A call of `recv`, which a channel in error answers with that error. -/
def recvFromLoop (buffer : Buffer) (length : Nat) (x : ChannelImpl) : ChannelImpl :=
  { x with
    nextTensorBeingReceived := x.nextTensorBeingReceived + 1
    recv :=
      if x.error then
        { x.recv with outside := x.recv.outside.record (.callback x.nextTensorBeingReceived true) }
      else recvImplFromLoop x.error x.nextTensorBeingReceived buffer length x.recv }

/-- Runs the first answer of the allocator that is still deferred to the sending half. -/
def sendGrant (x : ChannelImpl) : ChannelImpl :=
  match x.send.outside.grants with
  | [] => x
  | (n, slot) :: _ =>
      let y := setError slot.isNone x
      { y with send := onSendGrant y.error n slot y.send }

/-- Runs the first answer of the allocator that is still deferred to the receiving half. -/
def recvGrant (x : ChannelImpl) : ChannelImpl :=
  match x.recv.outside.grants with
  | [] => x
  | (n, slot) :: _ =>
      let y := setError slot.isNone x
      { y with recv := onRecvGrant y.error n slot y.recv }

/-- The context closes its channels, and then its allocators. -/
def closeContext (x : ChannelImpl) : ChannelImpl :=
  let y := setError true x
  { y with
    send := { y.send with outside := y.send.outside.close }
    recv := { y.recv with outside := y.recv.outside.close } }

/-- A call reports once, while it is outstanding; an allocation reports by its grant. -/
def enabled (x : ChannelImpl) : Task → Prop
  | .sendReport call _ => x.send.outside.outstanding call ∧ ∀ n length, call ≠ .allocate n length
  | .recvReport call _ => x.recv.outside.outstanding call ∧ ∀ n length, call ≠ .allocate n length
  | .sendOther (some slot) => slot ∈ x.send.outside.others
  | .recvOther (some slot) => slot ∈ x.recv.outside.others
  | _ => True

/-- One task of the channel's loop. -/
def step (x : ChannelImpl) : Task → ChannelImpl
  | .send buffer length => sendFromLoop buffer length x
  | .recv buffer length => recvFromLoop buffer length x
  | .close => setError true x
  | .closeContext => closeContext x
  | .sendGrant => sendGrant x
  | .recvGrant => recvGrant x
  | .sendReport call failed =>
      let y := setError failed x
      { y with send := onSendReport y.error call y.send }
  | .recvReport call failed =>
      let y := setError failed x
      { y with recv := onRecvReport y.error call y.recv }
  | .sendOther slot => { x with send := { x.send with outside := x.send.outside.other slot } }
  | .recvOther slot => { x with recv := { x.recv with outside := x.recv.outside.other slot } }

/-- The states between two tasks of the loop, in runs of allowed tasks only. -/
inductive Reachable (allowed : ChannelImpl → Task → Prop) : ChannelImpl → Prop where
  | init (contextClosed : Bool) : Reachable allowed (init contextClosed)
  | step {x : ChannelImpl} (h : Reachable allowed x) (task : Task) (henabled : x.enabled task)
      (hallowed : allowed x task) : Reachable allowed (x.step task)

end ChannelImpl

end TpCudaBasic
