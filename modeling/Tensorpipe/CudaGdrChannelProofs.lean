import Mathlib.Data.List.Count
import Mathlib.Tactic.Common
import Tensorpipe.CudaGdrNicProofs
import Tensorpipe.OperationSideProofs

/-! # The cuda_gdr channel — chunks over InfiniBand

    Two channels tell each other how many NICs they have and connect a queue pair for every
    pair of NICs.  A send then tells its NIC in a descriptor, waits until the peer is ready to
    receive, for a CUDA event, and posts its chunks on the queue pair of the two NICs; a recv
    does the same with the descriptor that it reads.

    The two kinds of operations move through the same states under the same conditions and
    differ in what they read and write.  They are one definition here, told apart by the opcode
    of their requests.

    Every request that is posted is a call that reports when its callback runs, in any order. -/

namespace TpCudaGdr

open TpStateMachine

-- ── Operations ───────────────────────────────────────────────────────────────

/-- `READING` is `READING_READY_TO_RECEIVE` of a send and `READING_DESCRIPTOR` of a recv;
    `OVER_IB` is `SENDING_OVER_IB` and `RECEIVING_OVER_IB`. -/
inductive OpState where
  | UNINITIALIZED
  | READING
  | WAITING_FOR_CUDA_EVENT
  | OVER_IB
  | FINISHED
deriving DecidableEq, Repr

/-- The place of a state in the order of the declaration. -/
def OpState.rank : OpState → Nat
  | UNINITIALIZED => 0
  | READING => 1
  | WAITING_FOR_CUDA_EVENT => 2
  | OVER_IB => 3
  | FINISHED => 4

instance : LE OpState := ⟨fun a b => a.rank ≤ b.rank⟩
instance (a b : OpState) : Decidable (a ≤ b) := inferInstanceAs (Decidable (a.rank ≤ b.rank))

/-- A send or a recv.  `numChunks` is `numChunksBeingSent` or `numChunksBeingReceived`; `lkey` is
    the key of the memory region that is registered for the buffer. -/
structure Op where
  sequenceNumber : Nat
  state : OpState := .UNINITIALIZED
  doneReading : Bool := false
  doneWaitingForCudaEvent : Bool := false
  numChunks : Nat := 0
  ptr : Nat
  length : Nat
  lkey : UInt32
  localNicIdx : Nat
  remoteNicIdx : Option Nat := none
deriving DecidableEq, Repr

instance : Operation Op OpState where
  sequenceNumber := Op.sequenceNumber
  state := Op.state
  withState op st := { op with state := st }
  finished := .FINISHED
  state_withState _ _ := rfl
  sequenceNumber_withState _ _ := rfl

/-- What an operation calls.  A send writes its descriptor and reads that the peer is ready to
    receive, a recv reads a descriptor and writes that it is ready.  `queuePair` only records an
    access to `queuePairs_`, and whether there was an element. -/
inductive Call where
  | write (n nicIdx : Nat)
  | read (n : Nat)
  | waitForCudaEvent (n : Nat)
  | post (n chunkIdx localNicIdx remoteNicIdx : Nat) (info : Info)
  | queuePair (n : Nat) (found : Bool)
deriving DecidableEq, Repr

/-- Whether a call is handed to a NIC. -/
def Call.isPost : Call → Bool
  | .post .. => true
  | _ => false

/-- A queue pair, with the longest message that both ends can take. -/
structure QueuePair where
  qpNum : UInt32
  maximumMessageSize : Nat
deriving DecidableEq, Repr

/-- What the transitions read of the channel. -/
structure View where
  error : Bool
  established : Bool
  queuePairs : List (List QueuePair)

/-- `queuePairs_[localNicIdx][remoteNicIdx]`, if there is such an element. -/
def queuePairAt (queuePairs : List (List QueuePair)) (localNicIdx remoteNicIdx : Nat) :
    Option QueuePair :=
  queuePairs[localNicIdx]?.bind (fun row => row[remoteNicIdx]?)

-- ── Actions ──────────────────────────────────────────────────────────────────

/-- The quotient, rounded up. -/
def ceilOfRatio (n d : Nat) : Nat := (n + d - 1) / d

/-- Writes the descriptor, which says by which NIC the tensor leaves. -/
def writeDescriptor (io : Io Call) (op : Op) : Outcome (Io Call × Op) :=
  .returns (io.issue (.write op.sequenceNumber op.localNicIdx), op)

/-- Waits until the peer is ready to receive. -/
def readReadyToReceive (io : Io Call) (op : Op) : Outcome (Io Call × Op) :=
  .returns (io.issue (.read op.sequenceNumber), op)

/-- Reads the descriptor. -/
def readDescriptor (io : Io Call) (op : Op) : Outcome (Io Call × Op) :=
  .returns (io.issue (.read op.sequenceNumber), op)

/-- `waitForSendCudaEvent` and `waitForRecvCudaEvent`. -/
def waitForCudaEvent (io : Io Call) (op : Op) : Outcome (Io Call × Op) :=
  .returns (io.issue (.waitForCudaEvent op.sequenceNumber), op)

/-- The part of the tensor that one request covers. -/
def chunkInfo (op : Op) (qp : QueuePair) (chunkIdx : Nat) : Info where
  qpNum := qp.qpNum
  addr := op.ptr + chunkIdx * qp.maximumMessageSize
  length := Nat.min (op.length - chunkIdx * qp.maximumMessageSize) qp.maximumMessageSize
  lkey := op.lkey

/-- The loop over the chunks, with the number of rounds that are left. -/
def postChunks (qp : QueuePair) (remoteNicIdx : Nat) : Nat → Nat → Io Call × Op → Io Call × Op
  | 0, _, x => x
  | left + 1, chunkIdx, (io, op) =>
      let call := .post op.sequenceNumber chunkIdx op.localNicIdx remoteNicIdx
        (chunkInfo op qp chunkIdx)
      postChunks qp remoteNicIdx left (chunkIdx + 1)
        (io.issue call, { op with numChunks := op.numChunks + 1 })

/-- Notes an access to `queuePairs_`. -/
def accessed (io : Io Call) (n : Nat) (found : Bool) : Io Call :=
  { io with issued := io.issued ++ [.queuePair n found] }

/-- The part that sends and recvs share.  An access outside `queuePairs_` is only recorded. -/
def overIb (v : View) (io : Io Call) (op : Op) : Io Call × Op :=
  match op.remoteNicIdx with
  | none => (accessed io op.sequenceNumber false, op)
  | some remoteNicIdx =>
      match queuePairAt v.queuePairs op.localNicIdx remoteNicIdx with
      | none => (accessed io op.sequenceNumber false, op)
      | some qp =>
          let numChunks := ceilOfRatio op.length qp.maximumMessageSize
          postChunks qp remoteNicIdx numChunks 0 (accessed io op.sequenceNumber true, op)

/-- Posts the chunks of a tensor to be sent. -/
def sendOverIb (v : View) (io : Io Call) (op : Op) : Outcome (Io Call × Op) :=
  .returns (overIb v io op)

/-- Posts the chunks of a tensor to be received, then tells the peer. -/
def recvOverIbAndWriteReadyToRecive (v : View) (io : Io Call) (op : Op) :
    Outcome (Io Call × Op) :=
  let (io', op') := overIb v io op
  .returns (io'.issue (.write op.sequenceNumber op.localNicIdx), op')

/-- `callSendCallback` and `callRecvCallback`. -/
def callCallback (error : Bool) (io : Io Call) (op : Op) : Outcome (Io Call × Op) :=
  .returns (io.callback op.sequenceNumber error, op)

-- ── The transitions ──────────────────────────────────────────────────────────

/-- The transitions of a kind of operations, given how it begins to read and to transfer. -/
def transitions (v : View)
    (beginReading beginOverIb : List (Io Call → Op → Outcome (Io Call × Op))) :
    List (Transition (Io Call) Op OpState) :=
  [ { source := .UNINITIALIZED
      target := .FINISHED
      cond := fun op _ => v.error || op.length == 0
      actions := [callCallback v.error] },
    -- Needs to go after previous op to ensure predictable and consistent ordering of calls on
    -- the descriptor control connection and the completion control connection.
    { source := .UNINITIALIZED
      target := .READING
      cond := fun _ prevOpState => !v.error && v.established && decide (.READING ≤ prevOpState)
      actions := beginReading },
    { source := .READING
      target := .FINISHED
      cond := fun op _ => v.error && op.doneReading
      actions := [callCallback v.error] },
    -- This doesn't strictly need to go after the previous op, but it doesn't make sense to busy
    -- poll multiple events if only one of them is actually able to then make progress.
    { source := .READING
      target := .WAITING_FOR_CUDA_EVENT
      cond := fun op prevOpState => !v.error && op.doneReading && decide (.OVER_IB ≤ prevOpState)
      actions := [waitForCudaEvent] },
    { source := .WAITING_FOR_CUDA_EVENT
      target := .FINISHED
      cond := fun op _ => v.error && op.doneWaitingForCudaEvent
      actions := [callCallback v.error] },
    -- Needs to go after previous op to ensure predictable and consistent ordering of calls on
    -- InfiniBand queue pair.
    { source := .WAITING_FOR_CUDA_EVENT
      target := .OVER_IB
      cond := fun op prevOpState =>
        !v.error && op.doneWaitingForCudaEvent && decide (.OVER_IB ≤ prevOpState)
      actions := beginOverIb },
    { source := .OVER_IB
      target := .FINISHED
      cond := fun op _ => op.numChunks == 0
      actions := [callCallback v.error] } ]

/-- The attempts of `advanceSendOperation`. -/
def advanceSendOperation (v : View) : List (Transition (Io Call) Op OpState) :=
  transitions v [writeDescriptor, readReadyToReceive] [sendOverIb v]

/-- The attempts of `advanceRecvOperation`. -/
def advanceRecvOperation (v : View) : List (Transition (Io Call) Op OpState) :=
  transitions v [readDescriptor] [recvOverIbAndWriteReadyToRecive v]

/-- The attempts of either kind of operation. -/
def advanceOp (kind : WcOpcode) (v : View) : List (Transition (Io Call) Op OpState) :=
  match kind with
  | .WC_SEND => advanceSendOperation v
  | .WC_RECV => advanceRecvOperation v

-- ── The channel ──────────────────────────────────────────────────────────────

/-- The states of a channel, up to the end of the handshake. -/
inductive ChannelState where
  | INITIALIZING
  | WAITING_FOR_HANDSHAKE_NUM_NICS
  | WAITING_FOR_HANDSHAKE_SETUP_INFO
  | ESTABLISHED
deriving DecidableEq, Repr

/-- `sides` has the two queues, and `numInFlight` has `numSendsInFlight_` and
    `numRecvsInFlight_`.  `cleanups` counts how often the cleanup has run and `unenrolled` how often
    the channel was unenrolled; `outOfRange` records that a loop over the queue pairs has gone
    outside of them. -/
structure ChannelImpl where
  gpuToNic : List Nat
  numLocalNics : Nat
  numRemoteNics : Nat := 0
  state : ChannelState := .INITIALIZING
  error : Bool := false
  queuePairs : List (List QueuePair) := []
  sides : PerKind (Side Op Call) := ⟨{}, {}⟩
  numInFlight : PerKind Int := ⟨0, 0⟩
  cleanups : Nat := 0
  unenrolled : Nat := 0
  outOfRange : Bool := false
deriving DecidableEq, Repr

namespace ChannelImpl

/-- `initImplFromLoop`, up to the first round of the handshake. -/
def init (gpuToNic : List Nat) : ChannelImpl where
  gpuToNic
  numLocalNics := gpuToNic.foldl Nat.max 0 + 1
  state := .WAITING_FOR_HANDSHAKE_NUM_NICS

/-- What the operations look at in the channel. -/
def view (x : ChannelImpl) : View where
  error := x.error
  established := x.state = .ESTABLISHED
  queuePairs := x.queuePairs

/-- One of the two sequences. -/
def side (x : ChannelImpl) (kind : WcOpcode) : Side Op Call := x.sides.get kind

/-- The requests that were posted from one state of a queue to a later one. -/
def newPosts (side side' : Side Op Call) : List Call :=
  (side'.io.issued.drop side.io.issued.length).filter Call.isPost

/-- Replace one queue by what became of it.  The requests that it posted are counted here: the
    source counts each one as it is posted, and reads the counters only afterwards. -/
def withSide (kind : WcOpcode) (side : Side Op Call) (x : ChannelImpl) : ChannelImpl :=
  { x with
    sides := x.sides.set kind side
    numInFlight := x.numInFlight.set kind
      (x.numInFlight.get kind + (newPosts (x.side kind) side).length) }

/-- Advances a sequence from its first operation on. -/
def advanceAll (kind : WcOpcode) (x : ChannelImpl) : ChannelImpl :=
  x.withSide kind ((x.side kind).advanceAll (advanceOp kind x.view))

/-- What the loops over all the queue pairs access. -/
def accessAll (x : ChannelImpl) : ChannelImpl :=
  let inRange := (List.range x.numLocalNics).all (fun localNicIdx =>
    (List.range x.numRemoteNics).all (fun remoteNicIdx =>
      (queuePairAt x.queuePairs localNicIdx remoteNicIdx).isSome))
  { x with outOfRange := x.outOfRange || !inRange }

/-- Destroys the queue pairs and leaves the context. -/
def cleanup (x : ChannelImpl) : ChannelImpl :=
  { x with queuePairs := [], cleanups := x.cleanups + 1, unenrolled := x.unenrolled + 1 }

/-- A channel in error is cleaned up when nothing of it is in flight. -/
def tryCleanup (x : ChannelImpl) : ChannelImpl :=
  if x.error then
    if x.numInFlight.send = 0 ∧ x.numInFlight.recv = 0 then x.cleanup else x
  else x

/-- What the first error does: the operations advance, the queue pairs are in error. -/
def handleErrorImpl (x : ChannelImpl) : ChannelImpl :=
  let x := (x.advanceAll .WC_SEND).advanceAll .WC_RECV
  -- each queue pair is set to an error state
  x.accessAll.tryCleanup

/-- Don't overwrite an error that's already set. -/
def setError (failed : Bool) (x : ChannelImpl) : ChannelImpl :=
  if x.error || !failed then x else handleErrorImpl { x with error := true }

/-- The number of NICs of the peer was read: the queue pairs are created. -/
def onReadHandshakeNumNics (numNics : Nat) (qpNums : Nat → Nat → UInt32) (x : ChannelImpl) :
    ChannelImpl :=
  { x with
    numRemoteNics := numNics
    queuePairs := (List.range x.numLocalNics).map (fun localNicIdx =>
      (List.range numNics).map (fun remoteNicIdx =>
        -- the maximum message size will be filled in later
        { qpNum := qpNums localNicIdx remoteNicIdx, maximumMessageSize := 0 }))
    state := .WAITING_FOR_HANDSHAKE_SETUP_INFO }

/-- The sizes are those of the local NICs, and those that the peer has for its NICs and ours. -/
def onReadHandshakeSetupInfo (localSizes : Nat → Nat) (remoteSizes : Nat → Nat → Nat)
    (x : ChannelImpl) : ChannelImpl :=
  let x := x.accessAll
  let x := { x with
    queuePairs := x.queuePairs.mapIdx (fun localNicIdx (row : List QueuePair) =>
      row.mapIdx (fun remoteNicIdx (qp : QueuePair) =>
        { qp with maximumMessageSize :=
            Nat.min (localSizes localNicIdx) (remoteSizes remoteNicIdx localNicIdx) }))
    state := .ESTABLISHED }
  (x.advanceAll .WC_SEND).advanceAll .WC_RECV

/-- A call of `send` or `recv`: refused by a channel in error, a new operation otherwise. -/
def transferFromLoop (kind : WcOpcode) (gpuIdx ptr length : Nat) (lkey : UInt32)
    (x : ChannelImpl) : ChannelImpl :=
  if x.error then x.withSide kind (x.side kind).refuse
  else x.withSide kind ((x.side kind).submit (advanceOp kind x.view)
    { sequenceNumber := (x.side kind).next, ptr, length, lkey
      localNicIdx := x.gpuToNic[gpuIdx]?.getD 0 })

/-- The two calls of the source. -/
def sendFromLoop := transferFromLoop .WC_SEND
def recvFromLoop := transferFromLoop .WC_RECV

/-- A callback of one of the sequences. -/
def report (kind : WcOpcode) (call : Call) (n : Nat) (f : Op → Op) (x : ChannelImpl) :
    ChannelImpl :=
  x.withSide kind ((x.side kind).report (advanceOp kind x.view) call n f)

/-- The callbacks of the calls, after the error was dealt with.  `nicIdx` is what was read. -/
def onReport (kind : WcOpcode) (call : Call) (nicIdx : Nat) (x : ChannelImpl) : ChannelImpl :=
  match call with
  | .write _ _ => x.withSide kind ((x.side kind).forget call)
  | .read n =>
      x.report kind call n (fun op => { op with
        doneReading := true
        remoteNicIdx := if x.error then op.remoteNicIdx else some nicIdx })
  | .waitForCudaEvent n =>
      x.report kind call n (fun op => { op with doneWaitingForCudaEvent := true })
  | .post n _ _ _ _ =>
      let x := x.report kind call n (fun op => { op with numChunks := op.numChunks - 1 })
      { x with numInFlight := x.numInFlight.set kind (x.numInFlight.get kind - 1) }.tryCleanup
  | .queuePair _ _ => x

/-- The tasks of the loop.  A callback says whether it got an error, and a read what it read. -/
inductive Task where
  | transfer (kind : WcOpcode) (gpuIdx ptr length : Nat) (lkey : UInt32)
  | close
  | wroteHandshake (failed : Bool)
  | readHandshakeNumNics (failed : Bool) (numNics : Nat) (qpNums : Nat → Nat → UInt32)
  | readHandshakeSetupInfo (failed : Bool) (localSizes : Nat → Nat)
      (remoteSizes : Nat → Nat → Nat)
  | report (kind : WcOpcode) (call : Call) (failed : Bool) (nicIdx : Nat)

/-- Buffers are on a GPU that there is; the handshake reads come in order; a call reports once,
    while it is outstanding, and the peer announces one of the NICs that it has. -/
def enabled (x : ChannelImpl) : Task → Prop
  | .transfer _ gpuIdx _ _ _ => gpuIdx < x.gpuToNic.length
  | .readHandshakeNumNics _ _ _ => x.state = .WAITING_FOR_HANDSHAKE_NUM_NICS
  | .readHandshakeSetupInfo _ _ _ => x.state = .WAITING_FOR_HANDSHAKE_SETUP_INFO
  | .report kind call failed nicIdx => call ∈ (x.side kind).io.calls
      ∧ ∀ n, call = .read n → failed = false → nicIdx < x.numRemoteNics
  | _ => True

/-- One task of the channel's loop. -/
def step (x : ChannelImpl) : Task → ChannelImpl
  | .transfer kind gpuIdx ptr length lkey =>
      match kind with
      | .WC_SEND => x.sendFromLoop gpuIdx ptr length lkey
      | .WC_RECV => x.recvFromLoop gpuIdx ptr length lkey
  | .close => x.setError true
  | .wroteHandshake failed => x.setError failed
  | .readHandshakeNumNics failed numNics qpNums =>
      let x := x.setError failed
      if x.error then x else x.onReadHandshakeNumNics numNics qpNums
  | .readHandshakeSetupInfo failed localSizes remoteSizes =>
      let x := x.setError failed
      if x.error then x else x.onReadHandshakeSetupInfo localSizes remoteSizes
  | .report kind call failed nicIdx => (x.setError failed).onReport kind call nicIdx

/-- The states between two tasks of the loop. -/
inductive Reachable : ChannelImpl → Prop where
  | init (gpuToNic : List Nat) : Reachable (init gpuToNic)
  | step {x : ChannelImpl} (h : Reachable x) (task : Task) (henabled : x.enabled task) :
      Reachable (x.step task)

end ChannelImpl

-- ── What the actions do ──────────────────────────────────────────────────────

/-- `Extends s s'`: some calls were issued, and the requests among them are outstanding. -/
def Extends (s s' : Io Call) : Prop :=
  ∃ new, s'.issued = s.issued ++ new
    ∧ s'.calls.filter Call.isPost = s.calls.filter Call.isPost ++ new.filter Call.isPost

/-- Nothing was issued. -/
theorem Extends.refl (s : Io Call) : Extends s s :=
  ⟨[], (List.append_nil _).symm, (List.append_nil _).symm⟩

/-- What was issued first and what was issued later. -/
theorem Extends.trans {s s' s'' : Io Call} (h : Extends s s') (h' : Extends s' s'') :
    Extends s s'' := by
  obtain ⟨new, hissued, hcalls⟩ := h
  obtain ⟨new', hissued', hcalls'⟩ := h'
  refine ⟨new ++ new', ?_, ?_⟩
  · rw [hissued', hissued, List.append_assoc]
  · rw [hcalls', hcalls, List.filter_append, List.append_assoc]

/-- One call was issued. -/
theorem issue_extends (s : Io Call) (c : Call) : Extends s (s.issue c) :=
  ⟨[c], rfl, List.filter_append ..⟩

/-- The requests of the chunks from one on. -/
def chunkPosts (op : Op) (qp : QueuePair) (remoteNicIdx : Nat) : Nat → Nat → List Call
  | 0, _ => []
  | left + 1, chunkIdx =>
      .post op.sequenceNumber chunkIdx op.localNicIdx remoteNicIdx (chunkInfo op qp chunkIdx)
        :: chunkPosts op qp remoteNicIdx left (chunkIdx + 1)

/-- The posts depend on the tensor and its NICs. -/
theorem chunkPosts_congr {op op' : Op} (hseq : op'.sequenceNumber = op.sequenceNumber)
    (hnic : op'.localNicIdx = op.localNicIdx)
    (hinfo : ∀ qp chunkIdx, chunkInfo op' qp chunkIdx = chunkInfo op qp chunkIdx)
    (qp : QueuePair) (remoteNicIdx left : Nat) :
    ∀ chunkIdx, chunkPosts op' qp remoteNicIdx left chunkIdx
      = chunkPosts op qp remoteNicIdx left chunkIdx := by
  induction left with
  | zero => intro chunkIdx; rfl
  | succ left ih =>
      intro chunkIdx
      rw [chunkPosts, chunkPosts, hseq, hnic, hinfo, ih]

/-- What the loop over the chunks comes to. -/
theorem postChunks_eq (qp : QueuePair) (remoteNicIdx left : Nat) :
    ∀ (chunkIdx : Nat) (io : Io Call) (op : Op),
      postChunks qp remoteNicIdx left chunkIdx (io, op)
        = ({ io with
              calls := io.calls ++ chunkPosts op qp remoteNicIdx left chunkIdx
              issued := io.issued ++ chunkPosts op qp remoteNicIdx left chunkIdx },
            { op with numChunks := op.numChunks + left }) := by
  induction left with
  | zero =>
      intro chunkIdx io op
      rw [chunkPosts, List.append_nil, List.append_nil]
      rfl
  | succ left ih =>
      intro chunkIdx io op
      have hsame := @chunkPosts_congr op { op with numChunks := op.numChunks + 1 } rfl rfl
        (fun _ _ => rfl) qp remoteNicIdx left (chunkIdx + 1)
      rw [postChunks, ih, hsame, chunkPosts]
      simp only [Io.issue, List.append_assoc, List.singleton_append, Nat.add_assoc,
        Nat.add_comm 1 left]

/-- The posts of a tensor are posts of its chunks. -/
theorem chunkPosts_all (op : Op) (qp : QueuePair) (remoteNicIdx left : Nat) :
    ∀ chunkIdx, ∀ c ∈ chunkPosts op qp remoteNicIdx left chunkIdx,
      ∃ i, c = .post op.sequenceNumber i op.localNicIdx remoteNicIdx (chunkInfo op qp i) := by
  induction left with
  | zero => intro chunkIdx c hc; exact nomatch hc
  | succ left ih =>
      intro chunkIdx c hc
      rcases List.mem_cons.mp hc with rfl | hc
      · exact ⟨chunkIdx, rfl⟩
      · exact ih _ c hc

/-- There is one post for each chunk. -/
theorem chunkPosts_length (op : Op) (qp : QueuePair) (remoteNicIdx left : Nat) :
    ∀ chunkIdx, (chunkPosts op qp remoteNicIdx left chunkIdx).length = left := by
  induction left with
  | zero => intro chunkIdx; rfl
  | succ left ih =>
      intro chunkIdx
      rw [chunkPosts, List.length_cons, ih]

/-- What the transfer comes to: an access, and the requests if there was a queue pair. -/
theorem overIb_spec (v : View) (io : Io Call) (op : Op) :
    ∃ posts : List Call, ∃ found : Bool,
      overIb v io op = ({ io with
          calls := io.calls ++ posts
          issued := io.issued ++ .queuePair op.sequenceNumber found :: posts },
        { op with numChunks := op.numChunks + posts.length })
      ∧ (∀ c ∈ posts, ∃ i r info, c = .post op.sequenceNumber i op.localNicIdx r info)
      ∧ (found = false → ∀ r, op.remoteNicIdx = some r →
          queuePairAt v.queuePairs op.localNicIdx r = none) := by
  -- An access outside posts nothing.
  have hmiss : ∃ posts : List Call, (accessed io op.sequenceNumber false, op) = ({ io with
      calls := io.calls ++ posts
      issued := io.issued ++ .queuePair op.sequenceNumber false :: posts },
    { op with numChunks := op.numChunks + posts.length }) ∧ posts = [] :=
    ⟨[], by simp only [accessed, List.append_nil, List.length_nil, Nat.add_zero], rfl⟩
  obtain ⟨posts, hmiss, rfl⟩ := hmiss
  rw [overIb]
  split
  · rename_i hremote
    exact ⟨[], false, hmiss, nofun, fun _ r hr => nomatch hremote.symm.trans hr⟩
  · rename_i r hremote
    split
    · rename_i hqp
      refine ⟨[], false, hmiss, nofun, fun _ r' hr => ?_⟩
      obtain rfl := Option.some.inj (hremote.symm.trans hr)
      exact hqp
    · rename_i qp hqp
      refine ⟨chunkPosts op qp r (ceilOfRatio op.length qp.maximumMessageSize) 0, true, ?_, ?_,
        nofun⟩
      · simp only [postChunks_eq, chunkPosts_length, accessed, List.append_assoc,
          List.singleton_append]
      · intro c hc
        obtain ⟨i, rfl⟩ := chunkPosts_all _ _ _ _ _ c hc
        exact ⟨i, r, _, rfl⟩

/-- Going over InfiniBand only issues calls. -/
theorem overIb_extends (v : View) (io : Io Call) (op : Op) : Extends io (overIb v io op).1 := by
  obtain ⟨posts, found, heq, hposts, -⟩ := overIb_spec v io op
  rw [heq]
  exact ⟨.queuePair op.sequenceNumber found :: posts, rfl, List.filter_append ..⟩

/-- Every action extends what was issued. -/
theorem advanceOp_extends (kind : WcOpcode) (v : View) (s₀ : Io Call) :
    Keeps (advanceOp kind v) (Extends s₀) := by
  intro t ht a ha s op h
  have hread : Extends s₀ (s.issue (.read op.sequenceNumber)) := h.trans (issue_extends _ _)
  have hwait : Extends s₀ (s.issue (.waitForCudaEvent op.sequenceNumber)) :=
    h.trans (issue_extends _ _)
  have hwrite : ∀ s, Extends s₀ s →
      Extends s₀ (s.issue (.write op.sequenceNumber op.localNicIdx)) :=
    fun s h => h.trans (issue_extends _ _)
  have hib : Extends s₀ (overIb v s op).1 := h.trans (overIb_extends v s op)
  have hcallback : ∀ error, Extends s₀ (s.callback op.sequenceNumber error) := fun _ => h
  cases kind with
  | WC_SEND =>
      simp only [advanceOp, advanceSendOperation, transitions, List.mem_cons, List.not_mem_nil,
        or_false] at ht
      rcases ht with rfl | rfl | rfl | rfl | rfl | rfl | rfl
      all_goals simp only [List.mem_cons, List.not_mem_nil, or_false] at ha
      · rw [ha]; exact hcallback _
      · rcases ha with rfl | rfl
        · exact hwrite s h
        · exact hread
      · rw [ha]; exact hcallback _
      · rw [ha]; exact hwait
      · rw [ha]; exact hcallback _
      · rw [ha]; exact hib
      · rw [ha]; exact hcallback _
  | WC_RECV =>
      simp only [advanceOp, advanceRecvOperation, transitions, List.mem_cons, List.not_mem_nil,
        or_false] at ht
      rcases ht with rfl | rfl | rfl | rfl | rfl | rfl | rfl
      all_goals simp only [List.mem_cons, List.not_mem_nil, or_false] at ha
      · rw [ha]; exact hcallback _
      · rw [ha]; exact hread
      · rw [ha]; exact hcallback _
      · rw [ha]; exact hwait
      · rw [ha]; exact hcallback _
      · rw [ha]; exact hwrite _ hib
      · rw [ha]; exact hcallback _

/-- After the error, nothing is issued any more. -/
theorem advanceOp_silent (kind : WcOpcode) {v : View} (herror : v.error = true)
    (issued : List Call) : KeepsLive (advanceOp kind v) (fun s => s.issued = issued) := by
  intro t ht hlive a ha s op h
  obtain ⟨op₀, prev, hcond⟩ := hlive
  have hdead : ∀ b c : Bool, (!v.error && b && c) = true → False := by
    intro b c hb
    rw [herror] at hb
    exact Bool.false_ne_true hb
  cases kind with
  | WC_SEND =>
      simp only [advanceOp, advanceSendOperation, transitions, List.mem_cons, List.not_mem_nil,
        or_false] at ht
      rcases ht with rfl | rfl | rfl | rfl | rfl | rfl | rfl
      · rw [List.mem_singleton.mp ha]; exact h
      · exact (hdead _ _ hcond).elim
      · rw [List.mem_singleton.mp ha]; exact h
      · exact (hdead _ _ hcond).elim
      · rw [List.mem_singleton.mp ha]; exact h
      · exact (hdead _ _ hcond).elim
      · rw [List.mem_singleton.mp ha]; exact h
  | WC_RECV =>
      simp only [advanceOp, advanceRecvOperation, transitions, List.mem_cons, List.not_mem_nil,
        or_false] at ht
      rcases ht with rfl | rfl | rfl | rfl | rfl | rfl | rfl
      · rw [List.mem_singleton.mp ha]; exact h
      · exact (hdead _ _ hcond).elim
      · rw [List.mem_singleton.mp ha]; exact h
      · exact (hdead _ _ hcond).elim
      · rw [List.mem_singleton.mp ha]; exact h
      · exact (hdead _ _ hcond).elim
      · rw [List.mem_singleton.mp ha]; exact h

-- ── What the calls captured ──────────────────────────────────────────────────

/-- The operation that the callback of a call captures, if there is one. -/
def Call.captures : Call → Option Nat
  | .read n | .waitForCudaEvent n | .post n _ _ _ _ => some n
  | .write _ _ | .queuePair _ _ => none

/-- An operation waits for what it reads, then for its CUDA event, then for its chunks. -/
def Op.waits (op : Op) : Call → Prop
  | .read _ => op.state = .READING ∧ op.doneReading = false
  | .waitForCudaEvent _ => op.state = .WAITING_FOR_CUDA_EVENT ∧ op.doneWaitingForCudaEvent = false
  | .post .. => op.state = .OVER_IB ∧ 0 < op.numChunks
  | .write _ _ | .queuePair _ _ => False

/-- What holds of each operation on its own, its NICs being among so many local and remote ones. -/
structure Op.Wf (numLocalNics numRemoteNics : Nat) (error : Bool) (op : Op) : Prop where
  localNic : op.localNicIdx < numLocalNics
  remoteNic : ∀ r, op.remoteNicIdx = some r → r < numRemoteNics
  unread : op.state = .UNINITIALIZED → op.doneReading = false
  told : error = false → op.state = .READING → op.doneReading = true → op.remoteNicIdx ≠ none
  waiting : op.state = .WAITING_FOR_CUDA_EVENT → op.remoteNicIdx ≠ none
  unwaited : op.state = .UNINITIALIZED ∨ op.state = .READING → op.doneWaitingForCudaEvent = false
  chunkless : op.state ≠ .OVER_IB → op.numChunks = 0

/-- What an operation waits for in each state. -/
def capture (numLocalNics numRemoteNics : Nat) (error : Bool) : Capture Op Call where
  captures := Call.captures
  pending op := match op.state with
    | .READING => if op.doneReading then 0 else 1
    | .WAITING_FOR_CUDA_EVENT => if op.doneWaitingForCudaEvent then 0 else 1
    | .OVER_IB => op.numChunks
    | _ => 0
  Fits := Op.waits
  Wf := Op.Wf numLocalNics numRemoteNics error

section Sound

variable {numLocalNics numRemoteNics : Nat} {v : View}

/-- An operation that waits for nothing may finish. -/
theorem fired_callback {t : Transition (Io Call) Op OpState} (htarget : t.target = .FINISHED)
    (io : Io Call) {op : Op} (hwf : op.Wf numLocalNics numRemoteNics v.error)
    (hchunks : op.numChunks = 0)
    (hpending : (capture numLocalNics numRemoteNics v.error).pending op = 0)
    (hnone : ∀ c, ¬ op.waits c) (error : Bool) :
    Fired (capture numLocalNics numRemoteNics v.error) t io op
      (io.callback op.sequenceNumber error, op) := by
  refine ⟨rfl, ?_, ⟨[], (List.append_nil _).symm, nofun, ?_⟩, fun c hfits => (hnone c hfits).elim,
    error, ?_⟩
  · rw [htarget]
    exact ⟨hwf.localNic, hwf.remoteNic, nofun, nofun, nofun, nofun, fun _ => hchunks⟩
  · rw [hpending, htarget]
    rfl
  · rw [htarget]
    rfl

/-- The transfer, when it is begun with an account that is even. -/
theorem fired_overIb {t : Transition (Io Call) Op OpState} (htarget : t.target = .OVER_IB)
    (io : Io Call) {op : Op} (hwf : op.Wf numLocalNics numRemoteNics v.error)
    (hstate : op.state = .WAITING_FOR_CUDA_EVENT) (hdone : op.doneWaitingForCudaEvent = true) :
    Fired (capture numLocalNics numRemoteNics v.error) t io op (overIb v io op) := by
  obtain ⟨posts, found, heq, hposts, -⟩ := overIb_spec v io op
  have hchunks : op.numChunks = 0 := hwf.chunkless (by rw [hstate]; exact nofun)
  rw [heq]
  refine ⟨rfl, ?_, ⟨posts, rfl, ?_, ?_⟩, ?_, false, ?_⟩
  · rw [htarget]
    exact ⟨hwf.localNic, hwf.remoteNic, nofun, nofun, nofun, nofun,
      fun hne => absurd rfl hne⟩
  · intro c hc n hcap
    obtain ⟨i, r, info, rfl⟩ := hposts c hc
    rw [htarget]
    refine ⟨(Option.some.inj hcap).symm, rfl, ?_⟩
    exact Nat.lt_of_lt_of_le (List.length_pos_of_mem hc) (Nat.le_add_left _ _)
  · have hall : posts.countP (fun c => (capture numLocalNics numRemoteNics v.error).captures c
        == some (Operation.sequenceNumber op)) = posts.length := by
      refine List.countP_eq_length.mpr (fun c hc => ?_)
      obtain ⟨i, r, info, rfl⟩ := hposts c hc
      exact beq_self_eq_true _
    rw [htarget, hall]
    show op.numChunks + posts.length = _
    simp only [capture, hstate, hdone, hchunks]
    rfl
  · intro c hfits
    cases c with
    | read n => exact nomatch hstate.symm.trans hfits.1
    | waitForCudaEvent n => exact nomatch hdone.symm.trans hfits.2
    | post n i l r info => exact nomatch hstate.symm.trans hfits.1
    | write | queuePair => exact hfits.elim
  · rw [htarget]
    exact (List.append_nil _).symm

/-- The calls with which an operation begins to read: one that captures it. -/
theorem fired_reading {t : Transition (Io Call) Op OpState} (htarget : t.target = .READING)
    (io : Io Call) {op : Op} (hwf : op.Wf numLocalNics numRemoteNics v.error)
    (hstate : op.state = .UNINITIALIZED) {new : List Call} {issued : List Call}
    (hnew : new = [.read op.sequenceNumber]
      ∨ new = [.write op.sequenceNumber op.localNicIdx, .read op.sequenceNumber]) :
    Fired (capture numLocalNics numRemoteNics v.error) t io op
      ({ io with calls := io.calls ++ new, issued }, op) := by
  have hunread := hwf.unread hstate
  have hunwaited := hwf.unwaited (Or.inl hstate)
  have hchunks : op.numChunks = 0 := hwf.chunkless (by rw [hstate]; exact nofun)
  refine ⟨rfl, ?_, ⟨new, rfl, ?_, ?_⟩, ?_, false, ?_⟩
  · rw [htarget]
    refine ⟨hwf.localNic, hwf.remoteNic, nofun, ?_, nofun, fun _ => hunwaited, fun _ => hchunks⟩
    intro _ _ hread
    exact absurd (hunread.symm.trans hread) Bool.false_ne_true
  · intro c hc n hcap
    have hread : c = .read op.sequenceNumber := by
      rcases hnew with rfl | rfl
      · exact List.mem_singleton.mp hc
      · rcases List.mem_cons.mp hc with rfl | hc
        · exact nomatch hcap
        · exact List.mem_singleton.mp hc
    subst hread
    rw [htarget]
    exact ⟨(Option.some.inj hcap).symm, rfl, hunread⟩
  · have hone : new.countP (fun c => (capture numLocalNics numRemoteNics v.error).captures c
        == some (Operation.sequenceNumber op)) = 1 := by
      rcases hnew with rfl | rfl
      · rw [List.countP_singleton]
        exact if_pos (beq_self_eq_true _)
      · rw [List.countP_cons, List.countP_singleton]
        exact congrArg₂ _ (if_pos (beq_self_eq_true _)) rfl
    rw [htarget, hone]
    simp only [capture, hstate, withState, hunread]
    rfl
  · intro c hfits
    cases c with
    | read n => exact nomatch hstate.symm.trans hfits.1
    | waitForCudaEvent n => exact nomatch hstate.symm.trans hfits.1
    | post n i l r info => exact nomatch hstate.symm.trans hfits.1
    | write | queuePair => exact hfits.elim
  · rw [htarget]
    exact (List.append_nil _).symm

/-- A call that captures nothing changes nothing of the account. -/
theorem fired_write {t : Transition (Io Call) Op OpState} {io : Io Call} {op : Op}
    {y : Io Call × Op}
    (h : Fired (capture numLocalNics numRemoteNics v.error) t io op y) (n nicIdx : Nat) :
    Fired (capture numLocalNics numRemoteNics v.error) t io op
      (y.1.issue (.write n nicIdx), y.2) := by
  obtain ⟨new, hcalls, hnew, hpending⟩ := h.calls
  refine ⟨h.number, h.wf, ⟨new ++ [.write n nicIdx], ?_, ?_, ?_⟩, h.fits, h.callbacks⟩
  · show y.1.calls ++ _ = _
    rw [hcalls, List.append_assoc]
  · intro c hc n' hcap
    rcases List.mem_append.mp hc with hold | hlast
    · exact hnew c hold n' hcap
    · rw [List.mem_singleton.mp hlast] at hcap
      exact nomatch hcap
  · rw [List.countP_append, hpending, List.countP_singleton]
    rfl

/-- Each attempt issues what its new state waits for, and nothing else. -/
theorem transitions_sound
    {beginReading beginOverIb : List (Io Call → Op → Outcome (Io Call × Op))}
    (hreading : ∀ t : Transition (Io Call) Op OpState, t.target = .READING → ∀ io op,
      op.Wf numLocalNics numRemoteNics v.error → op.state = .UNINITIALIZED →
      (runActions beginReading (io, op)).Post
        (Fired (capture numLocalNics numRemoteNics v.error) t io op) (fun _ => False))
    (hoverIb : ∀ t : Transition (Io Call) Op OpState, t.target = .OVER_IB → ∀ io op,
      op.Wf numLocalNics numRemoteNics v.error → op.state = .WAITING_FOR_CUDA_EVENT →
      op.doneWaitingForCudaEvent = true →
      (runActions beginOverIb (io, op)).Post
        (Fired (capture numLocalNics numRemoteNics v.error) t io op) (fun _ => False)) :
    Sound (capture numLocalNics numRemoteNics v.error) (transitions v beginReading beginOverIb)
      where
  idle := by
    intro op hfin
    have hstate : op.state = .FINISHED := hfin
    simp only [capture, hstate]
  notFinished := by
    intro t ht
    simp only [transitions, List.mem_cons, List.not_mem_nil, or_false] at ht
    rcases ht with rfl | rfl | rfl | rfl | rfl | rfl | rfl
    all_goals exact nofun
  fire := by
    intro t ht io op prev hwf hsource hcond
    -- An operation that has what it waited for has no call outstanding.
    have hnone : ∀ c, (op.state = .UNINITIALIZED
        ∨ (op.state = .READING ∧ op.doneReading = true)
        ∨ (op.state = .WAITING_FOR_CUDA_EVENT ∧ op.doneWaitingForCudaEvent = true)
        ∨ (op.state = .OVER_IB ∧ op.numChunks = 0)) → ¬ op.waits c := by
      intro c hcases hwaits
      cases c with
      | write | queuePair => exact hwaits
      | read n =>
          obtain ⟨hstate, hundone⟩ := hwaits
          rw [hstate, hundone] at hcases
          simp at hcases
      | waitForCudaEvent n =>
          obtain ⟨hstate, hundone⟩ := hwaits
          rw [hstate, hundone] at hcases
          simp at hcases
      | post n i l r info =>
          obtain ⟨hstate, hpos⟩ := hwaits
          rw [hstate] at hcases
          simp at hcases
          omega
    simp only [transitions, List.mem_cons, List.not_mem_nil, or_false] at ht
    rcases ht with rfl | rfl | rfl | rfl | rfl | rfl | rfl
    · have hstate : op.state = .UNINITIALIZED := hsource
      refine fired_callback rfl io hwf (hwf.chunkless (by rw [hstate]; exact nofun)) ?_
        (fun c => hnone c (Or.inl hstate)) _
      simp only [capture, hstate]
    · exact hreading _ rfl io op hwf hsource
    · have hstate : op.state = .READING := hsource
      have hdone : op.doneReading = true := (Bool.and_eq_true_iff.mp hcond).2
      refine fired_callback rfl io hwf (hwf.chunkless (by rw [hstate]; exact nofun)) ?_
        (fun c => hnone c (Or.inr (Or.inl ⟨hstate, hdone⟩))) _
      simp only [capture, hstate, hdone]
      rfl
    · have hstate : op.state = .READING := hsource
      have hlive : v.error = false ∧ op.doneReading = true := by
        have hboth := Bool.and_eq_true_iff.mp (Bool.and_eq_true_iff.mp hcond).1
        exact ⟨Bool.not_eq_true' _ ▸ hboth.1, hboth.2⟩
      have hunwaited := hwf.unwaited (Or.inr hstate)
      have hchunks : op.numChunks = 0 := hwf.chunkless (by rw [hstate]; exact nofun)
      refine ⟨rfl, ?_, ⟨[.waitForCudaEvent op.sequenceNumber], rfl, ?_, ?_⟩,
        fun c hfits => absurd hfits (hnone c (Or.inr (Or.inl ⟨hstate, hlive.2⟩))), false,
        (List.append_nil _).symm⟩
      · exact ⟨hwf.localNic, hwf.remoteNic, nofun, nofun,
          fun _ => hwf.told hlive.1 hstate hlive.2, nofun, fun _ => hchunks⟩
      · intro c hc n hcap
        rw [List.mem_singleton.mp hc] at hcap ⊢
        exact ⟨(Option.some.inj hcap).symm, rfl, hunwaited⟩
      · rw [List.countP_singleton]
        simp only [capture, hstate, hlive.2, withState, hunwaited]
        simp [Call.captures, sequenceNumber]
    · have hstate : op.state = .WAITING_FOR_CUDA_EVENT := hsource
      have hdone : op.doneWaitingForCudaEvent = true := (Bool.and_eq_true_iff.mp hcond).2
      refine fired_callback rfl io hwf (hwf.chunkless (by rw [hstate]; exact nofun)) ?_
        (fun c => hnone c (Or.inr (Or.inr (Or.inl ⟨hstate, hdone⟩)))) _
      simp only [capture, hstate, hdone]
      rfl
    · exact hoverIb _ rfl io op hwf hsource
        (Bool.and_eq_true_iff.mp (Bool.and_eq_true_iff.mp hcond).1).2
    · have hstate : op.state = .OVER_IB := hsource
      have hchunks : op.numChunks = 0 := beq_iff_eq.mp hcond
      refine fired_callback rfl io hwf hchunks ?_
        (fun c => hnone c (Or.inr (Or.inr (Or.inr ⟨hstate, hchunks⟩)))) _
      simp only [capture, hstate, hchunks]

/-- Both kinds of operations issue what they wait for. -/
theorem advanceOp_sound (kind : WcOpcode) :
    Sound (capture numLocalNics numRemoteNics v.error) (advanceOp kind v) := by
  cases kind with
  | WC_SEND =>
      refine transitions_sound (fun t ht io op hwf hstate => ?_)
        (fun t ht io op hwf hstate hdone => ?_)
      · have hfired := @fired_reading _ _ v t ht io op hwf hstate _
          (io.issued ++ [.write op.sequenceNumber op.localNicIdx] ++ [.read op.sequenceNumber])
          (Or.inr rfl)
        have hcalls : ({ io with
            calls := io.calls
              ++ [.write op.sequenceNumber op.localNicIdx, .read op.sequenceNumber]
            issued := io.issued ++ [.write op.sequenceNumber op.localNicIdx]
              ++ [.read op.sequenceNumber] } : Io Call)
            = (io.issue (.write op.sequenceNumber op.localNicIdx)).issue
              (.read op.sequenceNumber) := by
          simp only [Io.issue, List.append_assoc, List.singleton_append]
        rw [hcalls] at hfired
        exact hfired
      · exact fired_overIb ht io hwf hstate hdone
  | WC_RECV =>
      refine transitions_sound (fun t ht io op hwf hstate => ?_)
        (fun t ht io op hwf hstate hdone => ?_)
      · exact fired_reading ht io hwf hstate (Or.inl rfl)
      · exact fired_write (fired_overIb ht io hwf hstate hdone) op.sequenceNumber op.localNicIdx

end Sound

end TpCudaGdr
