import Mathlib
import Tensorpipe.OperationSideProofs

/-! # The mpt channel — one tensor over many lanes

    A channel cuts each tensor into as many chunks as it has lanes and moves each chunk over
    its own connection.  Operations may come before the lanes are there: the client gets the
    addresses of the lanes in the hello of the server and connects to them, the server waits
    until all of its lanes have been accepted.

    Sending and receiving are the same machine, one writing and one reading the chunks, so
    both are instances of one definition. -/

namespace TpMpt

open TpStateMachine

-- ── Operations ───────────────────────────────────────────────────────────────

/-- The middle state is `WRITING_CHUNKS` when sending and `READING_CHUNKS` when
    receiving. -/
inductive LaneState where
  | uninitialized
  | transferringChunks
  | finished
deriving DecidableEq, Repr

/-- The value of the enumerator, by which states are compared. -/
def LaneState.rank : LaneState → Nat
  | uninitialized => 0
  | transferringChunks => 1
  | finished => 2

instance : LE LaneState := ⟨fun a b => a.rank ≤ b.rank⟩
instance (a b : LaneState) : Decidable (a ≤ b) := inferInstanceAs (Decidable (a.rank ≤ b.rank))

/-- `numChunks` is `numChunksBeingWritten` or `numChunksBeingRead`. -/
structure LaneOperation where
  sequenceNumber : Nat
  state : LaneState := .uninitialized
  numChunks : Nat := 0
  ptr : Nat
  length : Nat
deriving DecidableEq, Repr

instance : Operation LaneOperation LaneState where
  sequenceNumber := LaneOperation.sequenceNumber
  state := LaneOperation.state
  withState op st := { op with state := st }
  finished := .finished
  state_withState _ _ := rfl
  sequenceNumber_withState _ _ := rfl

/-- The operations of the two sides are alike. -/
abbrev SendOperation := LaneOperation
abbrev RecvOperation := LaneOperation

/-- A write or read on a lane, of `length` bytes at `ptr + offset`.  Its callback captured
    the operation. -/
structure LaneCall where
  laneIdx : Nat
  sequenceNumber : Nat
  ptr : Nat
  offset : Nat
  length : Nat
deriving DecidableEq, Repr

-- ── Chunks ───────────────────────────────────────────────────────────────────

/-- The "cutpoints" are at equally-spaced intervals in the buffer, rounded down if they
    don't end up being at an integer position.  The product is one of 64-bit integers. -/
def cutpoint (length numLanes laneIdx : Nat) : Nat :=
  length * laneIdx % 2 ^ 64 / numLanes

/-- The chunk of an operation on one lane. -/
def chunk (numLanes : Nat) (op : LaneOperation) (laneIdx : Nat) : LaneCall :=
  let offsetStart := cutpoint op.length numLanes laneIdx
  let offsetEnd := cutpoint op.length numLanes (laneIdx + 1)
  { laneIdx, sequenceNumber := op.sequenceNumber, ptr := op.ptr, offset := offsetStart
    length := (offsetEnd + (2 ^ 64 - offsetStart)) % 2 ^ 64 }

/-- The loop over the lanes. -/
def transferChunksLoop (numLanes : Nat) :
    List Nat → Io LaneCall → LaneOperation → Outcome (Io LaneCall × LaneOperation)
  | [], io, op => .returns (io, op)
  | laneIdx :: rest, io, op =>
      transferChunksLoop numLanes rest (io.issue (chunk numLanes op laneIdx))
        { op with numChunks := op.numChunks + 1 }

/-- Hands the chunks of a tensor to the lanes, one by one. -/
def transferChunks (numLanes : Nat) (io : Io LaneCall) (op : LaneOperation) :
    Outcome (Io LaneCall × LaneOperation) :=
  transferChunksLoop numLanes (List.range numLanes) io op

/-- Writes the chunks of a tensor on the lanes. -/
def writeChunks (numLanes : Nat) (io : Io LaneCall) (op : SendOperation) :
    Outcome (Io LaneCall × SendOperation) := transferChunks numLanes io op

/-- Reads the chunks of a tensor from the lanes. -/
def readChunks (numLanes : Nat) (io : Io LaneCall) (op : RecvOperation) :
    Outcome (Io LaneCall × RecvOperation) := transferChunks numLanes io op

/-- The last action of an operation: the user's callback, with the channel's error. -/
def callCallback (error : Bool) (io : Io LaneCall) (op : LaneOperation) :
    Outcome (Io LaneCall × LaneOperation) :=
  .returns (io.callback op.sequenceNumber error, op)

/-- The last action of a send. -/
def callSendCallback (error : Bool) (io : Io LaneCall) (op : SendOperation) :
    Outcome (Io LaneCall × SendOperation) := callCallback error io op

/-- The last action of a receive. -/
def callRecvCallback (error : Bool) (io : Io LaneCall) (op : RecvOperation) :
    Outcome (Io LaneCall × RecvOperation) := callCallback error io op

-- ── The transitions ──────────────────────────────────────────────────────────

/-- What the transitions of both queues depend on. -/
structure Gate where
  error : Bool
  established : Bool
  numLanes : Nat

/-- The attempts which both sides share, in the order in which the code makes them. -/
def advanceLaneOperation (g : Gate)
    (transfer callback : Io LaneCall → LaneOperation → Outcome (Io LaneCall × LaneOperation)) :
    List (Transition (Io LaneCall) LaneOperation LaneState) :=
  [ { source := .uninitialized
      target := .finished
      cond := fun op _ => g.error || op.length == 0
      actions := [callback] },
    -- Needs to go after previous op to ensure predictable and consistent ordering of write
    -- (or read) calls on lanes.
    { source := .uninitialized
      target := .transferringChunks
      cond := fun _ prevOpState =>
        !g.error && g.established && decide (.transferringChunks ≤ prevOpState)
      actions := [transfer] },
    { source := .transferringChunks
      target := .finished
      cond := fun op _ => op.numChunks == 0
      actions := [callback] } ]

/-- The attempts of `advanceSendOperation`. -/
def advanceSendOperation (g : Gate) :
    List (Transition (Io LaneCall) SendOperation LaneState) :=
  advanceLaneOperation g (writeChunks g.numLanes) (callSendCallback g.error)

/-- The attempts of `advanceRecvOperation`. -/
def advanceRecvOperation (g : Gate) :
    List (Transition (Io LaneCall) RecvOperation LaneState) :=
  advanceLaneOperation g (readChunks g.numLanes) (callRecvCallback g.error)

-- ── The channel ──────────────────────────────────────────────────────────────

/-- Whether an end connects or listens. -/
inductive Endpoint where
  | kConnect
  | kListen
deriving DecidableEq, Repr

/-- The states of an end, up to the end of the handshake. -/
inductive State where
  | uninitialized
  | clientReadingHello
  | serverAcceptingLanes
  | established
deriving DecidableEq, Repr

/-- Where the server expects a lane, and the request by which it knows it. -/
structure LaneAdvertisement where
  address : String
  registrationId : Nat
deriving DecidableEq, Repr

/-- The calls of the handshake.  A connection stands for its identity. -/
inductive HelloCall where
  | readServerHello
  | writeServerHello (laneAdvertisements : List LaneAdvertisement)
  | connectionRequest (laneIdx registrationId : Nat)
  | writeClientHello (laneIdx connection registrationId : Nat)
deriving DecidableEq, Repr

/-- One end of a channel. -/
structure ChannelImpl where
  endpoint : Endpoint
  numLanes : Nat
  error : Bool := false
  state : State := .uninitialized
  numLanesBeingAccepted : Nat := 0
  lanes : List (Option Nat) := List.replicate numLanes none
  laneRegistrationIds : List (Nat × Nat) := []
  hello : Io HelloCall := {}
  send : Side SendOperation LaneCall := {}
  recv : Side RecvOperation LaneCall := {}
deriving DecidableEq, Repr

/-- The tasks of the loop.  The hello of the server comes with the connections that are
    then opened to its lanes, and an accepted lane with its connection. -/
inductive Task where
  | send (ptr length : Nat)
  | recv (ptr length : Nat)
  | close
  | sendReport (call : LaneCall) (failed : Bool)
  | recvReport (call : LaneCall) (failed : Bool)
  | serverHello (failed : Bool) (laneAdvertisements : List LaneAdvertisement)
      (connections : List Nat)
  | acceptOfLane (failed : Bool) (laneIdx registrationId connection : Nat)
  | helloWritten (call : HelloCall) (failed : Bool)
deriving DecidableEq, Repr

namespace ChannelImpl

/-- What the operations look at in the channel. -/
def gate (x : ChannelImpl) : Gate where
  error := x.error
  established := decide (x.state = .established)
  numLanes := x.numLanes

/-- Each lane registers with the context, which hands out consecutive ids. -/
def requestLane (addresses : List String) (firstRegistrationId : Nat)
    (x : ChannelImpl × List LaneAdvertisement) (laneIdx : Nat) :
    ChannelImpl × List LaneAdvertisement :=
  let registrationId := firstRegistrationId + laneIdx
  ({ x.1 with
      laneRegistrationIds := x.1.laneRegistrationIds ++ [(laneIdx, registrationId)]
      numLanesBeingAccepted := x.1.numLanesBeingAccepted + 1
      hello := x.1.hello.issue (.connectionRequest laneIdx registrationId) },
    x.2 ++ [{ address := addresses.getD laneIdx "", registrationId }])

/-- The beginning of the handshake, at either end. -/
def initImplFromLoop (addresses : List String) (firstRegistrationId : Nat) (x : ChannelImpl) :
    ChannelImpl :=
  match x.endpoint with
  | .kConnect =>
      { x with state := .clientReadingHello, hello := x.hello.issue .readServerHello }
  | .kListen =>
      let y := (List.range x.numLanes).foldl (requestLane addresses firstRegistrationId)
        ({ x with state := .serverAcceptingLanes }, [])
      { y.1 with hello := y.1.hello.issue (.writeServerHello y.2) }

/-- A channel of a context that is closed already gets its error without being
    initialised. -/
def init (contextClosed : Bool) (endpoint : Endpoint) (numLanes : Nat) (addresses : List String)
    (firstRegistrationId : Nat) : ChannelImpl :=
  if contextClosed then { endpoint, numLanes, error := true }
  else initImplFromLoop addresses firstRegistrationId { endpoint, numLanes }

/-- Advances both sequences from their first operation on. -/
def advanceAll (x : ChannelImpl) : ChannelImpl :=
  { x with
    send := x.send.advanceAll (advanceSendOperation x.gate)
    recv := x.recv.advanceAll (advanceRecvOperation x.gate) }

/-- Don't overwrite an error that's already set. -/
def setError (failed : Bool) (x : ChannelImpl) : ChannelImpl :=
  if x.error || !failed then x else advanceAll { x with error := true }

/-- A call of `send`: refused by a channel in error, a new operation otherwise. -/
def sendFromLoop (ptr length : Nat) (x : ChannelImpl) : ChannelImpl :=
  if x.error then { x with send := x.send.refuse }
  else { x with
    send := x.send.submit (advanceSendOperation x.gate)
      { sequenceNumber := x.send.next, ptr, length } }

/-- A call of `recv`: refused by a channel in error, a new operation otherwise. -/
def recvFromLoop (ptr length : Nat) (x : ChannelImpl) : ChannelImpl :=
  if x.error then { x with recv := x.recv.refuse }
  else { x with
    recv := x.recv.submit (advanceRecvOperation x.gate)
      { sequenceNumber := x.recv.next, ptr, length } }

/-- One lane of the client: connect to its address and say hello. -/
def connectLane (x : ChannelImpl) (lane : (LaneAdvertisement × Nat) × Nat) : ChannelImpl :=
  { x with
    lanes := x.lanes.set lane.2 (some lane.1.2)
    hello := x.hello.issue (.writeClientHello lane.2 lane.1.2 lane.1.1.registrationId) }

/-- The hello of the server was read: the lanes are opened. -/
def onClientReadHelloOnConnection (laneAdvertisements : List LaneAdvertisement)
    (connections : List Nat) (x : ChannelImpl) : ChannelImpl :=
  let x := ((laneAdvertisements.zip connections).zipIdx).foldl connectLane x
  advanceAll { x with state := .established }

/-- A lane was accepted; the last one establishes the channel. -/
def onServerAcceptOfLane (laneIdx connection : Nat) (x : ChannelImpl) : ChannelImpl :=
  let x := { x with
    lanes := x.lanes.set laneIdx (some connection)
    laneRegistrationIds := x.laneRegistrationIds.filter (fun p => p.1 ≠ laneIdx)
    numLanesBeingAccepted := x.numLanesBeingAccepted - 1 }
  if x.numLanesBeingAccepted = 0 then advanceAll { x with state := .established } else x

/-- One chunk fewer is under way. -/
def chunkDone (op : LaneOperation) : LaneOperation :=
  { op with numChunks := op.numChunks - 1 }

/-- A call reports once, while it is outstanding.  The hello advertises every lane. -/
def enabled (x : ChannelImpl) : Task → Prop
  | .sendReport call _ => call ∈ x.send.io.calls
  | .recvReport call _ => call ∈ x.recv.io.calls
  | .serverHello _ laneAdvertisements connections =>
      .readServerHello ∈ x.hello.calls ∧ laneAdvertisements.length = x.numLanes
        ∧ connections.length = x.numLanes
  | .acceptOfLane _ laneIdx registrationId _ =>
      .connectionRequest laneIdx registrationId ∈ x.hello.calls
  | .helloWritten call _ =>
      call ∈ x.hello.calls ∧ call ≠ .readServerHello ∧
        ∀ laneIdx registrationId, call ≠ .connectionRequest laneIdx registrationId
  | _ => True

/-- One task of the channel's loop. -/
def step (x : ChannelImpl) : Task → ChannelImpl
  | .send ptr length => sendFromLoop ptr length x
  | .recv ptr length => recvFromLoop ptr length x
  | .close => setError true x
  | .sendReport call failed =>
      let x := setError failed x
      { x with
        send := x.send.report (advanceSendOperation x.gate) call call.sequenceNumber chunkDone }
  | .recvReport call failed =>
      let x := setError failed x
      { x with
        recv := x.recv.report (advanceRecvOperation x.gate) call call.sequenceNumber chunkDone }
  | .serverHello failed laneAdvertisements connections =>
      let x := setError failed { x with hello := x.hello.reported .readServerHello }
      if x.error then x else onClientReadHelloOnConnection laneAdvertisements connections x
  | .acceptOfLane failed laneIdx registrationId connection =>
      let x := setError failed
        { x with hello := x.hello.reported (.connectionRequest laneIdx registrationId) }
      if x.error then x else onServerAcceptOfLane laneIdx connection x
  | .helloWritten call failed => setError failed { x with hello := x.hello.reported call }

/-- The states between two tasks of the loop, in runs all of whose tasks are `allowed`. -/
inductive Reachable (allowed : ChannelImpl → Task → Prop) : ChannelImpl → Prop where
  | init (contextClosed : Bool) (endpoint : Endpoint) (numLanes : Nat)
      (addresses : List String) (firstRegistrationId : Nat) :
      Reachable allowed (init contextClosed endpoint numLanes addresses firstRegistrationId)
  | step {x : ChannelImpl} (h : Reachable allowed x) (task : Task)
      (henabled : x.enabled task) (hallowed : allowed x task) : Reachable allowed (x.step task)

end ChannelImpl

-- ── What the calls captured ──────────────────────────────────────────────────

/-- The loop issues a call on each lane that has a chunk. -/
theorem transferChunksLoop_eq (numLanes : Nat) (lanes : List Nat) :
    ∀ (io : Io LaneCall) (op : LaneOperation), transferChunksLoop numLanes lanes io op =
      .returns ({ io with
          calls := io.calls ++ lanes.map (chunk numLanes op)
          issued := io.issued ++ lanes.map (chunk numLanes op) },
        { op with numChunks := op.numChunks + lanes.length }) := by
  induction lanes with
  | nil =>
      intro io op
      simp only [transferChunksLoop, List.map_nil, List.append_nil, List.length_nil, Nat.add_zero]
  | cons laneIdx rest ih =>
      intro io op
      rw [transferChunksLoop, ih]
      -- the chunks do not depend on the count that grows along the loop
      show Outcome.returns ({ io with
          calls := io.calls ++ [chunk numLanes op laneIdx] ++ rest.map (chunk numLanes op)
          issued := io.issued ++ [chunk numLanes op laneIdx] ++ rest.map (chunk numLanes op) },
        { op with numChunks := op.numChunks + 1 + rest.length }) = _
      simp only [List.append_assoc, List.singleton_append, List.map_cons, List.length_cons,
        Nat.add_assoc, Nat.add_comm 1]

/-- An operation waits for the chunks it counts. -/
def laneCapture : Capture LaneOperation LaneCall where
  captures c := some c.sequenceNumber
  pending op := match op.state with
    | .transferringChunks => op.numChunks
    | _ => 0
  Fits op _ := op.state = .transferringChunks ∧ 0 < op.numChunks
  Wf op := op.state = .uninitialized → op.numChunks = 0

/-- Each attempt issues what its new state waits for, and nothing else. -/
theorem laneSound (g : Gate) :
    Sound laneCapture (advanceLaneOperation g (transferChunks g.numLanes)
      (callCallback g.error)) where
  idle := by
    intro op hfin
    have hstate : op.state = .finished := hfin
    simp only [laneCapture, hstate]
  notFinished := by
    intro t ht
    simp only [advanceLaneOperation, List.mem_cons, List.not_mem_nil, or_false] at ht
    rcases ht with rfl | rfl | rfl
    all_goals exact nofun
  fire := by
    intro t ht io op prev hwf hsource hcond
    simp only [advanceLaneOperation, List.mem_cons, List.not_mem_nil, or_false] at ht
    rcases ht with rfl | rfl | rfl
    · have hstate : op.state = .uninitialized := hsource
      refine ⟨rfl, nofun, ⟨[], (List.append_nil _).symm, nofun, ?_⟩, ?_, g.error, rfl⟩
      · simp only [laneCapture, hstate]
        rfl
      · intro c hfits
        exact nomatch hstate.symm.trans hfits.1
    · have hstate : op.state = .uninitialized := hsource
      have hzero : op.numChunks = 0 := hwf hstate
      rw [runActions_single, transferChunks, transferChunksLoop_eq]
      refine ⟨rfl, nofun, ⟨_, rfl, ?_, ?_⟩, ?_, false, (List.append_nil _).symm⟩
      · intro c hc n hcap
        obtain ⟨laneIdx, hlane, rfl⟩ := List.mem_map.mp hc
        refine ⟨(Option.some.inj hcap).symm, rfl, ?_⟩
        show 0 < op.numChunks + (List.range g.numLanes).length
        have := List.length_pos_of_mem hlane
        omega
      · have hall : ∀ c ∈ (List.range g.numLanes).map (chunk g.numLanes op),
            (laneCapture.captures c == some (sequenceNumber op)) = true := by
          intro c hc
          obtain ⟨laneIdx, -, rfl⟩ := List.mem_map.mp hc
          exact beq_self_eq_true _
        rw [List.countP_eq_length.mpr hall, List.length_map]
        simp only [laneCapture, hstate, withState, hzero]
      · intro c hfits
        exact nomatch hstate.symm.trans hfits.1
    · have hstate : op.state = .transferringChunks := hsource
      have hzero : op.numChunks = 0 := beq_iff_eq.mp hcond
      refine ⟨rfl, nofun, ⟨[], (List.append_nil _).symm, nofun, ?_⟩, ?_, g.error, rfl⟩
      · simp only [laneCapture, hstate, hzero]
        rfl
      · intro c hfits
        have := hfits.2
        omega

/-- An operation never goes back to an earlier state. -/
theorem laneForward (g : Gate) :
    Forward (advanceLaneOperation g (transferChunks g.numLanes) (callCallback g.error)) where
  later := by
    simp only [advanceLaneOperation, List.pairwise_cons, List.mem_cons, List.not_mem_nil,
      or_false, forall_eq_or_imp, forall_eq]
    simp
  moves := by simp [advanceLaneOperation]
  notFinished := (laneSound g).notFinished
  keepsNumber := by
    intro t ht a ha io op
    simp only [advanceLaneOperation, List.mem_cons, List.not_mem_nil, or_false] at ht
    rcases ht with rfl | rfl | rfl
    · obtain rfl := List.mem_singleton.mp ha
      rfl
    · obtain rfl := List.mem_singleton.mp ha
      rw [transferChunks, transferChunksLoop_eq]
      rfl
    · obtain rfl := List.mem_singleton.mp ha
      rfl

/-- Once the error is set, an operation that cannot move has chunks in flight. -/
theorem lane_waits {g : Gate} (herror : g.error = true) {prev : LaneState} {op : LaneOperation}
    (h : ¬ Enabled (advanceLaneOperation g (transferChunks g.numLanes) (callCallback g.error))
      prev op) (hst : Operation.state op ≠ finished LaneOperation) :
    0 < laneCapture.pending op := by
  cases hstate : op.state with
  | uninitialized =>
      refine absurd ⟨_, List.mem_cons_self .., hstate, ?_⟩ h
      show (g.error || op.length == 0) = true
      rw [herror]
      rfl
  | transferringChunks =>
      simp only [laneCapture, hstate]
      refine Nat.pos_of_ne_zero (fun hzero => h ⟨_, List.mem_cons_of_mem _ (List.mem_cons_of_mem _
        (List.mem_cons_self ..)), hstate, ?_⟩)
      exact beq_iff_eq.mpr hzero
  | finished => exact absurd hstate hst

/-- The report of a chunk is about the operation that issued it. -/
theorem chunkDone_reports {x : Side LaneOperation LaneCall} {call : LaneCall}
    (hcall : call ∈ x.io.calls) :
    Reports laneCapture x call call.sequenceNumber ChannelImpl.chunkDone where
  outstanding := hcall
  captures := rfl
  state _ := rfl
  number _ := rfl
  pending := by
    intro op _ _ _ hfits
    refine ⟨fun hstate => (nomatch hfits.1.symm.trans hstate), ?_⟩
    have hpos := hfits.2
    simp only [laneCapture, ChannelImpl.chunkDone, hfits.1]
    omega
  fits := by
    intro op c' hfits hpos
    refine ⟨hfits.1, ?_⟩
    simp only [laneCapture, ChannelImpl.chunkDone, hfits.1] at hpos
    exact hpos

-- ── The invariant of a channel ───────────────────────────────────────────────

/-- Whether a task brings an error. -/
def Task.failed : Task → Bool
  | .send _ _ | .recv _ _ => false
  | .close => true
  | .sendReport _ failed | .recvReport _ failed => failed
  | .serverHello failed _ _ => failed
  | .acceptOfLane failed _ _ _ => failed
  | .helloWritten _ failed => failed

/-- A queue that an error flushes: its front has chunks in flight, so that nothing is popped
    while the others are visited, or no finished operation stands before an unfinished
    one. -/
def Flushable (ops : List LaneOperation) : Prop :=
  (∃ front rest, ops = front :: rest ∧ 0 < front.numChunks)
    ∨ ops.Pairwise (fun a b => a.state = .finished → b.state = .finished)

/-- A task does not raise the error while a queue is not flushable. -/
def ChannelImpl.Unbroken (x : ChannelImpl) (task : Task) : Prop :=
  x.error = false → task.failed = true → Flushable x.send.ops ∧ Flushable x.recv.ops

/-- The invariant of either half.  `unbroken` says that the error found it flushable. -/
def HalfInv (unbroken : Prop) (g : Gate) (x : Side LaneOperation LaneCall) : Prop :=
  ∃ bound, (g.error = false → bound = x.next) ∧ Sided laneCapture bound x
    ∧ (unbroken → g.error = true →
      Stable (advanceLaneOperation g (transferChunks g.numLanes) (callCallback g.error)) x.ops)

section Halves

variable {unbroken : Prop} {g : Gate} {x : Side LaneOperation LaneCall}

/-- A new operation keeps the invariant of its half. -/
theorem halfInv_submit (herror : g.error = false) (h : HalfInv unbroken g x) (ptr length : Nat) :
    HalfInv unbroken g (x.submit
      (advanceLaneOperation g (transferChunks g.numLanes) (callCallback g.error))
      { sequenceNumber := x.next, ptr, length }) := by
  obtain ⟨bound, hbound, hsided, -⟩ := h
  obtain rfl := hbound herror
  refine ⟨_, fun _ => rfl, sided_advance (laneSound g)
    (sided_push hsided rfl nofun (fun _ => rfl) rfl), fun _ hyes => ?_⟩
  exact nomatch herror.symm.trans hyes

/-- A refused operation keeps the invariant of its half. -/
theorem halfInv_refuse (herror : g.error = true) (h : HalfInv unbroken g x) :
    HalfInv unbroken g x.refuse := by
  obtain ⟨bound, -, hsided, hstable⟩ := h
  exact ⟨bound, fun hno => (nomatch herror.symm.trans hno), sided_refuse hsided, hstable⟩

/-- The report of a chunk keeps the invariant of its half. -/
theorem halfInv_report (h : HalfInv unbroken g x) {call : LaneCall} (hcall : call ∈ x.io.calls) :
    HalfInv unbroken g (x.report
      (advanceLaneOperation g (transferChunks g.numLanes) (callCallback g.error)) call
      call.sequenceNumber ChannelImpl.chunkDone) := by
  obtain ⟨bound, hbound, hsided, hstable⟩ := h
  obtain ⟨hmodified, hmem⟩ := sided_modify hsided (chunkDone_reports hcall)
  refine ⟨bound, hbound, sided_advance (laneSound g) hmodified, fun hun hyes => ?_⟩
  exact (rested_advance (laneSound g) (laneForward g) hmodified hmem
    (stable_modify (fun _ => rfl) (fun _ => rfl) (hstable hun hyes))).stable

/-- The lanes are all there: the queue is walked with no error set. -/
theorem halfInv_establish (g' : Gate) (herror : g'.error = false) (herror' : g.error = false)
    (h : HalfInv unbroken g x) :
    HalfInv unbroken g' (x.advanceAll
      (advanceLaneOperation g' (transferChunks g'.numLanes) (callCallback g'.error))) := by
  obtain ⟨bound, hbound, hsided, -⟩ := h
  exact ⟨bound, fun _ => hbound herror', sided_advanceAll (laneSound g') hsided,
    fun _ hyes => (nomatch herror.symm.trans hyes)⟩

/-- The error is set: a flushable queue is visited to its end. -/
theorem halfInv_error (g' : Gate) (herror : g'.error = true) (h : HalfInv unbroken g x)
    (hflush : unbroken → Flushable x.ops) :
    HalfInv unbroken g' (x.advanceAll
      (advanceLaneOperation g' (transferChunks g'.numLanes) (callCallback g'.error))) := by
  obtain ⟨bound, -, hsided, -⟩ := h
  refine ⟨bound, fun hno => (nomatch herror.symm.trans hno),
    sided_advanceAll (laneSound g') hsided, fun hun _ => ?_⟩
  refine (rested_advanceAll (laneSound g') (laneForward g') hsided ?_).stable
  rcases hflush hun with ⟨front, rest, hops, hpos⟩ | hpairwise
  · -- the front has chunks in flight, so no transition finishes it
    refine Or.inl (fun front' rest' hops' z hz => ?_)
    obtain ⟨rfl, rfl⟩ := List.cons.inj (hops.symm.trans hops')
    have hmem : front ∈ x.ops := by rw [hops]; exact List.mem_cons_self ..
    rw [transition_of_not_enabled] at hz
    · obtain rfl := Outcome.returns.inj hz
      exact hsided.frontOpen front rest hops
    · rintro ⟨t, ht, hsource, hcond⟩
      simp only [advanceLaneOperation, List.mem_cons, List.not_mem_nil, or_false] at ht
      rcases ht with rfl | rfl | rfl
      · have hzero := hsided.inv.wf front hmem hsource
        omega
      · have hzero := hsided.inv.wf front hmem hsource
        omega
      · have hzero : front.numChunks = 0 := beq_iff_eq.mp hcond
        omega
  · refine Or.inr (fun o ho o' ho' hle hfin => ?_)
    obtain ⟨pre, post, hsplit⟩ := List.append_of_mem ho
    have hnum := hsided.inv.numbered
    rw [hsplit] at hnum ho' hpairwise
    rcases List.mem_append.mp ho' with hpre | hmid
    · have h1 := numbered_pre o' hnum hpre
      have h2 := numbered_mid hnum
      rw [List.length_cons] at h1
      omega
    · rcases List.mem_cons.mp hmid with rfl | hpost
      · exact hfin
      · exact (List.pairwise_cons.mp (List.pairwise_append.mp hpairwise).2.1).1 o' hpost hfin

end Halves

namespace ChannelImpl

/-- The invariant of both halves between two tasks. -/
structure ChannelInv (unbroken : Prop) (x : ChannelImpl) : Prop where
  send : HalfInv unbroken x.gate x.send
  recv : HalfInv unbroken x.gate x.recv

/-- What the handshake does to the other fields does not matter to the queues. -/
theorem ChannelInv.frame {unbroken : Prop} {x y : ChannelImpl} (h : ChannelInv unbroken x)
    (herror : y.error = x.error) (hstate : y.state = x.state) (hlanes : y.numLanes = x.numLanes)
    (hsend : y.send = x.send) (hrecv : y.recv = x.recv) : ChannelInv unbroken y := by
  have hgate : y.gate = x.gate := by simp only [gate, herror, hstate, hlanes]
  obtain ⟨h1, h2⟩ := h
  exact ⟨by rw [hgate, hsend]; exact h1, by rw [hgate, hrecv]; exact h2⟩

/-- A half without operations satisfies its invariant. -/
theorem halfInv_empty (unbroken : Prop) (g : Gate) : HalfInv unbroken g {} := by
  obtain ⟨bound, hbound, hrest⟩ : Resting laneCapture
      (advanceLaneOperation g (transferChunks g.numLanes) (callCallback g.error)) g.error {} :=
    resting_empty
  exact ⟨bound, hbound, hrest.toSided, fun _ _ => hrest.stable⟩

/-- Asking for the lanes leaves the sequences alone. -/
theorem requestLane_sides (addresses : List String) (first : Nat) (lanes : List Nat) :
    ∀ y : ChannelImpl × List LaneAdvertisement,
      (lanes.foldl (requestLane addresses first) y).1.send = y.1.send
        ∧ (lanes.foldl (requestLane addresses first) y).1.recv = y.1.recv := by
  induction lanes with
  | nil => intro y; exact ⟨rfl, rfl⟩
  | cons laneIdx rest ih =>
      intro y
      rw [List.foldl_cons]
      exact ih _

/-- A new channel has no operations. -/
theorem init_sides (contextClosed : Bool) (endpoint : Endpoint) (numLanes : Nat)
    (addresses : List String) (first : Nat) :
    (init contextClosed endpoint numLanes addresses first).send = {}
      ∧ (init contextClosed endpoint numLanes addresses first).recv = {} := by
  rw [init]
  cases contextClosed with
  | true => exact ⟨rfl, rfl⟩
  | false =>
      cases endpoint with
      | kConnect => exact ⟨rfl, rfl⟩
      | kListen => exact requestLane_sides addresses first (List.range numLanes) _

/-- A new channel has nothing to advance. -/
theorem inv_init (unbroken : Prop) (contextClosed : Bool) (endpoint : Endpoint) (numLanes : Nat)
    (addresses : List String) (first : Nat) :
    ChannelInv unbroken (init contextClosed endpoint numLanes addresses first) := by
  obtain ⟨hsend, hrecv⟩ := init_sides contextClosed endpoint numLanes addresses first
  exact ⟨by rw [hsend]; exact halfInv_empty _ _, by rw [hrecv]; exact halfInv_empty _ _⟩

/-- Handling an error keeps the invariant of both halves. -/
theorem inv_setError {unbroken : Prop} {x : ChannelImpl} (failed : Bool)
    (h : ChannelInv unbroken x)
    (hflush : unbroken → x.error = false → failed = true →
      Flushable x.send.ops ∧ Flushable x.recv.ops) :
    ChannelInv unbroken (setError failed x) := by
  rw [setError]
  by_cases hskip : (x.error || !failed) = true
  · rw [if_pos hskip]
    exact h
  rw [if_neg hskip]
  rw [Bool.not_eq_true, Bool.or_eq_false_iff, Bool.not_eq_false'] at hskip
  exact ⟨halfInv_error (gate { x with error := true }) rfl h.send
      (fun hun => (hflush hun hskip.1 hskip.2).1),
    halfInv_error (gate { x with error := true }) rfl h.recv
      (fun hun => (hflush hun hskip.1 hskip.2).2)⟩

/-- Dealing with an error leaves every outstanding call outstanding. -/
theorem setError_calls {unbroken : Prop} (failed : Bool) {x : ChannelImpl}
    (h : ChannelInv unbroken x) :
    (∀ c ∈ x.send.io.calls, c ∈ (setError failed x).send.io.calls)
      ∧ (∀ c ∈ x.recv.io.calls, c ∈ (setError failed x).recv.io.calls) := by
  rw [setError]
  by_cases hskip : (x.error || !failed) = true
  · rw [if_pos hskip]
    exact ⟨fun _ hc => hc, fun _ hc => hc⟩
  rw [if_neg hskip]
  obtain ⟨⟨_, -, hsend, -⟩, ⟨_, -, hrecv, -⟩⟩ := h
  exact ⟨fun c hc => advanceAll_calls (laneSound _) hsend.inv hc,
    fun c hc => advanceAll_calls (laneSound _) hrecv.inv hc⟩

/-- The end of the handshake keeps the invariant of both halves. -/
theorem inv_established {unbroken : Prop} {x : ChannelImpl} (herror : x.error = false)
    (h : ChannelInv unbroken x) :
    ChannelInv unbroken (advanceAll { x with state := .established }) :=
  ⟨halfInv_establish (gate { x with state := .established }) herror herror h.send,
    halfInv_establish (gate { x with state := .established }) herror herror h.recv⟩

/-- Opening the lanes keeps the invariant of both halves. -/
theorem inv_connectLanes {unbroken : Prop} (lanes : List ((LaneAdvertisement × Nat) × Nat)) :
    ∀ {x : ChannelImpl}, ChannelInv unbroken x → x.error = false →
      ChannelInv unbroken (lanes.foldl connectLane x)
        ∧ (lanes.foldl connectLane x).error = false := by
  induction lanes with
  | nil => intro x h herror; exact ⟨h, herror⟩
  | cons lane rest ih =>
      intro x h herror
      rw [List.foldl_cons]
      exact ih (h.frame rfl rfl rfl rfl rfl) herror

/-- Accepting a lane keeps the invariant of both halves. -/
theorem inv_onServerAcceptOfLane {unbroken : Prop} {x : ChannelImpl} (laneIdx connection : Nat)
    (herror : x.error = false) (h : ChannelInv unbroken x) :
    ChannelInv unbroken (onServerAcceptOfLane laneIdx connection x) := by
  rw [onServerAcceptOfLane]
  have hset : ChannelInv unbroken { x with
      lanes := x.lanes.set laneIdx (some connection)
      laneRegistrationIds := x.laneRegistrationIds.filter (fun p => p.1 ≠ laneIdx)
      numLanesBeingAccepted := x.numLanesBeingAccepted - 1 } := h.frame rfl rfl rfl rfl rfl
  by_cases hlast : x.numLanesBeingAccepted - 1 = 0
  · simp only [if_pos hlast]
    exact inv_established (by exact herror) hset
  · simp only [if_neg hlast]
    exact hset

/-- Every task keeps the invariant of both halves. -/
theorem inv_step {unbroken : Prop} {x : ChannelImpl} (h : ChannelInv unbroken x) {task : Task}
    (henabled : x.enabled task) (hunbroken : unbroken → x.Unbroken task) :
    ChannelInv unbroken (x.step task) := by
  cases task with
  | send ptr length =>
      show ChannelInv unbroken (sendFromLoop ptr length x)
      rw [sendFromLoop]
      by_cases herror : x.error = true
      · rw [if_pos herror]
        exact ⟨halfInv_refuse (g := x.gate) herror h.send, h.recv⟩
      · rw [if_neg herror]
        exact ⟨halfInv_submit (g := x.gate) (Bool.eq_false_iff.mpr herror) h.send ptr length,
          h.recv⟩
  | recv ptr length =>
      show ChannelInv unbroken (recvFromLoop ptr length x)
      rw [recvFromLoop]
      by_cases herror : x.error = true
      · rw [if_pos herror]
        exact ⟨h.send, halfInv_refuse (g := x.gate) herror h.recv⟩
      · rw [if_neg herror]
        exact ⟨h.send, halfInv_submit (g := x.gate) (Bool.eq_false_iff.mpr herror) h.recv ptr
          length⟩
  | close => exact inv_setError true h (fun hun hno _ => hunbroken hun hno rfl)
  | sendReport call failed =>
      have hset := inv_setError failed h hunbroken
      exact ⟨halfInv_report (g := (setError failed x).gate) hset.send
        ((setError_calls failed h).1 call henabled), hset.recv⟩
  | recvReport call failed =>
      have hset := inv_setError failed h hunbroken
      exact ⟨hset.send, halfInv_report (g := (setError failed x).gate) hset.recv
        ((setError_calls failed h).2 call henabled)⟩
  | serverHello failed laneAdvertisements connections =>
      have hset := inv_setError failed (x := { x with hello := x.hello.reported .readServerHello })
        (h.frame rfl rfl rfl rfl rfl) hunbroken
      simp only [step]
      by_cases herror : (setError failed
          { x with hello := x.hello.reported .readServerHello }).error = true
      · rw [if_pos herror]
        exact hset
      · rw [if_neg herror]
        obtain ⟨hlanes, hno⟩ := inv_connectLanes ((laneAdvertisements.zip connections).zipIdx)
          hset (Bool.eq_false_iff.mpr herror)
        exact inv_established hno hlanes
  | acceptOfLane failed laneIdx registrationId connection =>
      have hset := inv_setError failed
        (x := { x with hello := x.hello.reported (.connectionRequest laneIdx registrationId) })
        (h.frame rfl rfl rfl rfl rfl) hunbroken
      simp only [step]
      by_cases herror : (setError failed { x with
          hello := x.hello.reported (.connectionRequest laneIdx registrationId) }).error = true
      · rw [if_pos herror]
        exact hset
      · rw [if_neg herror]
        exact inv_onServerAcceptOfLane laneIdx connection (Bool.eq_false_iff.mpr herror) hset
  | helloWritten call failed =>
      exact inv_setError failed (x := { x with hello := x.hello.reported call })
        (h.frame rfl rfl rfl rfl rfl) hunbroken

/-- Every channel that can be reached satisfies the invariant. -/
theorem inv_reachable {allowed : ChannelImpl → Task → Prop} (unbroken : Prop)
    (hallowed : unbroken → ∀ x task, allowed x task → x.Unbroken task) {x : ChannelImpl}
    (h : Reachable allowed x) : ChannelInv unbroken x := by
  induction h with
  | init contextClosed endpoint numLanes addresses first =>
      exact inv_init unbroken contextClosed endpoint numLanes addresses first
  | step _ task henabled hallow ih =>
      exact inv_step ih henabled (fun hun => hallowed hun _ task hallow)

end ChannelImpl

end TpMpt
