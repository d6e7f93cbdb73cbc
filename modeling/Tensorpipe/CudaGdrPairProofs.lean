import Mathlib.Data.List.Infix
import Tensorpipe.CudaGdrOrderProofs

/-! # Two connected cuda_gdr channels

    Two channels are put together with their control connections, each a FIFO in either
    direction, and run without errors, from the handshake on.  What a send reads is what the
    recvs of the other channel write, and what a recv reads is what the sends of the other
    channel write: the k-th read gets the k-th message.

    On each queue pair the k-th send goes into the k-th recv.  That is the same chunk at both
    ends as long as both post in order. -/

namespace TpCudaGdr

open TpStateMachine

-- ── The pair ─────────────────────────────────────────────────────────────────

/-- A buffer: its device, its address and the key of its memory. -/
structure Buffer where
  gpuIdx : Nat
  ptr : Nat
  lkey : UInt32
deriving DecidableEq, Repr

/-- What two channels have and are asked for: their GPUs and NICs, the lengths of the tensors that
    go from a channel to the other one, and the buffers of the sends and recvs of a channel. -/
structure Setup where
  gpuToNic : Bool → List Nat
  maximumMessageSize : Bool → Nat → Nat
  length : Bool → Nat → Nat
  buffer : Bool → WcOpcode → Nat → Buffer

/-- The sends of a channel are for the recvs of the other one. -/
def WcOpcode.other : WcOpcode → WcOpcode
  | .WC_SEND => .WC_RECV
  | .WC_RECV => .WC_SEND

namespace Setup

/-- The buffers are on GPUs that there are. -/
def Valid (S : Setup) : Prop :=
  ∀ who kind n, (S.buffer who kind n).gpuIdx < (S.gpuToNic who).length

/-- The length of a transfer, as its sender gives it. -/
def lengthOf (S : Setup) (who : Bool) (kind : WcOpcode) (n : Nat) : Nat :=
  match kind with
  | .WC_SEND => S.length who n
  | .WC_RECV => S.length (!who) n

/-- The n-th transfer of a channel. -/
def transfer (S : Setup) (who : Bool) (kind : WcOpcode) (n : Nat) : Transfer where
  ptr := (S.buffer who kind n).ptr
  length := S.lengthOf who kind n
  lkey := (S.buffer who kind n).lkey
  localNicIdx := (S.gpuToNic who)[(S.buffer who kind n).gpuIdx]?.getD 0

/-- The number of NICs of an end. -/
def numNics (S : Setup) (who : Bool) : Nat := (S.gpuToNic who).foldl Nat.max 0 + 1

/-- The NIC at the other end of the n-th transfer. -/
def remote (S : Setup) (who : Bool) (kind : WcOpcode) (n : Nat) : Nat :=
  (S.transfer (!who) kind.other n).localNicIdx

/-- The NIC of a buffer is one of those of its channel. -/
theorem transfer_localNic {S : Setup} (hS : S.Valid) (who : Bool) (kind : WcOpcode) (n : Nat) :
    (S.transfer who kind n).localNicIdx < S.numNics who := by
  show ((S.gpuToNic who)[(S.buffer who kind n).gpuIdx]?.getD 0) < S.numNics who
  rw [List.getElem?_eq_getElem (hS who kind n)]
  exact Nat.lt_succ_of_le (ChannelImpl.le_foldl_max _ _ _ (Or.inr (List.getElem_mem _)))

end Setup

/-- A request that was posted on a queue pair. -/
def Call.isOn (localNicIdx remoteNicIdx : Nat) : Call → Bool
  | .post _ _ l r _ => l == localNicIdx && r == remoteNicIdx
  | _ => false

namespace ChannelImpl

/-- What a queue has read, in order. -/
def readsOf (x : ChannelImpl) (kind : WcOpcode) : List Call :=
  (x.side kind).io.issued.filter Call.isRead

/-- What a queue has written, in order. -/
def writesOf (x : ChannelImpl) (kind : WcOpcode) : List Call :=
  (x.side kind).io.issued.filter Call.isWrite

/-- The requests that were posted on a queue pair. -/
def postsOn (x : ChannelImpl) (kind : WcOpcode) (localNicIdx remoteNicIdx : Nat) : List Call :=
  (x.side kind).io.issued.filter (Call.isOn localNicIdx remoteNicIdx)

end ChannelImpl

/-- `read` counts the messages that the sends and the recvs of a channel have read. -/
structure Pair where
  channel : Bool → ChannelImpl
  read : Bool → WcOpcode → Nat

/-- A step of the pair. -/
inductive Event where
  | transfer (who : Bool) (kind : WcOpcode)
  | readHandshakeNumNics (who : Bool) (qpNums : Nat → Nat → UInt32)
  | readHandshakeSetupInfo (who : Bool)
  | wroteHandshake (who : Bool)
  | read (who : Bool) (kind : WcOpcode)
  | report (who : Bool) (kind : WcOpcode) (call : Call)

namespace Pair

/-- Two new channels. -/
def init (S : Setup) : Pair where
  channel who := .init (S.gpuToNic who)
  read _ _ := 0

/-- Runs a task at one end. -/
def act (p : Pair) (who : Bool) (task : ChannelImpl.Task) : Pair :=
  { p with channel := Function.update p.channel who ((p.channel who).step task) }

/-- The setup information of a channel has been written when it knows the NICs of the other one.
    A read gets the message at its place in the stream. -/
def step (S : Setup) (p : Pair) : Event → Option Pair
  | .transfer who kind =>
      let n := ((p.channel who).side kind).next
      let buffer := S.buffer who kind n
      some (p.act who (.transfer kind buffer.gpuIdx buffer.ptr (S.lengthOf who kind n)
        buffer.lkey))
  | .readHandshakeNumNics who qpNums =>
      if (p.channel who).state = .WAITING_FOR_HANDSHAKE_NUM_NICS then
        some (p.act who (.readHandshakeNumNics false (p.channel !who).numLocalNics qpNums))
      else none
  | .readHandshakeSetupInfo who =>
      if (p.channel who).state = .WAITING_FOR_HANDSHAKE_SETUP_INFO
          ∧ (p.channel !who).state ≠ .WAITING_FOR_HANDSHAKE_NUM_NICS then
        some (p.act who (.readHandshakeSetupInfo false (S.maximumMessageSize who)
          (fun remoteNicIdx _ => S.maximumMessageSize (!who) remoteNicIdx)))
      else none
  | .wroteHandshake who => some (p.act who (.wroteHandshake false))
  | .read who kind =>
      match ((p.channel !who).writesOf kind.other)[p.read who kind]?,
        ((p.channel who).readsOf kind)[p.read who kind]? with
      | some (.write _ nicIdx), some (.read n) =>
          if .read n ∈ ((p.channel who).side kind).io.calls then
            some { p.act who (.report kind (.read n) false nicIdx) with
              read := Function.update p.read who
                (Function.update (p.read who) kind (p.read who kind + 1)) }
          else none
      | _, _ => none
  | .report who kind call =>
      match call with
      | .read _ | .queuePair _ _ => none
      | .write _ _ | .waitForCudaEvent _ | .post _ _ _ _ _ =>
          if call ∈ ((p.channel who).side kind).io.calls then
            some (p.act who (.report kind call false 0))
          else none

/-- The pairs that are reached by events that are `allowed`. -/
inductive Reachable (S : Setup) (allowed : Pair → Event → Prop) : Pair → Prop where
  | init : Reachable S allowed (init S)
  | step {p p' : Pair} (h : Reachable S allowed p) (event : Event) (hallowed : allowed p event)
      (hstep : p.step S event = some p') : Reachable S allowed p'

/-- No CUDA event is reported for an operation that stands behind one that was not posted yet. -/
def Orderly (p : Pair) : Event → Prop
  | .report who kind (.waitForCudaEvent n) => Clear ((p.channel who).side kind).ops n
  | _ => True

end Pair

-- ── One of two connected channels ────────────────────────────────────────────

/-- The queue pairs have the sizes that both NICs can do. -/
def Sized (S : Setup) (who : Bool) (x : ChannelImpl) : Prop :=
  ∀ l < x.numLocalNics, ∀ r < x.numRemoteNics, ∃ qp, queuePairAt x.queuePairs l r = some qp
    ∧ qp.maximumMessageSize = Nat.min (S.maximumMessageSize who l) (S.maximumMessageSize (!who) r)

/-- A queue of a channel: nothing is done before the channel is established, and then everything
    in order. -/
structure Ordered (S : Setup) (who : Bool) (kind : WcOpcode) (x : ChannelImpl) : Prop where
  idle : x.state ≠ .ESTABLISHED → Idle (S.transfer who kind) (x.side kind)
  line : x.state = .ESTABLISHED → ∃ m, Line kind x.queuePairs (S.transfer who kind)
    (S.remote who kind) (x.side kind).next m (x.side kind).io (x.side kind).ops

/-- A channel of the pair. -/
structure Endpoint (S : Setup) (who : Bool) (x : ChannelImpl) : Prop where
  reachable : x.Reachable
  noError : x.error = false
  gpuToNic : x.gpuToNic = S.gpuToNic who
  numNics : x.numLocalNics = S.numNics who
  met : x.state ≠ .WAITING_FOR_HANDSHAKE_NUM_NICS → x.numRemoteNics = S.numNics (!who)
  sized : x.state = .ESTABLISHED → Sized S who x
  ordered : ∀ kind, Ordered S who kind x

/-- One queue is replaced, and nothing else that the other channel sees. -/
structure Replaced (kind : WcOpcode) (s' : Side Op Call) (x x' : ChannelImpl) : Prop where
  gpuToNic : x'.gpuToNic = x.gpuToNic
  error : x'.error = x.error
  numLocalNics : x'.numLocalNics = x.numLocalNics
  numRemoteNics : x'.numRemoteNics = x.numRemoteNics
  state : x'.state = x.state
  queuePairs : x'.queuePairs = x.queuePairs
  side : x'.side kind = s'
  other : ∀ kind', kind' ≠ kind → x'.side kind' = x.side kind'

section Endpoint

variable {S : Setup} {who : Bool} {x x' : ChannelImpl} {kind : WcOpcode} {s' : Side Op Call}

/-- Replacing a side replaces nothing else. -/
theorem replaced_withSide (x : ChannelImpl) (kind : WcOpcode) (s' : Side Op Call) :
    Replaced kind s' x (x.withSide kind s') :=
  ⟨rfl, rfl, rfl, rfl, rfl, rfl, x.side_withSide_self kind s',
    fun _ hne => x.side_withSide_of_ne s' hne⟩

/-- No end of an orderly run is in error. -/
theorem Endpoint.notError (h : Endpoint S who x) : ¬ x.error = true := by
  rw [h.noError]
  exact Bool.false_ne_true

/-- A queue of an established channel. -/
theorem Endpoint.live (h : Endpoint S who x) (hstate : x.state = .ESTABLISHED)
    (kind : WcOpcode) : Live x.numLocalNics x.numRemoteNics kind x.view (S.transfer who kind)
      (S.remote who kind) (x.side kind) := by
  obtain ⟨⟨bound, hbound, hsided⟩, -⟩ := (ChannelImpl.inv_of_reachable h.reachable).standing kind
  obtain rfl := hbound h.noError
  exact ⟨hsided, (h.ordered kind).line hstate⟩

/-- The channel after a task for one of its queues. -/
theorem Endpoint.replace (h : Endpoint S who x) (hreachable : x'.Reachable)
    (hr : Replaced kind s' x x')
    (hidle : x.state ≠ .ESTABLISHED → Idle (S.transfer who kind) s')
    (hline : x.state = .ESTABLISHED → ∃ m, Line kind x.queuePairs (S.transfer who kind)
      (S.remote who kind) s'.next m s'.io s'.ops) :
    Endpoint S who x' := by
  refine ⟨hreachable, hr.error.trans h.noError, hr.gpuToNic.trans h.gpuToNic,
    hr.numLocalNics.trans h.numNics, ?_, ?_, ?_⟩
  · rw [hr.state, hr.numRemoteNics]
    exact h.met
  · rw [Sized, hr.state, hr.numLocalNics, hr.numRemoteNics, hr.queuePairs]
    exact h.sized
  · intro kind'
    by_cases hkind : kind' = kind
    · subst hkind
      refine ⟨?_, ?_⟩
      · rw [hr.state, hr.side]
        exact hidle
      · rw [hr.state, hr.queuePairs, hr.side]
        exact hline
    · refine ⟨?_, ?_⟩
      · rw [hr.state, hr.other kind' hkind]
        exact (h.ordered kind').idle
      · rw [hr.state, hr.queuePairs, hr.other kind' hkind]
        exact (h.ordered kind').line

/-- The order of a queue depends on what was issued. -/
theorem Line.congr {queuePairs : List (List QueuePair)} {requests : Nat → Transfer}
    {remotes : Nat → Nat} {next m : Nat} {io io' : Io Call} {ops : List Op}
    (h : Line kind queuePairs requests remotes next m io ops) (hissued : io'.issued = io.issued) :
    Line kind queuePairs requests remotes next m io' ops := by
  refine ⟨h.like, h.begun, h.empty, h.within, ?_, ?_, ?_, h.passed, h.turn⟩
  · rw [hissued]
    exact h.reads
  · rw [hissued]
    exact h.writes
  · rw [hissued]
    exact h.posted

/-- No error is set. -/
theorem setError_false (herror : x.error = false) : x.setError false = x := by
  rw [ChannelImpl.setError, herror]
  rfl

/-- The next transfer of a channel. -/
theorem Endpoint.transfer (hS : S.Valid) (h : Endpoint S who x) (kind : WcOpcode) :
    Endpoint S who (x.step (.transfer kind
      (S.buffer who kind (x.side kind).next).gpuIdx (S.buffer who kind (x.side kind).next).ptr
      (S.lengthOf who kind (x.side kind).next) (S.buffer who kind (x.side kind).next).lkey)) := by
  have hreachable := h.reachable.step (.transfer kind
      (S.buffer who kind (x.side kind).next).gpuIdx (S.buffer who kind (x.side kind).next).ptr
      (S.lengthOf who kind (x.side kind).next) (S.buffer who kind (x.side kind).next).lkey)
    (by rw [ChannelImpl.enabled, h.gpuToNic]; exact hS who kind _)
  have hstep : x.step (.transfer kind
      (S.buffer who kind (x.side kind).next).gpuIdx (S.buffer who kind (x.side kind).next).ptr
      (S.lengthOf who kind (x.side kind).next) (S.buffer who kind (x.side kind).next).lkey)
      = x.withSide kind ((x.side kind).submit (advanceOp kind x.view)
        ((S.transfer who kind (x.side kind).next).op (x.side kind).next)) := by
    rw [Setup.transfer, Transfer.op, ← h.gpuToNic]
    cases kind <;> exact if_neg h.notError
  rw [hstep] at hreachable ⊢
  refine h.replace hreachable (replaced_withSide x kind _) ?_ ?_
  · intro hstate
    exact idle_submit h.noError (decide_eq_false hstate) ((h.ordered kind).idle hstate)
  · intro hstate
    exact (live_submit h.noError (decide_eq_true hstate) (h.live hstate kind)
      (h.numNics ▸ Setup.transfer_localNic hS who kind _)).line

/-- The first round of the handshake. -/
theorem Endpoint.readHandshakeNumNics (h : Endpoint S who x)
    (hstate : x.state = .WAITING_FOR_HANDSHAKE_NUM_NICS) (qpNums : Nat → Nat → UInt32) :
    Endpoint S who (x.step (.readHandshakeNumNics false (S.numNics (!who)) qpNums)) := by
  have hreachable := h.reachable.step (.readHandshakeNumNics false (S.numNics (!who)) qpNums) hstate
  have hstep : x.step (.readHandshakeNumNics false (S.numNics (!who)) qpNums)
      = x.onReadHandshakeNumNics (S.numNics (!who)) qpNums := by
    rw [ChannelImpl.step, setError_false h.noError]
    exact if_neg h.notError
  rw [hstep] at hreachable ⊢
  have hnew : (x.onReadHandshakeNumNics (S.numNics (!who)) qpNums).state ≠ .ESTABLISHED := by
    simp [ChannelImpl.onReadHandshakeNumNics]
  refine ⟨hreachable, h.noError, h.gpuToNic, h.numNics, fun _ => rfl, fun hest => absurd hest hnew,
    fun kind => ⟨fun _ => ?_, fun hest => absurd hest hnew⟩⟩
  refine (h.ordered kind).idle ?_
  rw [hstate]
  simp

/-- A queue pair after all were renamed. -/
theorem queuePairAt_mapIdx (queuePairs : List (List QueuePair))
    (f : Nat → Nat → QueuePair → QueuePair) (l r : Nat) :
    queuePairAt (queuePairs.mapIdx (fun l (row : List QueuePair) => row.mapIdx (f l))) l r
      = (queuePairAt queuePairs l r).map (f l r) := by
  rw [queuePairAt, queuePairAt, List.getElem?_mapIdx]
  cases queuePairs[l]? with
  | none => rfl
  | some row => exact List.getElem?_mapIdx

/-- The second round: the queue pairs get their sizes, and everything that waited begins. -/
theorem Endpoint.readHandshakeSetupInfo (h : Endpoint S who x)
    (hstate : x.state = .WAITING_FOR_HANDSHAKE_SETUP_INFO) :
    Endpoint S who (x.step (.readHandshakeSetupInfo false
      (S.maximumMessageSize who) (fun r _ => S.maximumMessageSize (!who) r))) := by
  have hreachable := h.reachable.step (.readHandshakeSetupInfo false (S.maximumMessageSize who)
    (fun r _ => S.maximumMessageSize (!who) r)) hstate
  have hinv := ChannelImpl.inv_of_reachable h.reachable
  have hpairs := hinv.pairs (hinv.live h.noError)
  have hstep : x.step (.readHandshakeSetupInfo false (S.maximumMessageSize who)
      (fun r _ => S.maximumMessageSize (!who) r))
      = x.onReadHandshakeSetupInfo (S.maximumMessageSize who)
        (fun r _ => S.maximumMessageSize (!who) r) := by
    rw [ChannelImpl.step, setError_false h.noError]
    exact if_neg h.notError
  have hnew : x.state ≠ .ESTABLISHED := by
    rw [hstate]
    simp
  rw [hstep, ChannelImpl.onReadHandshakeSetupInfo, ChannelImpl.accessAll_eq hpairs]
    at hreachable ⊢
  generalize hready : ({ x with queuePairs := _, state := ChannelState.ESTABLISHED } : ChannelImpl)
    = ready at hreachable ⊢
  have herror : ready.error = false := by
    subst hready
    exact h.noError
  have hready' : ready.state = .ESTABLISHED := by
    subst hready
    rfl
  have hline : ∀ kind, ∃ m, Line kind ready.queuePairs (S.transfer who kind) (S.remote who kind)
      (x.side kind).next m ((x.side kind).advanceAll (advanceOp kind ready.view)).io
      ((x.side kind).advanceAll (advanceOp kind ready.view)).ops := by
    exact fun kind => ⟨0, line_establish (v := ready.view) herror (decide_eq_true hready')
      ((h.ordered kind).idle hnew)⟩
  have hsend : ((ready.advanceAll .WC_SEND).advanceAll .WC_RECV).side .WC_SEND
      = (x.side .WC_SEND).advanceAll (advanceOp .WC_SEND ready.view) := by
    subst hready
    rfl
  have hrecv : ((ready.advanceAll .WC_SEND).advanceAll .WC_RECV).side .WC_RECV
      = (x.side .WC_RECV).advanceAll (advanceOp .WC_RECV ready.view) := by
    subst hready
    rfl
  have hestablished : ((ready.advanceAll .WC_SEND).advanceAll .WC_RECV).state = .ESTABLISHED :=
    hready'
  have hqueuePairs : ((ready.advanceAll .WC_SEND).advanceAll .WC_RECV).queuePairs
      = ready.queuePairs := rfl
  refine ⟨hreachable, ?_, ?_, ?_, fun _ => ?_, fun _ => ?_,
    fun kind => ⟨fun hother => ?_, fun _ => ?_⟩⟩
  · exact herror
  · subst hready
    exact h.gpuToNic
  · subst hready
    exact h.numNics
  · subst hready
    refine h.met ?_
    rw [hstate]
    simp
  · subst hready
    intro l hl r hr
    obtain ⟨qp, hqp⟩ := Option.ne_none_iff_exists'.mp (hpairs l hl r hr)
    refine ⟨⟨qp.qpNum, Nat.min (S.maximumMessageSize who l) (S.maximumMessageSize (!who) r)⟩,
      ?_, rfl⟩
    exact (queuePairAt_mapIdx ..).trans (by rw [hqp]; rfl)
  · exact absurd hestablished hother
  · rw [hqueuePairs]
    cases kind with
    | WC_SEND =>
        rw [hsend]
        exact hline .WC_SEND
    | WC_RECV =>
        rw [hrecv]
        exact hline .WC_RECV

/-- The operation that a call is for waits for it. -/
theorem Endpoint.waits (h : Endpoint S who x) {c : Call} {n : Nat}
    (hc : c ∈ (x.side kind).io.calls) (hcap : c.captures = some n) :
    (∃ op ∈ (x.side kind).ops, op.sequenceNumber = n ∧ op.waits c)
      ∧ ∀ op ∈ (x.side kind).ops, op.sequenceNumber = n → op.waits c := by
  obtain ⟨⟨bound, -, hsided⟩, -⟩ := (ChannelImpl.inv_of_reachable h.reachable).standing kind
  obtain ⟨op, hop, hseq, hwaits⟩ := hsided.inv.stored c hc n hcap
  refine ⟨⟨op, hop, hseq, hwaits⟩, fun op' hop' hseq' => ?_⟩
  have hfind := numbered_find hsided.inv.numbered hop
  have hfind' := numbered_find hsided.inv.numbered hop'
  have hsame : sequenceNumber op' = sequenceNumber op := hseq'.trans hseq.symm
  rw [hsame, hfind] at hfind'
  obtain rfl := Option.some.inj hfind'
  exact hwaits

/-- Nothing is waited for before the channel is established. -/
theorem Endpoint.established (h : Endpoint S who x) {c : Call} {n : Nat}
    (hc : c ∈ (x.side kind).io.calls) (hcap : c.captures = some n) : x.state = .ESTABLISHED := by
  by_contra hstate
  obtain ⟨⟨op, hop, -, hwaits⟩, -⟩ := h.waits hc hcap
  rw [((h.ordered kind).idle hstate).ops] at hop
  obtain ⟨k, -, rfl⟩ := List.mem_map.mp (mem_of_mem_popFinished hop)
  have hidle : (waiting (S.transfer who kind) k).state = .UNINITIALIZED
      ∨ (waiting (S.transfer who kind) k).state = .FINISHED := by
    rw [waiting]
    split
    · exact Or.inl rfl
    · exact Or.inr rfl
  cases c with
  | read | waitForCudaEvent | post =>
      rw [hwaits.1] at hidle
      simp at hidle
  | write | queuePair => exact hwaits

/-- A read completes with the NIC at the other end. -/
theorem Endpoint.read (h : Endpoint S who x) {n : Nat}
    (hcall : .read n ∈ (x.side kind).io.calls) (hnic : S.remote who kind n < S.numNics (!who)) :
    Endpoint S who
      (x.step (.report kind (.read n) false (S.remote who kind n))) := by
  have hstate := h.established hcall rfl
  have hmet : x.numRemoteNics = S.numNics (!who) := h.met (by rw [hstate]; simp)
  have hnic' : S.remote who kind n < x.numRemoteNics := hmet ▸ hnic
  have hreachable := h.reachable.step (.report kind (.read n) false (S.remote who kind n))
    ⟨hcall, fun _ _ _ => hnic'⟩
  have hstep : x.step (.report kind (.read n) false (S.remote who kind n))
      = x.withSide kind ((x.side kind).report (advanceOp kind x.view) (.read n) n (fun op =>
        { op with doneReading := true
                  remoteNicIdx := if x.error then op.remoteNicIdx
                    else some (S.remote who kind n) })) := by
    rw [ChannelImpl.step, setError_false h.noError]
    rfl
  rw [hstep] at hreachable ⊢
  refine h.replace hreachable (replaced_withSide x kind _) (fun hnot => absurd hstate hnot)
    (fun _ => ?_)
  refine (live_report h.noError (h.live hstate kind) (read_reports hcall (fun _ => hnic')) ?_
    ?_).line
  · intro op hseq hlike
    refine ⟨hlike.ptr, hlike.length, hlike.lkey, hlike.localNicIdx, fun r hr => ?_⟩
    have hsome : some (S.remote who kind n) = some r := by
      rw [← hr]
      exact (if_neg h.notError).symm
    rw [← Option.some.inj hsome, ← hseq]
  · intro op hop hseq hwaiting
    have hreading := ((h.waits hcall rfl).2 op hop hseq).1
    exact absurd (hwaiting.symm.trans hreading) (by simp)

/-- A write that has completed changes nothing of the order. -/
theorem Endpoint.wrote (h : Endpoint S who x) {n nicIdx : Nat}
    (hcall : .write n nicIdx ∈ (x.side kind).io.calls) :
    Endpoint S who (x.step (.report kind (.write n nicIdx) false 0)) := by
  have hreachable := h.reachable.step (.report kind (.write n nicIdx) false 0)
    ⟨hcall, fun _ hread => absurd hread (by simp)⟩
  have hstep : x.step (.report kind (.write n nicIdx) false 0)
      = x.withSide kind ((x.side kind).forget (.write n nicIdx)) := by
    rw [ChannelImpl.step, setError_false h.noError]
    rfl
  rw [hstep] at hreachable ⊢
  refine h.replace hreachable (replaced_withSide x kind _) (fun hstate => ?_) (fun hstate => ?_)
  · obtain ⟨hops, hissued⟩ := (h.ordered kind).idle hstate
    exact ⟨hops, hissued⟩
  · obtain ⟨m, hline⟩ := (h.ordered kind).line hstate
    exact ⟨m, hline.congr rfl⟩

/-- A CUDA event is done, of an operation behind which everything was posted. -/
theorem Endpoint.waited (h : Endpoint S who x) {n : Nat}
    (hcall : .waitForCudaEvent n ∈ (x.side kind).io.calls) (hclear : Clear (x.side kind).ops n) :
    Endpoint S who (x.step (.report kind (.waitForCudaEvent n) false 0)) := by
  have hstate := h.established hcall rfl
  have hreachable := h.reachable.step (.report kind (.waitForCudaEvent n) false 0)
    ⟨hcall, fun _ hread => absurd hread (by simp)⟩
  have hstep : x.step (.report kind (.waitForCudaEvent n) false 0)
      = x.withSide kind ((x.side kind).report (advanceOp kind x.view) (.waitForCudaEvent n) n
        (fun op => { op with doneWaitingForCudaEvent := true })) := by
    rw [ChannelImpl.step, setError_false h.noError]
    rfl
  rw [hstep] at hreachable ⊢
  refine h.replace hreachable (replaced_withSide x kind _) (fun hnot => absurd hstate hnot)
    (fun _ => ?_)
  exact (live_report h.noError (h.live hstate kind) (wait_reports hcall)
    (fun op _ hlike => ⟨hlike.ptr, hlike.length, hlike.lkey, hlike.localNicIdx,
      hlike.remoteNicIdx⟩)
    (fun _ _ _ _ _ => hclear)).line

/-- A chunk has arrived. -/
theorem Endpoint.completed (h : Endpoint S who x) {n i l r : Nat} {info : Info}
    (hcall : .post n i l r info ∈ (x.side kind).io.calls) :
    Endpoint S who (x.step (.report kind (.post n i l r info) false 0)) := by
  have hstate := h.established hcall rfl
  have hreachable := h.reachable.step (.report kind (.post n i l r info) false 0)
    ⟨hcall, fun _ hread => absurd hread (by simp)⟩
  let s' := (x.side kind).report (advanceOp kind x.view) (.post n i l r info) n
    (fun op => { op with numChunks := op.numChunks - 1 })
  let x' := x.withSide kind s'
  have hstep : x.step (.report kind (.post n i l r info) false 0)
      = { x' with numInFlight := x'.numInFlight.set kind (x'.numInFlight.get kind - 1) } := by
    rw [ChannelImpl.step, setError_false h.noError]
    exact if_neg h.notError
  rw [hstep] at hreachable ⊢
  have hreplaced : Replaced kind s' x
      { x' with numInFlight := x'.numInFlight.set kind (x'.numInFlight.get kind - 1) } := by
    obtain ⟨h₁, h₂, h₃, h₄, h₅, h₆, h₇, h₈⟩ := replaced_withSide x kind s'
    exact ⟨h₁, h₂, h₃, h₄, h₅, h₆, h₇, h₈⟩
  refine h.replace hreachable hreplaced (fun hnot => absurd hstate hnot) (fun _ => ?_)
  refine (live_report h.noError (h.live hstate kind) (post_reports hcall)
    (fun op _ hlike => ⟨hlike.ptr, hlike.length, hlike.lkey, hlike.localNicIdx,
      hlike.remoteNicIdx⟩) ?_).line
  intro op hop hseq hwaiting
  have hover := ((h.waits hcall rfl).2 op hop hseq).1
  exact absurd (hwaiting.symm.trans hover) (by simp)

/-- A new channel. -/
theorem endpoint_init (S : Setup) (who : Bool) : Endpoint S who (.init (S.gpuToNic who)) := by
  refine ⟨.init _, rfl, rfl, rfl, fun hmet => absurd rfl hmet, fun hest => absurd hest ?_,
    fun kind => ⟨fun _ => ?_, fun hest => absurd hest ?_⟩⟩
  · simp [ChannelImpl.init]
  · cases kind <;> exact ⟨rfl, rfl⟩
  · simp [ChannelImpl.init]

-- ── Messages ─────────────────────────────────────────────────────────────────

/-- The reads are those of the tensors that travel, in order. -/
theorem Endpoint.reads (h : Endpoint S who x) {i : Nat} {c : Call}
    (hc : (x.readsOf kind)[i]? = some c) :
    ∃ n next, c = .read n ∧ (numbersBelow (travels (S.transfer who kind)) next)[i]? = some n := by
  by_cases hstate : x.state = .ESTABLISHED
  · obtain ⟨m, hline⟩ := (h.ordered kind).line hstate
    rw [ChannelImpl.readsOf, hline.reads, List.getElem?_map] at hc
    obtain ⟨n, hn, rfl⟩ := Option.map_eq_some_iff.mp hc
    exact ⟨n, _, rfl, hn⟩
  · rw [ChannelImpl.readsOf, ((h.ordered kind).idle hstate).issued] at hc
    exact absurd hc (by simp)

/-- And so are the writes. -/
theorem Endpoint.writes (h : Endpoint S who x) {i : Nat} {c : Call}
    (hc : (x.writesOf kind)[i]? = some c) :
    ∃ n next, c = .write n (S.transfer who kind n).localNicIdx
      ∧ (numbersBelow (travels (S.transfer who kind)) next)[i]? = some n := by
  by_cases hstate : x.state = .ESTABLISHED
  · obtain ⟨m, hline⟩ := (h.ordered kind).line hstate
    rw [ChannelImpl.writesOf, hline.writes, List.getElem?_map] at hc
    obtain ⟨n, hn, rfl⟩ := Option.map_eq_some_iff.mp hc
    refine ⟨n, (x.side kind).next, rfl, ?_⟩
    cases kind with
    | WC_SEND => exact hn
    | WC_RECV =>
        rw [answered, List.getElem?_take] at hn
        split at hn
        · exact hn
        · exact absurd hn (by simp)
  · rw [ChannelImpl.writesOf, ((h.ordered kind).idle hstate).issued] at hc
    exact absurd hc (by simp)

/-- The same tensors travel at both ends. -/
theorem travels_other (S : Setup) (who : Bool) (kind : WcOpcode) :
    travels (S.transfer (!who) kind.other) = travels (S.transfer who kind) := by
  cases kind with
  | WC_SEND =>
      funext n
      simp only [travels, Setup.transfer, Setup.lengthOf, WcOpcode.other, Bool.not_not]
  | WC_RECV =>
      funext n
      simp only [travels, Setup.transfer, Setup.lengthOf, WcOpcode.other]

/-- A message is read by the operation of the tensor that it is about. -/
theorem message_read {y : ChannelImpl} (h : Endpoint S who x) (h' : Endpoint S (!who) y) {i : Nat}
    {c d : Call} (hc : (y.writesOf kind.other)[i]? = some c) (hd : (x.readsOf kind)[i]? = some d) :
    ∃ n, c = .write n (S.remote who kind n) ∧ d = .read n := by
  obtain ⟨n, next, rfl, hn⟩ := h.reads hd
  obtain ⟨n', next', rfl, hn'⟩ := h'.writes hc
  rw [travels_other] at hn'
  obtain rfl := numbersBelow_agree hn hn'
  exact ⟨n, rfl, rfl⟩

end Endpoint

-- ── The invariant of the pair ────────────────────────────────────────────────

namespace Pair

/-- Both ends are in order. -/
def Inv (S : Setup) (p : Pair) : Prop := ∀ who, Endpoint S who (p.channel who)

variable {S : Setup} {p p' : Pair}

/-- A task that keeps its end in order keeps the invariant. -/
theorem Inv.act (h : Inv S p) {who : Bool} {task : ChannelImpl.Task}
    (htask : Endpoint S who ((p.channel who).step task)) : Inv S (p.act who task) := by
  intro who'
  show Endpoint S who' (Function.update p.channel who ((p.channel who).step task) who')
  by_cases hwho : who' = who
  · subst hwho
    rw [Function.update_self]
    exact htask
  · rw [Function.update_of_ne hwho]
    exact h who'

/-- **Step lemma**: the two channels stay in order. -/
theorem inv_step (hS : S.Valid) (h : Inv S p) {event : Event} (horderly : p.Orderly event)
    (hstep : p.step S event = some p') : Inv S p' := by
  cases event with
  | transfer who kind =>
      obtain rfl := Option.some.inj hstep
      exact h.act ((h who).transfer hS kind)
  | readHandshakeNumNics who qpNums =>
      rw [step] at hstep
      split at hstep
      · next hstate =>
          obtain rfl := Option.some.inj hstep
          refine h.act ?_
          rw [(h !who).numNics]
          exact (h who).readHandshakeNumNics hstate qpNums
      · exact absurd hstep (by simp)
  | readHandshakeSetupInfo who =>
      rw [step] at hstep
      split at hstep
      · next hstate =>
          obtain rfl := Option.some.inj hstep
          exact h.act ((h who).readHandshakeSetupInfo hstate.1)
      · exact absurd hstep (by simp)
  | wroteHandshake who =>
      obtain rfl := Option.some.inj hstep
      refine h.act ?_
      show Endpoint S who ((p.channel who).setError false)
      rw [setError_false (h who).noError]
      exact h who
  | read who kind =>
      rw [step] at hstep
      split at hstep
      · next n' nicIdx n hwrite hread =>
          split at hstep
          · next hcall =>
              obtain rfl := Option.some.inj hstep
              obtain ⟨m, hw, hr⟩ := message_read (h who) (h !who) hwrite hread
              obtain rfl := Call.read.inj hr
              obtain ⟨rfl, rfl⟩ := Call.write.inj hw
              have hact : Inv S (p.act who
                  (.report kind (.read n') false (S.remote who kind n'))) :=
                h.act ((h who).read hcall (Setup.transfer_localNic hS _ _ _))
              exact hact
          · exact absurd hstep (by simp)
      · exact absurd hstep (by simp)
  | report who kind call =>
      cases call with
      | read | queuePair => exact absurd hstep (by simp [step])
      | write n nicIdx =>
          rw [step] at hstep
          split at hstep
          · next hcall =>
              obtain rfl := Option.some.inj hstep
              exact h.act ((h who).wrote hcall)
          · exact absurd hstep (by simp)
      | waitForCudaEvent n =>
          rw [step] at hstep
          split at hstep
          · next hcall =>
              obtain rfl := Option.some.inj hstep
              exact h.act ((h who).waited hcall horderly)
          · exact absurd hstep (by simp)
      | post n i l r info =>
          rw [step] at hstep
          split at hstep
          · next hcall =>
              obtain rfl := Option.some.inj hstep
              exact h.act ((h who).completed hcall)
          · exact absurd hstep (by simp)

/-- In every orderly run both ends are in order. -/
theorem inv_of_reachable (hS : S.Valid) (h : Reachable S Orderly p) : Inv S p := by
  induction h with
  | init => exact fun who => endpoint_init S who
  | step _ event horderly hstep ih => exact inv_step hS ih horderly hstep

end Pair

-- ── Chunks ───────────────────────────────────────────────────────────────────

/-- The tensor and the chunk of a request. -/
def Call.key : Call → Nat × Nat
  | .post n chunkIdx _ _ _ => (n, chunkIdx)
  | _ => (0, 0)

/-- The posts of a tensor are those of its chunks, in order. -/
theorem chunkPosts_keys (op : Op) (qp : QueuePair) (remoteNicIdx left : Nat) :
    ∀ chunkIdx, (chunkPosts op qp remoteNicIdx left chunkIdx).map Call.key
      = (List.range' chunkIdx left).map (fun i => (op.sequenceNumber, i)) := by
  induction left with
  | zero => exact fun _ => rfl
  | succ left ih =>
      intro chunkIdx
      rw [chunkPosts, List.map_cons, ih, List.range'_succ, List.map_cons]
      rfl

/-- The chunks of a tensor on a queue pair: all of them, or none. -/
def Setup.chunksOn (S : Setup) (who : Bool) (kind : WcOpcode) (l r n : Nat) : List (Nat × Nat) :=
  if (S.transfer who kind n).localNicIdx = l ∧ S.remote who kind n = r then
    (List.range' 0 (ceilOfRatio (S.lengthOf who kind n)
      (Nat.min (S.maximumMessageSize who l) (S.maximumMessageSize (!who) r)))).map (fun i => (n, i))
  else []

/-- They are the same at both ends. -/
theorem chunksOn_other (S : Setup) (who : Bool) (kind : WcOpcode) (l r n : Nat) :
    S.chunksOn (!who) kind.other r l n = S.chunksOn who kind l r n := by
  have hlength : S.lengthOf (!who) kind.other n = S.lengthOf who kind n := by
    cases kind <;> simp only [Setup.lengthOf, WcOpcode.other, Bool.not_not]
  have hremote : S.remote (!who) kind.other n = (S.transfer who kind n).localNicIdx := by
    cases kind <;> simp only [Setup.remote, WcOpcode.other, Bool.not_not]
  have hlocal : (S.transfer (!who) kind.other n).localNicIdx = S.remote who kind n := rfl
  have hsize : Nat.min (S.maximumMessageSize (!who) r) (S.maximumMessageSize (!!who) l)
      = Nat.min (S.maximumMessageSize who l) (S.maximumMessageSize (!who) r) := by
    rw [Bool.not_not]
    exact Nat.min_comm _ _
  rw [Setup.chunksOn, Setup.chunksOn, hlength, hremote, hlocal, hsize]
  exact if_congr and_comm rfl rfl

/-- The chunks of a tensor that go through one queue pair. -/
theorem filter_chunks {requests : Nat → Transfer} {remotes : Nat → Nat}
    {queuePairs : List (List QueuePair)} {n : Nat} {qp : QueuePair} (l r : Nat)
    (hqp : queuePairAt queuePairs (requests n).localNicIdx (remotes n) = some qp) :
    ((chunksOf queuePairs requests remotes n).filter (Call.isOn l r)).map Call.key
      = if (requests n).localNicIdx = l ∧ remotes n = r then
          (List.range' 0 (ceilOfRatio (requests n).length qp.maximumMessageSize)).map
            (fun i => (n, i))
        else [] := by
  have hchunks : chunksOf queuePairs requests remotes n = chunkPosts ((requests n).op n) qp
      (remotes n) (ceilOfRatio (requests n).length qp.maximumMessageSize) 0 := by
    rw [chunksOf, hqp]
  have hon : ∀ c ∈ chunksOf queuePairs requests remotes n,
      c.isOn l r = decide ((requests n).localNicIdx = l ∧ remotes n = r) := by
    intro c hc
    rw [hchunks] at hc
    obtain ⟨i, rfl⟩ := chunkPosts_all _ _ _ _ _ c hc
    rw [Bool.decide_and]
    rfl
  by_cases hboth : (requests n).localNicIdx = l ∧ remotes n = r
  · rw [if_pos hboth, List.filter_eq_self.mpr
      (fun c hc => (hon c hc).trans (decide_eq_true hboth)), hchunks]
    exact chunkPosts_keys ..
  · rw [if_neg hboth, List.filter_eq_nil_iff.mpr]
    · rfl
    · intro c hc
      rw [hon c hc, decide_eq_false hboth]
      exact Bool.false_ne_true

/-- What was posted on a queue pair are the chunks of the tensors that travel, in order. -/
theorem Endpoint.posted {S : Setup} (hS : S.Valid) {who : Bool} {x : ChannelImpl}
    (h : Endpoint S who x) (kind : WcOpcode) (l r : Nat) : ∃ m next,
      (x.postsOn kind l r).map Call.key
        = ((numbersBelow (travels (S.transfer who kind)) next).take m).flatMap
          (S.chunksOn who kind l r) := by
  by_cases hstate : x.state = .ESTABLISHED
  · obtain ⟨m, hline⟩ := (h.ordered kind).line hstate
    have hmet : x.numRemoteNics = S.numNics (!who) := h.met (by rw [hstate]; simp)
    have hpost : ∀ c : Call, (c.isOn l r && c.isPost) = c.isOn l r := by
      intro c
      cases c with
      | post => exact Bool.and_true _
      | read | write | waitForCudaEvent | queuePair => rfl
    have hposts : x.postsOn kind l r = (posts (x.side kind).io.issued).filter (Call.isOn l r) := by
      rw [posts, List.filter_filter]
      exact List.filter_congr (fun c _ => (hpost c).symm)
    refine ⟨m, (x.side kind).next, ?_⟩
    rw [hposts, hline.posted, List.filter_flatMap, List.map_flatMap]
    refine congrArg (List.flatMap · _) (funext (fun n => ?_))
    obtain ⟨qp, hqp, hsize⟩ := h.sized hstate (S.transfer who kind n).localNicIdx
      (h.numNics ▸ Setup.transfer_localNic hS who kind n) (S.remote who kind n)
      (hmet ▸ Setup.transfer_localNic hS (!who) kind.other n)
    rw [filter_chunks l r hqp, hsize, Setup.chunksOn]
    by_cases hboth : (S.transfer who kind n).localNicIdx = l ∧ S.remote who kind n = r
    · obtain ⟨rfl, rfl⟩ := hboth
      rfl
    · rw [if_neg hboth, if_neg hboth]
  · refine ⟨0, 0, ?_⟩
    rw [ChannelImpl.postsOn, ((h.ordered kind).idle hstate).issued]
    rfl

/-- Two beginnings of one list agree. -/
theorem prefix_agree {α : Type} {l₁ l₂ l : List α} (h₁ : l₁ <+: l) (h₂ : l₂ <+: l) {i : Nat}
    {a b : α} (ha : l₁[i]? = some a) (hb : l₂[i]? = some b) : a = b := by
  obtain ⟨t₁, rfl⟩ := h₁
  obtain ⟨t₂, heq⟩ := h₂
  obtain ⟨hi₁, -⟩ := List.getElem?_eq_some_iff.mp ha
  obtain ⟨hi₂, -⟩ := List.getElem?_eq_some_iff.mp hb
  have hleft : (l₁ ++ t₁)[i]? = some a := (List.getElem?_append_left hi₁).trans ha
  have hright : (l₂ ++ t₂)[i]? = some b := (List.getElem?_append_left hi₂).trans hb
  rw [heq, hleft] at hright
  exact Option.some.inj hright

/-- The posts at a place agree when the tensors below agree. -/
theorem chunks_agree {p : Nat → Bool} {f : Nat → List (Nat × Nat)} {j k m m' i : Nat}
    {a b : Nat × Nat} (ha : (((numbersBelow p j).take m).flatMap f)[i]? = some a)
    (hb : (((numbersBelow p k).take m').flatMap f)[i]? = some b) : a = b := by
  have hbegin : ∀ n m, n ≤ max j k →
      ((numbersBelow p n).take m).flatMap f <+: (numbersBelow p (max j k)).flatMap f := by
    intro n m hle
    obtain ⟨rest, hrest⟩ := numbersBelow_le (p := p) hle
    rw [hrest]
    exact List.IsPrefix.flatMap ((List.take_prefix m _).trans (List.prefix_append _ rest)) f
  exact prefix_agree (hbegin j m (Nat.le_max_left j k)) (hbegin k m' (Nat.le_max_right j k)) ha hb

-- ── The matching ─────────────────────────────────────────────────────────────

namespace Pair

/-- On each queue pair the i-th send and the i-th recv are of the same chunk of the same tensor,
    and each message is read by the operation of the tensor whose operation wrote it. -/
structure Matched (p : Pair) : Prop where
  chunks : ∀ (who : Bool) (l r i n chunkIdx n' chunkIdx' : Nat) (info info' : Info),
    ((p.channel who).postsOn .WC_SEND l r)[i]? = some (Call.post n chunkIdx l r info) →
    ((p.channel !who).postsOn .WC_RECV r l)[i]? = some (Call.post n' chunkIdx' r l info') →
    n = n' ∧ chunkIdx = chunkIdx'
  messages : ∀ (who : Bool) (kind : WcOpcode) (i n nicIdx n' : Nat),
    ((p.channel !who).writesOf kind.other)[i]? = some (Call.write n nicIdx) →
    ((p.channel who).readsOf kind)[i]? = some (Call.read n') → n = n'

/-- **The two ends stay matched** as long as no CUDA event is reported for an operation that stands
    behind one that was not posted yet. -/
theorem queue_pairs_matched {S : Setup} (hS : S.Valid) {p : Pair}
    (h : Reachable S Orderly p) : p.Matched := by
  have hinv := inv_of_reachable hS h
  refine ⟨?_, ?_⟩
  · intro who l r i n chunkIdx n' chunkIdx' info info' hsend hrecv
    obtain ⟨m, next, hposted⟩ := (hinv who).posted hS .WC_SEND l r
    obtain ⟨m', next', hposted'⟩ := (hinv !who).posted hS .WC_RECV r l
    have hother : S.chunksOn (!who) .WC_RECV r l = S.chunksOn who .WC_SEND l r :=
      funext (chunksOn_other S who .WC_SEND l r)
    have htravels : travels (S.transfer (!who) .WC_RECV) = travels (S.transfer who .WC_SEND) :=
      travels_other S who .WC_SEND
    rw [hother, htravels] at hposted'
    have hkey : (((p.channel who).postsOn .WC_SEND l r).map Call.key)[i]?
        = some (n, chunkIdx) := by
      rw [List.getElem?_map, hsend]
      rfl
    have hkey' : (((p.channel !who).postsOn .WC_RECV r l).map Call.key)[i]?
        = some (n', chunkIdx') := by
      rw [List.getElem?_map, hrecv]
      rfl
    rw [hposted] at hkey
    rw [hposted'] at hkey'
    exact Prod.mk.inj (chunks_agree hkey hkey')
  · intro who kind i n nicIdx n' hwrite hread
    obtain ⟨m, hw, hr⟩ := message_read (hinv who) (hinv !who) hwrite hread
    exact (Call.write.inj hw).1.trans (Call.read.inj hr).symm

-- ── Runs ─────────────────────────────────────────────────────────────────────

instance (p : Pair) : DecidablePred p.Orderly
  | .report who kind (.waitForCudaEvent n) => inferInstanceAs (Decidable
      (∀ op ∈ ((p.channel who).side kind).ops, op.sequenceNumber < n → OpState.OVER_IB ≤ op.state))
  | .report _ _ (.read _) | .report _ _ (.write _ _) | .report _ _ (.post _ _ _ _ _)
  | .report _ _ (.queuePair _ _) | .transfer _ _ | .readHandshakeNumNics _ _
  | .readHandshakeSetupInfo _ | .wroteHandshake _ | .read _ _ => inferInstanceAs (Decidable True)

/-- A run of allowed events. -/
def run (S : Setup) (allowed : Pair → Event → Prop) [∀ p, DecidablePred (allowed p)] (p : Pair)
    (events : List Event) : Option Pair :=
  events.foldlM (fun p event => if allowed p event then p.step S event else none) p

/-- A run leads to a pair that can be reached. -/
theorem reachable_of_run {S : Setup} {allowed : Pair → Event → Prop}
    [∀ p, DecidablePred (allowed p)] {events : List Event} :
    ∀ {p p' : Pair}, Reachable S allowed p → run S allowed p events = some p' →
      Reachable S allowed p' := by
  induction events with
  | nil =>
      intro p p' h hrun
      obtain rfl := Option.some.inj hrun
      exact h
  | cons event rest ih =>
      intro p p' h hrun
      rw [run, List.foldlM_cons] at hrun
      obtain ⟨next, hstep, hrest⟩ := Option.bind_eq_some_iff.mp hrun
      split at hstep
      · next hallowed => exact ih (h.step event hallowed hstep) hrest
      · exact absurd hstep (by simp)

-- ── An empty tensor between two others ───────────────────────────────────────

/-- One GPU and one NIC on either side; the second tensor is empty. -/
def sample : Setup where
  gpuToNic _ := [0]
  maximumMessageSize _ _ := 8
  length _ n := if n = 1 then 0 else 16
  buffer _ _ n := ⟨0, 64 * n, 0⟩

/-- The tensors of the sample can be sent. -/
theorem sample_valid : sample.Valid := fun _ _ _ => Nat.one_pos

/-- The channels are established, three tensors are sent and received, and both descriptors have
    been read. -/
def described : List Event :=
  [.readHandshakeNumNics true (fun _ _ => 7), .readHandshakeNumNics false (fun _ _ => 7),
    .readHandshakeSetupInfo true, .readHandshakeSetupInfo false,
    .transfer true .WC_SEND, .transfer true .WC_SEND, .transfer true .WC_SEND,
    .transfer false .WC_RECV, .transfer false .WC_RECV, .transfer false .WC_RECV,
    .read false .WC_RECV, .read false .WC_RECV]

/-- The event of the third recv comes first, then the first send reads that the peer is ready. -/
def overtaking : List Event :=
  described ++ [.report false .WC_RECV (.waitForCudaEvent 2), .read true .WC_SEND,
    .report true .WC_SEND (.waitForCudaEvent 0)]

/-- The events come in order. -/
def waitingInTurn : List Event :=
  described ++ [.report false .WC_RECV (.waitForCudaEvent 0), .read true .WC_SEND,
    .report true .WC_SEND (.waitForCudaEvent 0), .report false .WC_RECV (.waitForCudaEvent 2)]

theorem queue_pairs_matched_in_turn : ∃ p : Pair,
    ((p.channel true).postsOn .WC_SEND 0 0).map Call.key = [(0, 0), (0, 1)]
      ∧ ((p.channel false).postsOn .WC_RECV 0 0).map Call.key = [(0, 0), (0, 1), (2, 0), (2, 1)]
      ∧ p.Matched := by
  have hrun : (run sample Orderly (init sample) waitingInTurn).map (fun p =>
      (((p.channel true).postsOn .WC_SEND 0 0).map Call.key,
        ((p.channel false).postsOn .WC_RECV 0 0).map Call.key))
      = some ([(0, 0), (0, 1)], [(0, 0), (0, 1), (2, 0), (2, 1)]) := by rfl
  obtain ⟨p, hp, hposts⟩ := Option.map_eq_some_iff.mp hrun
  obtain ⟨hsend, hrecv⟩ := Prod.mk.inj hposts
  exact ⟨p, hsend, hrecv, queue_pairs_matched sample_valid (reachable_of_run .init hp)⟩

/-- The recv of the third tensor is posted first: the first send reads that the peer is ready for
    the third tensor, and its first chunk goes into the buffer of that one. -/
theorem empty_tensor_overtaken : ¬ ∀ (S : Setup) (p : Pair), S.Valid →
    Reachable S (fun _ _ => True) p → p.Matched := by
  intro hclaim
  have hrun : (run sample (fun _ _ => True) (init sample) overtaking).map (fun p =>
      (((p.channel false).writesOf .WC_RECV)[0]?, ((p.channel true).readsOf .WC_SEND)[0]?))
      = some (some (.write 2 0), some (.read 0)) := by rfl
  obtain ⟨p, hp, hmessages⟩ := Option.map_eq_some_iff.mp hrun
  obtain ⟨hwrite, hread⟩ := Prod.mk.inj hmessages
  have hmatched := hclaim sample p sample_valid (reachable_of_run .init hp)
  exact absurd (hmatched.messages true .WC_SEND 0 2 0 0 hwrite hread) (by decide)

end Pair

end TpCudaGdr
