import Mathlib.Data.List.Count
import Mathlib.Tactic.Common
import Tensorpipe.StateMachineProofs

/-! # The InfiniBand reactor — credits, pending posts, completions

    One reactor owns the completion queue and the shared receive queue of all the
    connections of a context.  It hands at most `kNumPendingWriteReqs` RDMA writes and
    `kNumPendingAckReqs` sends to the device at a time and queues the rest.

    The device is part of the state as far as the reactor can tell it apart: the send
    requests it has and whose completion has not been polled, and how many receive
    requests it was given and how many of these completed.  What the handlers of the
    connections do when they are invoked is a parameter of each completion: any list
    of calls back into the reactor.

    The credits are ACCOUNTED FOR in every state between two polls: available, with the
    device, or lost with a failed completion (`accounted_of_reachable`).  They are
    conserved exactly as long as no polled completion has failed. -/

namespace TpIbv

open TpStateMachine

-- ── Constants ────────────────────────────────────────────────────────────────

/-- The credits of each kind, and the most that one poll takes. -/
def kNumPendingRecvReqs : Nat := 1024
def kNumPendingWriteReqs : Nat := 1024
def kNumPendingAckReqs : Nat := 1024
def kNumPolledWorkCompletions : Nat := 32

/-- What tells the requests of the two kinds apart. -/
def kWriteRequestId : Nat := 1
def kAckRequestId : Nat := 2

-- ── Requests and completions ─────────────────────────────────────────────────

/-- A write to the memory of a peer. -/
structure WriteInfo where
  addr : Nat
  length : Nat
  lkey : UInt32
  remoteAddr : Nat
  rkey : UInt32
deriving DecidableEq, Repr

/-- An acknowledgement, of which only the length is told. -/
structure AckInfo where
  length : Nat
deriving DecidableEq, Repr

/-- A request on the send queue of a queue pair.  The immediate is 32 bits wide, the
    lengths it is set from are not. -/
inductive SendWr where
  | rdmaWriteWithImm (wrId : Nat) (qpNum : UInt32) (info : WriteInfo) (immData : UInt32)
  | sendWithImm (wrId : Nat) (qpNum : UInt32) (immData : UInt32)
deriving DecidableEq, Repr

/-- The identifier that a request carries. -/
def SendWr.wrId : SendWr → Nat
  | .rdmaWriteWithImm wrId _ _ _ => wrId
  | .sendWithImm wrId _ _ => wrId

/-- The queue pair that a request goes through. -/
def SendWr.qpNum : SendWr → UInt32
  | .rdmaWriteWithImm _ qpNum _ _ => qpNum
  | .sendWithImm _ qpNum _ => qpNum

/-- Whether a request succeeded. -/
inductive WcStatus where
  | WC_SUCCESS
  | error (code : Nat)
deriving DecidableEq, Repr

/-- What kind of request has completed. -/
inductive WcOpcode where
  | WC_RECV_RDMA_WITH_IMM
  | WC_RECV
  | WC_RDMA_WRITE
  | WC_SEND
  | other (code : Nat)
deriving DecidableEq, Repr

/-- `withImm` is the flag `WC_WITH_IMM`. -/
structure Wc where
  wrId : Nat
  qpNum : UInt32
  status : WcStatus
  opcode : WcOpcode
  withImm : Bool
  immData : UInt32
deriving DecidableEq, Repr

/-- What the reactor tells the handler of a queue pair. -/
inductive IbvEvent where
  | onRemoteProducedData (length : UInt32)
  | onRemoteConsumedData (length : UInt32)
  | onWriteCompleted
  | onAckCompleted
  | onError (status : WcStatus) (wrId : Nat)
deriving DecidableEq, Repr

-- ── The device ───────────────────────────────────────────────────────────────

/-- What was handed to the device: all the send requests, in order, those among them
    whose completion was not polled, and the receive requests, all alike. -/
structure Device where
  posted : List SendWr := []
  sends : List SendWr := []
  recvsPosted : Nat := 0
  recvsPolled : Nat := 0
deriving DecidableEq, Repr

namespace Device

/-- Hands a request to the device. -/
def postSend (d : Device) (wr : SendWr) : Device :=
  { d with posted := d.posted ++ [wr], sends := d.sends ++ [wr] }

/-- The send requests with this id that have not completed. -/
def outstanding (d : Device) (wrId : Nat) : Nat :=
  d.sends.countP (fun wr => wr.wrId == wrId)

/-- The request that a completion is for. -/
def isFor (wc : Wc) (wr : SendWr) : Bool :=
  wr.wrId == wc.wrId && wr.qpNum == wc.qpNum

/-- The opcodes that a successful completion can have, by the id of its request.  The
    opcode of a failed one is undefined. -/
def opcodeMatches (wc : Wc) : Bool :=
  if wc.status ≠ .WC_SUCCESS then true
  else if wc.wrId = kWriteRequestId then wc.opcode = .WC_RDMA_WRITE
  else if wc.wrId = kAckRequestId then wc.opcode = .WC_SEND
  else wc.opcode = .WC_RECV_RDMA_WITH_IMM ∨ wc.opcode = .WC_RECV

/-- Take one completion out of the completion queue: there must be a request for it.
    The receive requests are posted with id 0. -/
def complete (d : Device) (wc : Wc) : Option Device :=
  if opcodeMatches wc = false then none
  else if wc.wrId = kWriteRequestId ∨ wc.wrId = kAckRequestId then
    if d.sends.any (isFor wc) then some { d with sends := d.sends.eraseP (isFor wc) } else none
  else if wc.wrId = 0 ∧ d.recvsPolled < d.recvsPosted then
    some { d with recvsPolled := d.recvsPolled + 1 }
  else none

/-- Takes completions from the device, one after the other. -/
def pollCq : Device → List Wc → Option Device
  | d, [] => some d
  | d, wc :: rest => (d.complete wc).bind (fun d' => pollCq d' rest)

end Device

-- ── The reactor ──────────────────────────────────────────────────────────────

/-- A queue pair stands for its number.  `events` logs what the handlers were told. -/
structure Reactor where
  queuePairEventHandler : List UInt32 := []
  numAvailableWrites : Nat := kNumPendingWriteReqs
  numAvailableAcks : Nat := kNumPendingAckReqs
  pendingQpWrites : List (UInt32 × WriteInfo) := []
  pendingQpAcks : List (UInt32 × AckInfo) := []
  device : Device := {}
  events : List (UInt32 × IbvEvent) := []
deriving DecidableEq, Repr

/-- The calls into the reactor. -/
inductive Call where
  | registerQp (qpNum : UInt32)
  | unregisterQp (qpNum : UInt32)
  | postWrite (qpNum : UInt32) (info : WriteInfo)
  | postAck (qpNum : UInt32) (info : AckInfo)
deriving DecidableEq, Repr

/-- What one batch of completions adds up to. -/
structure Tally where
  numRecvs : Nat := 0
  numWrites : Nat := 0
  numAcks : Nat := 0
deriving DecidableEq, Repr

namespace Reactor

/-- The loop of `postRecvRequestsOnSRQ`: each round posts one chain of requests. -/
def postRecvLoop : Nat → Nat → Reactor → Reactor
  | 0, _, s => s
  | fuel + 1, num, s =>
      if 0 < num then
        let chain := Nat.min num kNumPolledWorkCompletions
        postRecvLoop fuel (num - chain)
          { s with device := { s.device with recvsPosted := s.device.recvsPosted + chain } }
      else s

/-- Refills the shared queue of receive requests. -/
def postRecvRequestsOnSRQ (s : Reactor) (num : Nat) : Reactor :=
  postRecvLoop num num s

/-- The constructor fills the shared receive queue. -/
def make : Reactor :=
  postRecvRequestsOnSRQ {} kNumPendingRecvReqs

/-- Hands a write to the device, or keeps it until there is a credit. -/
def postWrite (s : Reactor) (qpNum : UInt32) (info : WriteInfo) : Reactor :=
  if 0 < s.numAvailableWrites then
    { s with
      device := s.device.postSend
        (.rdmaWriteWithImm kWriteRequestId qpNum info (UInt32.ofNat info.length))
      numAvailableWrites := s.numAvailableWrites - 1 }
  else { s with pendingQpWrites := s.pendingQpWrites ++ [(qpNum, info)] }

/-- Hands an acknowledgement to the device, or keeps it until there is a credit. -/
def postAck (s : Reactor) (qpNum : UInt32) (info : AckInfo) : Reactor :=
  if 0 < s.numAvailableAcks then
    { s with
      device := s.device.postSend (.sendWithImm kAckRequestId qpNum (UInt32.ofNat info.length))
      numAvailableAcks := s.numAvailableAcks - 1 }
  else { s with pendingQpAcks := s.pendingQpAcks ++ [(qpNum, info)] }

/-- A call of a connection to the reactor. -/
def call (s : Reactor) : Call → Reactor
  | .registerQp qpNum =>
      if qpNum ∈ s.queuePairEventHandler then s
      else { s with queuePairEventHandler := qpNum :: s.queuePairEventHandler }
  | .unregisterQp qpNum =>
      { s with queuePairEventHandler := s.queuePairEventHandler.filter (fun q => q ≠ qpNum) }
  | .postWrite qpNum info => s.postWrite qpNum info
  | .postAck qpNum info => s.postAck qpNum info

/-- Calls of connections, in order. -/
def calls (s : Reactor) (cs : List Call) : Reactor :=
  cs.foldl call s

/-- Invoke a handler, which makes these calls. -/
def invoke (s : Reactor) (qpNum : UInt32) (event : IbvEvent) (cs : List Call) : Reactor :=
  calls { s with events := s.events ++ [(qpNum, event)] } cs

/-- The body of the loop over a batch.  A failed completion goes to `onError` and the
    loop continues with the next one. -/
def handleCompletion (x : Reactor × Tally) (wc : Wc) (cs : List Call) :
    Outcome (Reactor × Tally) :=
  let (s, tally) := x
  if wc.qpNum ∉ s.queuePairEventHandler then .throws x
  else if wc.status ≠ .WC_SUCCESS then
    .returns (s.invoke wc.qpNum (.onError wc.status wc.wrId) cs, tally)
  else match wc.opcode with
    | .WC_RECV_RDMA_WITH_IMM =>
        if wc.withImm = false then .throws x
        else .returns (s.invoke wc.qpNum (.onRemoteProducedData wc.immData) cs,
          { tally with numRecvs := tally.numRecvs + 1 })
    | .WC_RECV =>
        if wc.withImm = false then .throws x
        else .returns (s.invoke wc.qpNum (.onRemoteConsumedData wc.immData) cs,
          { tally with numRecvs := tally.numRecvs + 1 })
    | .WC_RDMA_WRITE =>
        .returns (s.invoke wc.qpNum .onWriteCompleted cs,
          { tally with numWrites := tally.numWrites + 1 })
    | .WC_SEND =>
        .returns (s.invoke wc.qpNum .onAckCompleted cs,
          { tally with numAcks := tally.numAcks + 1 })
    | .other _ => .throws x

/-- The loop over the completions of a poll. -/
def handleCompletions : List (Wc × List Call) → Reactor × Tally → Outcome (Reactor × Tally)
  | [], x => .returns x
  | (wc, cs) :: rest, x => (handleCompletion x wc cs).bind (handleCompletions rest)

/-- The loop that posts the queued RDMA writes; each round takes one off the queue. -/
def drainWrites : Nat → Reactor → Reactor
  | 0, s => s
  | fuel + 1, s =>
      match s.pendingQpWrites with
      | [] => s
      | (qpNum, info) :: _ =>
          if 0 < s.numAvailableWrites then
            let s' := s.postWrite qpNum info
            drainWrites fuel { s' with pendingQpWrites := s'.pendingQpWrites.tail }
          else s

/-- The loop which hands over the acknowledgements that were kept. -/
def drainAcks : Nat → Reactor → Reactor
  | 0, s => s
  | fuel + 1, s =>
      match s.pendingQpAcks with
      | [] => s
      | (qpNum, info) :: _ =>
          if 0 < s.numAvailableAcks then
            let s' := s.postAck qpNum info
            drainAcks fuel { s' with pendingQpAcks := s'.pendingQpAcks.tail }
          else s

/-- The end of `pollOnce`, after the loop over the batch. -/
def settle (s : Reactor) (tally : Tally) : Reactor :=
  let s := s.postRecvRequestsOnSRQ tally.numRecvs
  let s := { s with numAvailableWrites := s.numAvailableWrites + tally.numWrites }
  let s := drainWrites s.pendingQpWrites.length s
  let s := { s with numAvailableAcks := s.numAvailableAcks + tally.numAcks }
  drainAcks s.pendingQpAcks.length s

/-- One poll.  The batch is what `poll_cq` returned, each completion with the calls
    that its handler makes. -/
def pollOnce (s : Reactor) (batch : List (Wc × List Call)) : Outcome Reactor :=
  match batch with
  | [] => .returns s
  | _ :: _ =>
      match handleCompletions batch (s, {}) with
      | .throws x => .throws x.1
      | .returns x => .returns (x.1.settle x.2)

-- ── Runs ─────────────────────────────────────────────────────────────────────

/-- The states between two polls, each with all the completions polled so far.  Tasks
    of the loop call into the reactor; a poll takes a batch out of the device. -/
inductive Reachable : Reactor → List Wc → Prop where
  | make : Reachable make []
  | call {s : Reactor} {polled : List Wc} (h : Reachable s polled) (c : Call) :
      Reachable (s.call c) polled
  | poll {s s' : Reactor} {polled : List Wc} {device' : Device} (h : Reachable s polled)
      (batch : List (Wc × List Call)) (hsize : batch.length ≤ kNumPolledWorkCompletions)
      (hpoll : s.device.pollCq (batch.map Prod.fst) = some device')
      (hstep : pollOnce { s with device := device' } batch = .returns s') :
      Reachable s' (polled ++ batch.map Prod.fst)

end Reactor

-- ── What one call does to the credits ────────────────────────────────────────

/-- The credits of a reactor, available or with the device, and its receive requests. -/
@[ext]
structure Credits where
  writes : Nat
  acks : Nat
  recvsPosted : Nat
  recvsPolled : Nat

namespace Reactor

/-- The credits in use and not in use, kind by kind. -/
def credits (s : Reactor) : Credits where
  writes := s.numAvailableWrites + s.device.outstanding kWriteRequestId
  acks := s.numAvailableAcks + s.device.outstanding kAckRequestId
  recvsPosted := s.device.recvsPosted
  recvsPolled := s.device.recvsPolled

/-- A request that was handed over is outstanding. -/
theorem outstanding_postSend (d : Device) (wr : SendWr) (wrId : Nat) :
    (d.postSend wr).outstanding wrId
      = d.outstanding wrId + if wr.wrId = wrId then 1 else 0 := by
  show (d.sends ++ [wr]).countP _ = d.sends.countP _ + _
  rw [List.countP_append, List.countP_singleton]
  simp only [beq_iff_eq]

/-- A write takes one credit to the device, or none at all. -/
theorem postWrite_credits (s : Reactor) (qpNum : UInt32) (info : WriteInfo) :
    (s.postWrite qpNum info).credits = s.credits := by
  rw [postWrite]
  by_cases havail : 0 < s.numAvailableWrites
  · rw [if_pos havail]
    ext
    · show s.numAvailableWrites - 1 + (s.device.postSend _).outstanding _ = _ + _
      rw [outstanding_postSend]
      simp only [SendWr.wrId, if_pos]
      omega
    · show s.numAvailableAcks + (s.device.postSend _).outstanding _ = _ + _
      rw [outstanding_postSend]
      rfl
    · rfl
    · rfl
  · rw [if_neg havail]
    rfl

/-- Handing over an acknowledgement moves a credit. -/
theorem postAck_credits (s : Reactor) (qpNum : UInt32) (info : AckInfo) :
    (s.postAck qpNum info).credits = s.credits := by
  rw [postAck]
  by_cases havail : 0 < s.numAvailableAcks
  · rw [if_pos havail]
    ext
    · show s.numAvailableWrites + (s.device.postSend _).outstanding _ = _ + _
      rw [outstanding_postSend]
      rfl
    · show s.numAvailableAcks - 1 + (s.device.postSend _).outstanding _ = _ + _
      rw [outstanding_postSend]
      simp only [SendWr.wrId, if_pos]
      omega
    · rfl
    · rfl
  · rw [if_neg havail]
    rfl

/-- A call of a connection only moves credits. -/
theorem call_credits (s : Reactor) (c : Call) : (s.call c).credits = s.credits := by
  cases c with
  | registerQp qpNum =>
      rw [call]
      by_cases hmem : qpNum ∈ s.queuePairEventHandler
      · rw [if_pos hmem]
      · rw [if_neg hmem]
        rfl
  | unregisterQp qpNum => rfl
  | postWrite qpNum info => exact postWrite_credits s qpNum info
  | postAck qpNum info => exact postAck_credits s qpNum info

/-- Calls of connections only move credits. -/
theorem calls_credits (cs : List Call) :
    ∀ s : Reactor, (s.calls cs).credits = s.credits := by
  induction cs with
  | nil => intro s; rfl
  | cons c rest ih =>
      intro s
      show ((s.call c).calls rest).credits = s.credits
      rw [ih, call_credits]

/-- What the callback of a completion calls only moves credits. -/
theorem invoke_credits (s : Reactor) (qpNum : UInt32) (event : IbvEvent) (cs : List Call) :
    (s.invoke qpNum event cs).credits = s.credits :=
  calls_credits cs { s with events := s.events ++ [(qpNum, event)] }

-- ── Completions, by request and by outcome ───────────────────────────────────

end Reactor

namespace Wc

/-- The kinds of completions, as the reactor tells them apart, and their success. -/
def isWrite (wc : Wc) : Bool := wc.wrId == kWriteRequestId
def isAck (wc : Wc) : Bool := wc.wrId == kAckRequestId
def isRecv (wc : Wc) : Bool := !wc.isWrite && !wc.isAck
def succeeded (wc : Wc) : Bool := wc.status == .WC_SUCCESS

end Wc

/-- The completions of one kind, split by outcome. -/
theorem countP_outcome (kind : Wc → Bool) (wcs : List Wc) :
    wcs.countP kind = wcs.countP (fun wc => kind wc && wc.succeeded)
      + wcs.countP (fun wc => kind wc && !wc.succeeded) := by
  induction wcs with
  | nil => rfl
  | cons wc rest ih =>
      simp only [List.countP_cons, ih]
      cases kind wc with
      | false => simp only [Bool.false_and, Bool.false_eq_true, if_false, Nat.add_zero]
      | true =>
          cases wc.succeeded with
          | false => simp only [Bool.true_and, Bool.not_false, if_true, Bool.false_eq_true,
              if_false, Nat.add_zero, Nat.add_assoc]
          | true =>
              simp only [Bool.true_and, Bool.not_true, if_true, Bool.false_eq_true, if_false,
                Nat.add_zero]
              omega

/-- The first completion is counted apart from the others. -/
theorem countP_cons_first (p : Wc → Bool) (wc : Wc) (wcs : List Wc) :
    (wc :: wcs).countP p = [wc].countP p + wcs.countP p := by
  rw [← List.singleton_append, List.countP_append]

-- ── What one poll does to the credits ────────────────────────────────────────

namespace Device

/-- A completed send request leaves the device. -/
theorem outstanding_eraseP {d : Device} {wc : Wc} (h : d.sends.any (isFor wc) = true)
    (wrId : Nat) :
    (d.sends.eraseP (isFor wc)).countP (fun wr => wr.wrId == wrId)
        + (if wc.wrId = wrId then 1 else 0)
      = d.outstanding wrId := by
  obtain ⟨wr₀, hmem, hfor⟩ := List.any_eq_true.mp h
  obtain ⟨wr, pre, post, -, hwr, hsplit, herase⟩ := List.exists_of_eraseP hmem hfor
  have hid : wr.wrId = wc.wrId := beq_iff_eq.mp (Bool.and_eq_true_iff.mp hwr).1
  rw [outstanding, herase, hsplit, List.countP_append, List.countP_append, List.countP_cons, hid]
  simp only [beq_iff_eq]
  omega

/-- What a polled batch of completions does to the device. -/
structure Polled (d d' : Device) (wcs : List Wc) : Prop where
  writes : d'.outstanding kWriteRequestId + wcs.countP Wc.isWrite = d.outstanding kWriteRequestId
  acks : d'.outstanding kAckRequestId + wcs.countP Wc.isAck = d.outstanding kAckRequestId
  posted : d'.recvsPosted = d.recvsPosted
  polled : d'.recvsPolled = d.recvsPolled + wcs.countP Wc.isRecv
  opcodes : ∀ wc ∈ wcs, opcodeMatches wc = true

/-- Polls follow one another. -/
theorem Polled.trans {d d' d'' : Device} {wc : Wc} {wcs : List Wc} (h : Polled d d' [wc])
    (h' : Polled d' d'' wcs) : Polled d d'' (wc :: wcs) where
  writes := by rw [← h.writes, ← h'.writes, countP_cons_first _ wc wcs]; omega
  acks := by rw [← h.acks, ← h'.acks, countP_cons_first _ wc wcs]; omega
  posted := h'.posted.trans h.posted
  polled := by rw [h'.polled, h.polled, countP_cons_first _ wc wcs, Nat.add_assoc]
  opcodes := by
    intro wc' hmem
    rcases List.mem_cons.mp hmem with rfl | hrest
    · exact h.opcodes _ (List.mem_singleton_self _)
    · exact h'.opcodes _ hrest

/-- Taking one completion is a poll of it. -/
theorem complete_polled {d d' : Device} {wc : Wc} (h : d.complete wc = some d') :
    Polled d d' [wc] := by
  rw [complete] at h
  by_cases hop : opcodeMatches wc = false
  · rw [if_pos hop] at h
    exact nomatch h
  rw [if_neg hop] at h
  have hopcodes : ∀ wc' ∈ [wc], opcodeMatches wc' = true := by
    intro wc' hmem
    rw [List.mem_singleton.mp hmem]
    exact Bool.not_eq_false _ ▸ hop
  by_cases hsend : wc.wrId = kWriteRequestId ∨ wc.wrId = kAckRequestId
  · rw [if_pos hsend] at h
    by_cases hany : d.sends.any (isFor wc) = true
    · rw [if_pos hany] at h
      cases h
      have hrecv : wc.isRecv = false := by
        rcases hsend with hid | hid
        · simp only [Wc.isRecv, Wc.isWrite, hid, beq_self_eq_true, Bool.not_true, Bool.false_and]
        · simp only [Wc.isRecv, Wc.isAck, hid, beq_self_eq_true, Bool.not_true, Bool.and_false]
      refine ⟨?_, ?_, rfl, ?_, hopcodes⟩
      · rw [← outstanding_eraseP hany kWriteRequestId, List.countP_singleton]
        simp only [Wc.isWrite, beq_iff_eq, outstanding]
      · rw [← outstanding_eraseP hany kAckRequestId, List.countP_singleton]
        simp only [Wc.isAck, beq_iff_eq, outstanding]
      · rw [List.countP_singleton, hrecv]
        rfl
    · rw [if_neg hany] at h
      exact nomatch h
  · rw [if_neg hsend] at h
    by_cases hrecv : wc.wrId = 0 ∧ d.recvsPolled < d.recvsPosted
    · rw [if_pos hrecv] at h
      cases h
      have hwrite : wc.isWrite = false := by
        simp only [Wc.isWrite, hrecv.1]
        rfl
      have hack : wc.isAck = false := by
        simp only [Wc.isAck, hrecv.1]
        rfl
      refine ⟨?_, ?_, rfl, ?_, hopcodes⟩
      · rw [List.countP_singleton, hwrite]
        rfl
      · rw [List.countP_singleton, hack]
        rfl
      · rw [List.countP_singleton, Wc.isRecv, hwrite, hack]
        rfl
    · rw [if_neg hrecv] at h
      exact nomatch h

/-- Taking completions is a poll of them. -/
theorem pollCq_polled (wcs : List Wc) :
    ∀ {d d' : Device}, d.pollCq wcs = some d' → Polled d d' wcs := by
  induction wcs with
  | nil =>
      intro d d' h
      cases h
      exact ⟨rfl, rfl, rfl, rfl, fun _ hmem => nomatch hmem⟩
  | cons wc rest ih =>
      intro d d' h
      obtain ⟨d₁, hfirst, hrest⟩ := Option.bind_eq_some_iff.mp h
      exact (complete_polled hfirst).trans (ih hrest)

end Device

namespace Reactor

/-- What the loop over a batch adds to the tally: the completions that succeeded, by
    kind. -/
structure Tallied (x x' : Reactor × Tally) (wcs : List Wc) : Prop where
  credits : x'.1.credits = x.1.credits
  recvs : x'.2.numRecvs = x.2.numRecvs + wcs.countP (fun wc => wc.isRecv && wc.succeeded)
  writes : x'.2.numWrites = x.2.numWrites + wcs.countP (fun wc => wc.isWrite && wc.succeeded)
  acks : x'.2.numAcks = x.2.numAcks + wcs.countP (fun wc => wc.isAck && wc.succeeded)

/-- Tallies follow one another. -/
theorem Tallied.trans {x x' x'' : Reactor × Tally} {wc : Wc} {wcs : List Wc}
    (h : Tallied x x' [wc]) (h' : Tallied x' x'' wcs) : Tallied x x'' (wc :: wcs) where
  credits := h'.credits.trans h.credits
  recvs := by rw [h'.recvs, h.recvs, countP_cons_first _ wc wcs, Nat.add_assoc]
  writes := by rw [h'.writes, h.writes, countP_cons_first _ wc wcs, Nat.add_assoc]
  acks := by rw [h'.acks, h.acks, countP_cons_first _ wc wcs, Nat.add_assoc]

/-- Handling a completion counts it. -/
theorem handleCompletion_tallied {x x' : Reactor × Tally} {wc : Wc} {cs : List Call}
    (hop : Device.opcodeMatches wc = true) (h : handleCompletion x wc cs = .returns x') :
    Tallied x x' [wc] := by
  obtain ⟨s, tally⟩ := x
  simp only [handleCompletion] at h
  by_cases hqp : wc.qpNum ∉ s.queuePairEventHandler
  · rw [if_pos hqp] at h
    exact nomatch h
  rw [if_neg hqp] at h
  by_cases hstatus : wc.status ≠ .WC_SUCCESS
  · rw [if_pos hstatus] at h
    cases h
    have hfailed : wc.succeeded = false := beq_false_of_ne hstatus
    refine ⟨invoke_credits _ _ _ _, ?_, ?_, ?_⟩
    all_goals
      rw [List.countP_singleton, hfailed, Bool.and_false]
      rfl
  · rw [if_neg hstatus] at h
    have hsucceeded : wc.succeeded = true := beq_iff_eq.mpr (not_not.mp hstatus)
    rw [Device.opcodeMatches, if_neg hstatus] at hop
    by_cases hwrite : wc.wrId = kWriteRequestId
    · rw [if_pos hwrite, decide_eq_true_iff] at hop
      simp only [hop] at h
      cases h
      refine ⟨invoke_credits _ _ _ _, ?_, ?_, ?_⟩
      all_goals
        simp only [List.countP_singleton, hsucceeded, Wc.isRecv, Wc.isWrite, Wc.isAck, hwrite]
        rfl
    rw [if_neg hwrite] at hop
    by_cases hack : wc.wrId = kAckRequestId
    · rw [if_pos hack, decide_eq_true_iff] at hop
      simp only [hop] at h
      cases h
      refine ⟨invoke_credits _ _ _ _, ?_, ?_, ?_⟩
      all_goals
        simp only [List.countP_singleton, hsucceeded, Wc.isRecv, Wc.isWrite, Wc.isAck, hack]
        rfl
    · rw [if_neg hack, decide_eq_true_iff] at hop
      have hnoWrite : wc.isWrite = false := beq_false_of_ne hwrite
      have hnoAck : wc.isAck = false := beq_false_of_ne hack
      -- Both kinds of receive completions need the immediate and count the same.
      rcases hop with hop | hop
      all_goals
        simp only [hop] at h
        by_cases himm : wc.withImm = false
        · rw [if_pos himm] at h
          exact nomatch h
        rw [if_neg himm] at h
        cases h
        refine ⟨invoke_credits _ _ _ _, ?_, ?_, ?_⟩
        all_goals
          simp only [List.countP_singleton, hsucceeded, Wc.isRecv, hnoWrite, hnoAck]
          rfl

/-- Handling completions counts them. -/
theorem handleCompletions_tallied (batch : List (Wc × List Call)) :
    ∀ {x x' : Reactor × Tally}, (∀ wc ∈ batch.map Prod.fst, Device.opcodeMatches wc = true) →
      handleCompletions batch x = .returns x' → Tallied x x' (batch.map Prod.fst) := by
  induction batch with
  | nil =>
      intro x x' _ h
      cases h
      exact ⟨rfl, rfl, rfl, rfl⟩
  | cons entry rest ih =>
      obtain ⟨wc, cs⟩ := entry
      intro x x' hops h
      rw [handleCompletions] at h
      cases hfirst : handleCompletion x wc cs with
      | throws y =>
          rw [hfirst] at h
          exact nomatch h
      | returns y =>
          rw [hfirst] at h
          exact (handleCompletion_tallied (hops wc (List.mem_cons_self ..)) hfirst).trans
            (ih (fun wc' hmem => hops wc' (List.mem_cons_of_mem _ hmem)) h)

/-- The loop posts as many receive requests as it is told to. -/
theorem postRecvLoop_eq (fuel : Nat) :
    ∀ (num : Nat) (s : Reactor), num ≤ fuel → postRecvLoop fuel num s =
      { s with device := { s.device with recvsPosted := s.device.recvsPosted + num } } := by
  induction fuel with
  | zero =>
      intro num s hnum
      rw [Nat.le_zero.mp hnum]
      rfl
  | succ fuel ih =>
      intro num s hnum
      rw [postRecvLoop]
      by_cases hpos : 0 < num
      · have hchain : 0 < Nat.min num kNumPolledWorkCompletions :=
          Nat.lt_min.mpr ⟨hpos, Nat.zero_lt_succ 31⟩
        have hle : Nat.min num kNumPolledWorkCompletions ≤ num := Nat.min_le_left _ _
        rw [if_pos hpos, ih _ _ (by omega)]
        simp only [Nat.add_assoc, Nat.add_sub_cancel' hle]
      · rw [if_neg hpos, Nat.eq_zero_of_not_pos hpos]
        rfl

/-- What each round of the loop leaves alone, the loop leaves alone. -/
theorem drainWrites_keeps {β : Type} (f : Reactor → β)
    (hround : ∀ (s : Reactor) (qpNum : UInt32) (info : WriteInfo) (rest : List (UInt32 × WriteInfo)),
      s.pendingQpWrites = (qpNum, info) :: rest → 0 < s.numAvailableWrites →
      f { s.postWrite qpNum info with
        pendingQpWrites := (s.postWrite qpNum info).pendingQpWrites.tail } = f s)
    (fuel : Nat) (s : Reactor) : f (drainWrites fuel s) = f s := by
  fun_induction drainWrites fuel s with
  | case1 s => rfl
  | case2 fuel s hpending => rfl
  | case3 fuel s qpNum info rest hpending havail s' ih =>
      exact ih.trans (hround s qpNum info rest hpending havail)
  | case4 fuel s qpNum info rest hpending havail => rfl

/-- The loop keeps what each of its rounds keeps. -/
theorem drainAcks_keeps {β : Type} (f : Reactor → β)
    (hround : ∀ (s : Reactor) (qpNum : UInt32) (info : AckInfo) (rest : List (UInt32 × AckInfo)),
      s.pendingQpAcks = (qpNum, info) :: rest → 0 < s.numAvailableAcks →
      f { s.postAck qpNum info with
        pendingQpAcks := (s.postAck qpNum info).pendingQpAcks.tail } = f s)
    (fuel : Nat) (s : Reactor) : f (drainAcks fuel s) = f s := by
  fun_induction drainAcks fuel s with
  | case1 s => rfl
  | case2 fuel s hpending => rfl
  | case3 fuel s qpNum info rest hpending havail s' ih =>
      exact ih.trans (hround s qpNum info rest hpending havail)
  | case4 fuel s qpNum info rest hpending havail => rfl

/-- Handing over the writes only moves credits. -/
theorem drainWrites_credits (fuel : Nat) (s : Reactor) :
    (drainWrites fuel s).credits = s.credits :=
  drainWrites_keeps credits (fun s qpNum info _ _ _ => postWrite_credits s qpNum info) fuel s

/-- Handing over the acknowledgements only moves credits. -/
theorem drainAcks_credits (fuel : Nat) (s : Reactor) : (drainAcks fuel s).credits = s.credits :=
  drainAcks_keeps credits (fun s qpNum info _ _ _ => postAck_credits s qpNum info) fuel s

/-- The end of a poll returns the credits of the tally and posts one receive request
    for each one in it. -/
theorem settle_credits (s : Reactor) (tally : Tally) :
    (s.settle tally).credits =
      { writes := s.credits.writes + tally.numWrites
        acks := s.credits.acks + tally.numAcks
        recvsPosted := s.credits.recvsPosted + tally.numRecvs
        recvsPolled := s.credits.recvsPolled } := by
  rw [settle]
  simp only
  rw [drainAcks_credits]
  -- The acks returned in between change that one field and nothing else.
  have hacks : ∀ t : Reactor,
      credits { t with numAvailableAcks := t.numAvailableAcks + tally.numAcks }
        = { t.credits with acks := t.credits.acks + tally.numAcks } := by
    intro t
    ext
    · rfl
    · exact Nat.add_right_comm _ _ _
    · rfl
    · rfl
  rw [hacks, drainWrites_credits, postRecvRequestsOnSRQ, postRecvLoop_eq _ _ _ (Nat.le_refl _)]
  ext
  · exact Nat.add_right_comm _ _ _
  · rfl
  · rfl
  · rfl

-- ── The account ──────────────────────────────────────────────────────────────

/-- Every credit is available, with the device, or was lost with a failed completion;
    every completed receive request was replaced, or its completion failed. -/
structure Accounted (s : Reactor) (polled : List Wc) : Prop where
  writes : s.credits.writes + polled.countP (fun wc => wc.isWrite && !wc.succeeded)
    = kNumPendingWriteReqs
  acks : s.credits.acks + polled.countP (fun wc => wc.isAck && !wc.succeeded)
    = kNumPendingAckReqs
  recvs : s.credits.recvsPosted + polled.countP (fun wc => wc.isRecv && !wc.succeeded)
    = kNumPendingRecvReqs + s.credits.recvsPolled

/-- A new reactor has posted all receive requests and nothing else. -/
theorem make_eq : make = { device := { recvsPosted := kNumPendingRecvReqs } } := by
  rw [make, postRecvRequestsOnSRQ, postRecvLoop_eq _ _ _ (Nat.le_refl _)]
  rfl

/-- A new reactor has all credits. -/
theorem accounted_make : Accounted make [] := by
  rw [make_eq]
  exact ⟨rfl, rfl, rfl⟩

/-- A call of a connection keeps the account of the credits. -/
theorem accounted_call {s : Reactor} {polled : List Wc} (h : Accounted s polled) (c : Call) :
    Accounted (s.call c) polled where
  writes := by rw [call_credits]; exact h.writes
  acks := by rw [call_credits]; exact h.acks
  recvs := by rw [call_credits]; exact h.recvs

/-- A poll loses exactly what its failed completions held. -/
theorem accounted_poll {s s' : Reactor} {polled : List Wc} {device' : Device}
    (h : Accounted s polled) {batch : List (Wc × List Call)}
    (hpoll : s.device.pollCq (batch.map Prod.fst) = some device')
    (hstep : pollOnce { s with device := device' } batch = .returns s') :
    Accounted s' (polled ++ batch.map Prod.fst) := by
  have hdevice := Device.pollCq_polled _ hpoll
  cases batch with
  | nil =>
      cases hstep
      cases hpoll
      rw [List.map_nil, List.append_nil]
      exact h
  | cons entry rest =>
      simp only [pollOnce] at hstep
      cases hbatch : handleCompletions (entry :: rest) ({ s with device := device' }, {}) with
      | throws x =>
          rw [hbatch] at hstep
          exact nomatch hstep
      | returns x =>
          rw [hbatch] at hstep
          cases hstep
          have htally := handleCompletions_tallied _ hdevice.opcodes hbatch
          have hcredits := htally.credits
          have hsettle := settle_credits x.1 x.2
          rw [hcredits] at hsettle
          constructor
          · have hw := h.writes
            have hsplit := countP_outcome Wc.isWrite ((entry :: rest).map Prod.fst)
            have hd := hdevice.writes
            have ht : x.2.numWrites = 0 + _ := htally.writes
            rw [hsettle, List.countP_append]
            simp only [credits] at hw ⊢
            omega
          · have hw := h.acks
            have hsplit := countP_outcome Wc.isAck ((entry :: rest).map Prod.fst)
            have hd := hdevice.acks
            have ht : x.2.numAcks = 0 + _ := htally.acks
            rw [hsettle, List.countP_append]
            simp only [credits] at hw ⊢
            omega
          · have hw := h.recvs
            have hsplit := countP_outcome Wc.isRecv ((entry :: rest).map Prod.fst)
            have hd := hdevice.polled
            have hposted := hdevice.posted
            have ht : x.2.numRecvs = 0 + _ := htally.recvs
            rw [hsettle, List.countP_append]
            simp only [credits] at hw ⊢
            omega

/-- Every reactor that can be reached has the credits of what has completed. -/
theorem accounted_of_reachable {s : Reactor} {polled : List Wc} (h : Reachable s polled) :
    Accounted s polled := by
  induction h with
  | make => exact accounted_make
  | call _ c ih => exact accounted_call ih c
  | poll _ batch _ hpoll hstep ih => exact accounted_poll ih hpoll hstep

-- ── Conservation ─────────────────────────────────────────────────────────────

/-- Nothing is lost: the credits that are not available are with the device, and each
    completed receive request was replaced by a new one. -/
structure Conserved (s : Reactor) : Prop where
  writes : s.numAvailableWrites + s.device.outstanding kWriteRequestId = kNumPendingWriteReqs
  acks : s.numAvailableAcks + s.device.outstanding kAckRequestId = kNumPendingAckReqs
  recvs : s.device.recvsPosted = kNumPendingRecvReqs + s.device.recvsPolled

/-- In every state between two polls the credits are conserved if and only if no
    completion polled so far has failed. -/
theorem credits_conserved_iff {s : Reactor} {polled : List Wc} (h : Reachable s polled) :
    Conserved s ↔ ∀ wc ∈ polled, wc.status = .WC_SUCCESS := by
  have haccount := accounted_of_reachable h
  have hwrites := haccount.writes
  have hacks := haccount.acks
  have hrecvs := haccount.recvs
  simp only [credits] at hwrites hacks hrecvs
  constructor
  · intro hconserved wc hmem
    have hw := hconserved.writes
    have ha := hconserved.acks
    have hr := hconserved.recvs
    have hnone : ∀ kind : Wc → Bool, kind wc = true →
        polled.countP (fun wc => kind wc && !wc.succeeded) = 0 → wc.status = .WC_SUCCESS := by
      intro kind hkind hzero
      have hnot := List.countP_eq_zero.mp hzero wc hmem
      rw [hkind, Bool.true_and, Bool.not_eq_true', Bool.not_eq_false] at hnot
      exact beq_iff_eq.mp hnot
    by_cases hwrite : wc.isWrite = true
    · exact hnone Wc.isWrite hwrite (by omega)
    by_cases hack : wc.isAck = true
    · exact hnone Wc.isAck hack (by omega)
    · refine hnone Wc.isRecv ?_ (by omega)
      rw [Wc.isRecv, Bool.eq_false_iff.mpr hwrite, Bool.eq_false_iff.mpr hack]
      rfl
  · intro hall
    have hzero : ∀ kind : Wc → Bool, polled.countP (fun wc => kind wc && !wc.succeeded) = 0 := by
      intro kind
      refine List.countP_eq_zero.mpr (fun wc hmem => ?_)
      have hsucceeded : wc.succeeded = true := beq_iff_eq.mpr (hall wc hmem)
      rw [hsucceeded, Bool.not_true, Bool.and_false]
      exact Bool.false_ne_true
    rw [hzero] at hwrites hacks hrecvs
    exact ⟨hwrites, hacks, hrecvs⟩

/-- The completion of an RDMA write of queue pair 7. -/
def writeWc (status : WcStatus) : Wc :=
  { wrId := kWriteRequestId, qpNum := 7, status, opcode := .WC_RDMA_WRITE,
    withImm := false, immData := 0 }

/-- One write on queue pair 7, whose handler writes again when the first write completes. -/
theorem reachable_writeWc (status : WcStatus) :
    ∃ s, Reachable s [writeWc status] := by
  let info : WriteInfo := ⟨0, 8, 0, 0, 0⟩
  have hposted := ((Reachable.make.call (.registerQp 7)).call (.postWrite 7 info))
  rw [make_eq] at hposted
  cases status with
  | WC_SUCCESS =>
      exact ⟨_, hposted.poll [(writeWc .WC_SUCCESS, [.postWrite 7 info])]
        (Nat.succ_le_succ (Nat.zero_le _)) rfl rfl⟩
  | error code =>
      exact ⟨_, hposted.poll [(writeWc (.error code), [])]
        (Nat.succ_le_succ (Nat.zero_le _)) rfl rfl⟩

theorem credits_conserved_iff_written :
    ∃ s, Reachable s [writeWc .WC_SUCCESS] ∧ Conserved s := by
  obtain ⟨s, hreach⟩ := reachable_writeWc .WC_SUCCESS
  refine ⟨s, hreach, (credits_conserved_iff hreach).mpr (fun wc hmem => ?_)⟩
  rw [List.mem_singleton.mp hmem]
  rfl

/-- A write that the device flushes with an error never gives its credit back. -/
theorem flushed_write_loses_credit :
    ¬ ∀ (s : Reactor) (polled : List Wc), Reachable s polled → Conserved s := by
  intro hall
  obtain ⟨s, hreach⟩ := reachable_writeWc (.error 5)
  have hconserved := hall s _ hreach
  have haccount : s.numAvailableWrites + s.device.outstanding kWriteRequestId + 1
      = kNumPendingWriteReqs := (accounted_of_reachable hreach).writes
  have hwrites := hconserved.writes
  omega

end Reactor

end TpIbv
