import Tensorpipe.PipeReadInvariantProofs
import Tensorpipe.PipeWriteProofs

/-! # The invariant of the writing half

    The writing half has one cursor and one log, so its invariant is shorter than
    `ReadInv`: the queue against the outstanding calls (`WriteQueue`), the cursor
    of the callbacks, the debug checks, and the callbacks invoked so far
    (`WriteLog`).  A task that throws leaves `WriteSafe`. -/

namespace TpPipe

open TpStateMachine TpMessage TpSelect

namespace WriteSide

variable (w : WriteSide) (calls : List WriteCall)

/-- What is issued is pending and noted; the rest of the side stays. -/
@[simp] theorem issue_pending : (w.issue calls).pending = w.pending ++ calls := rfl
@[simp] theorem issue_issued : (w.issue calls).issued = w.issued ++ calls := rfl
@[simp] theorem issue_called : (w.issue calls).called = w.called := rfl
@[simp] theorem issue_dchecks : (w.issue calls).dchecks = w.dchecks := rfl
@[simp] theorem issue_issue (calls' : List WriteCall) :
    (w.issue calls).issue calls' = w.issue (calls ++ calls') := by
  simp [issue, List.append_assoc]

/-- A check that passes leaves no trace. -/
theorem dcheck_true {b : Bool} (h : b = true) : w.dcheck b = w := by
  rw [dcheck, h, Bool.and_true]

end WriteSide

-- ── The queue ────────────────────────────────────────────────────────────────

/-- An operation is no further than its predecessor. -/
def WriteFollows (p : WriteState) (op : WriteOperation) : Prop := op.state.rank ≤ p.rank

/-- The operations whose state is below a given rank. -/
def writeBelow (k : Nat) (ops : List WriteOperation) : Nat :=
  ops.countP (fun op => decide (op.state.rank < k))

/-- What one operation contributes below a rank. -/
def writeUnit (k : Nat) (st : WriteState) : Nat := if st.rank < k then 1 else 0

/-- Replacing an operation changes the count by its own share. -/
theorem writeBelow_replace (k : Nat) (pre post : List WriteOperation)
    (op op' : WriteOperation) :
    writeBelow k (pre ++ op' :: post) + writeUnit k op.state
      = writeBelow k (pre ++ op :: post) + writeUnit k op'.state := by
  have h := countP_set (fun o : WriteOperation => decide (o.state.rank < k)) pre post op op'
  simpa [writeBelow, writeUnit] using h

/-- The flags and counters of one operation against the outstanding calls. -/
structure WriteLocal (g : Gate) (pending : List WriteCall) (op : WriteOperation) :
    Prop where
  replyRead : pending.countP (WriteCall.isDescriptorReply op.sequenceNumber)
    = if op.state = .writingPayloadsAndReadingTargetDevices
        ∧ op.doneReadingDescriptorReply = false then 1 else 0
  payloadWrites : pending.countP (WriteCall.isPayload op.sequenceNumber)
    = op.numPayloadsBeingWritten
  tensorSends : pending.countP (WriteCall.isTensor op.sequenceNumber)
    = op.numTensorsBeingSent
  unwritten : op.state = .uninitialized ∨ op.state = .finished →
    op.numPayloadsBeingWritten = 0
  unsent : op.state ≠ .writingPayloadsAndSendingTensors → op.numTensorsBeingSent = 0
  fresh : op.state = .uninitialized → op.doneReadingDescriptorReply = false
  missing : op.hasMissingTargetDevices = messageHasMissingTargetDevices op.message
  length : op.tensors.length = op.message.tensors.length
  asked : op.doneReadingDescriptorReply = false →
    op.tensors = tensorsOfMessage op.message
  answered : g.error = none → op.doneReadingDescriptorReply = true →
    ∀ sent ∈ op.tensors, sent.targetDevice.isSome = true

/-- Two lists of outstanding calls agree on one message. -/
structure SameWriteCalls (n : Nat) (pending pending' : List WriteCall) : Prop where
  reply : pending'.countP (WriteCall.isDescriptorReply n)
    = pending.countP (WriteCall.isDescriptorReply n)
  payload : pending'.countP (WriteCall.isPayload n) = pending.countP (WriteCall.isPayload n)
  tensor : pending'.countP (WriteCall.isTensor n) = pending.countP (WriteCall.isTensor n)

/-- An operation depends on the calls about its own message. -/
theorem WriteLocal.same {g : Gate} {pending pending' : List WriteCall}
    {op : WriteOperation} (h : WriteLocal g pending op)
    (hs : SameWriteCalls op.sequenceNumber pending pending') : WriteLocal g pending' op :=
  { h with
    replyRead := hs.reply.trans h.replyRead
    payloadWrites := hs.payload.trans h.payloadWrites
    tensorSends := hs.tensor.trans h.tensorSends }

/-- What is counted for an operation is captured by it. -/
theorem WriteCall.captures_of_counted {c : WriteCall} {n : Nat}
    (h : c.isDescriptorReply n = true ∨ c.isPayload n = true ∨ c.isTensor n = true) :
    c.captures = some n := by
  cases c <;>
    simp_all [WriteCall.captures, WriteCall.isDescriptorReply, WriteCall.isPayload,
      WriteCall.isTensor]

/-- The message of a call that is counted. -/
theorem WriteCall.message_of_counted {c : WriteCall} {n : Nat}
    (h : c.isDescriptorReply n = true ∨ c.isPayload n = true ∨ c.isTensor n = true) :
    c.message = n := by
  cases c <;>
    simp_all [WriteCall.message, WriteCall.isDescriptorReply, WriteCall.isPayload,
      WriteCall.isTensor]

/-- Calls about other messages are none of this one. -/
theorem sameWriteCalls_issue {n : Nat} {pending calls : List WriteCall}
    (h : ∀ c ∈ calls, c.message ≠ n) : SameWriteCalls n pending (pending ++ calls) := by
  have hzero : ∀ q : WriteCall → Bool, (∀ c, q c = true → c.message = n) →
      calls.countP q = 0 :=
    fun q hq => List.countP_eq_zero.mpr (fun c hc hqc => h c hc (hq c hqc))
  constructor
  · rw [List.countP_append, hzero _ (fun _ hc =>
      WriteCall.message_of_counted (Or.inl hc)), Nat.add_zero]
  · rw [List.countP_append, hzero _ (fun _ hc =>
      WriteCall.message_of_counted (Or.inr (Or.inl hc))), Nat.add_zero]
  · rw [List.countP_append, hzero _ (fun _ hc =>
      WriteCall.message_of_counted (Or.inr (Or.inr hc))), Nat.add_zero]

/-- The report of a call about another message is none of this one. -/
theorem sameWriteCalls_erase {n : Nat} {pending : List WriteCall} {c : WriteCall}
    (h : c.message ≠ n) : SameWriteCalls n pending (pending.erase c) where
  reply := countP_erase_of_not (Bool.eq_false_iff.mpr (fun hc =>
    h (WriteCall.message_of_counted (Or.inl hc))))
  payload := countP_erase_of_not (Bool.eq_false_iff.mpr (fun hc =>
    h (WriteCall.message_of_counted (Or.inr (Or.inl hc)))))
  tensor := countP_erase_of_not (Bool.eq_false_iff.mpr (fun hc =>
    h (WriteCall.message_of_counted (Or.inr (Or.inr hc)))))

/-- The deque, against the number of the next operation and the outstanding calls. -/
structure WriteQueue (g : Gate) (next : Nat) (pending : List WriteCall)
    (ops : List WriteOperation) : Prop where
  numbered : Numbered next ops
  chained : Chained WriteFollows .finished ops
  locals : ∀ op ∈ ops, WriteLocal g pending op
  captured : ∀ call ∈ pending, ∀ n, call.captures = some n →
    ∃ op ∈ ops, op.sequenceNumber = n

namespace WriteQueue

variable {g : Gate} {next : Nat} {pending pending' : List WriteCall}
  {pre post ops : List WriteOperation} {op op' : WriteOperation}

/-- Rewriting one operation and the outstanding calls of its message. -/
theorem replace (h : WriteQueue g next pending (pre ++ op :: post))
    (hseq : op'.sequenceNumber = op.sequenceNumber)
    (hrank : op.state.rank ≤ op'.state.rank)
    (hfol : op'.state.rank ≤ (lastState WriteState.finished pre).rank)
    (hother : ∀ n, n ≠ op.sequenceNumber → SameWriteCalls n pending pending')
    (hsub : ∀ c ∈ pending', c ∈ pending ∨ c.message = op.sequenceNumber)
    (hlocal : WriteLocal g pending' op') :
    WriteQueue g next pending' (pre ++ op' :: post) where
  numbered := numbered_set h.numbered hseq
  chained := chained_set h.chained hfol (fun _ ho => Nat.le_trans ho hrank)
  locals := by
    intro o ho
    rcases List.mem_append.mp ho with hpre | hmid
    · exact (h.locals o (by simp [hpre])).same
        (hother _ (numbered_ne h.numbered (Or.inl hpre)))
    · rcases List.mem_cons.mp hmid with rfl | hpost
      · exact hlocal
      · exact (h.locals o (by simp [hpost])).same
          (hother _ (numbered_ne h.numbered (Or.inr hpost)))
  captured := by
    intro c hc n hn
    have hback : ∃ o ∈ pre ++ op :: post, o.sequenceNumber = n := by
      rcases hsub c hc with hold | hnew
      · exact h.captured c hold n hn
      · refine ⟨op, by simp, ?_⟩
        cases c <;> simp_all [WriteCall.captures, WriteCall.message]
    obtain ⟨o, ho, rfl⟩ := hback
    rcases List.mem_append.mp ho with hpre | hmid
    · exact ⟨o, by simp [hpre], rfl⟩
    · rcases List.mem_cons.mp hmid with rfl | hpost
      · exact ⟨op', by simp, hseq⟩
      · exact ⟨o, by simp [hpost], rfl⟩

/-- A finished operation has no call left, so it may go. -/
theorem no_call_of_finished (h : WriteLocal g pending op) (hfin : op.state = .finished)
    {c : WriteCall} (hc : c ∈ pending) : c.captures ≠ some op.sequenceNumber := by
  have hr := h.replyRead
  rw [if_neg (by rw [hfin]; simp)] at hr
  have hp := h.payloadWrites
  rw [h.unwritten (Or.inr hfin)] at hp
  have ht := h.tensorSends
  rw [h.unsent (by rw [hfin]; simp)] at ht
  have h1 := List.countP_eq_zero.mp hr c hc
  have h2 := List.countP_eq_zero.mp hp c hc
  have h3 := List.countP_eq_zero.mp ht c hc
  intro hcap
  cases c <;>
    simp_all [WriteCall.captures, WriteCall.isDescriptorReply, WriteCall.isPayload,
      WriteCall.isTensor]

/-- A finished operation at the front may be popped. -/
theorem pop (h : WriteQueue g next pending (op :: ops)) (hfin : op.state = .finished) :
    WriteQueue g next pending ops where
  numbered := h.numbered.2
  chained := by
    have h2 := h.chained.2
    rwa [show Operation.state op = WriteState.finished from hfin] at h2
  locals := fun o ho => h.locals o (by simp [ho])
  captured := by
    intro c hc n hn
    obtain ⟨o, ho, rfl⟩ := h.captured c hc n hn
    rcases List.mem_cons.mp ho with rfl | hmem
    · exact absurd hn (no_call_of_finished (h.locals o (by simp)) hfin hc)
    · exact ⟨o, hmem, rfl⟩

/-- A new operation may be pushed at the back. -/
theorem push (h : WriteQueue g next pending ops) (message : Message) :
    WriteQueue g (next + 1) pending (ops ++ [newWriteOperation next message]) := by
  have hfresh : ∀ c ∈ pending, c.captures ≠ some next := by
    intro c hc hcap
    obtain ⟨o, ho, hseq⟩ := h.captured c hc next hcap
    obtain ⟨a, b, rfl⟩ := List.append_of_mem ho
    have hlt : o.sequenceNumber + b.length + 1 = next := numbered_mid h.numbered
    omega
  have hlocal : WriteLocal g pending (newWriteOperation next message) := {
    replyRead := List.countP_eq_zero.mpr (fun c hc hq =>
      hfresh c hc (WriteCall.captures_of_counted (Or.inl hq)))
    payloadWrites := List.countP_eq_zero.mpr (fun c hc hq =>
      hfresh c hc (WriteCall.captures_of_counted (Or.inr (Or.inl hq))))
    tensorSends := List.countP_eq_zero.mpr (fun c hc hq =>
      hfresh c hc (WriteCall.captures_of_counted (Or.inr (Or.inr hq))))
    unwritten := fun _ => rfl
    unsent := fun _ => rfl
    fresh := fun _ => rfl
    missing := rfl
    length := by simp [newWriteOperation, tensorsOfMessage]
    asked := fun _ => rfl
    answered := fun _ hx => nomatch hx }
  constructor
  · exact numbered_snoc h.numbered rfl
  · exact chained_snoc h.chained (Nat.zero_le _)
  · intro o ho
    rcases List.mem_append.mp ho with hold | hnew
    · exact h.locals o hold
    · obtain rfl := List.mem_singleton.mp hnew
      exact hlocal
  · intro c hc n hn
    obtain ⟨o, ho, hseq⟩ := h.captured c hc n hn
    exact ⟨o, by simp [ho], hseq⟩

/-- The cursor of a threshold stands at the operation about to cross it. -/
theorem cursor (h : WriteQueue g next pending (pre ++ op :: post)) {k : Nat}
    (hprev : k ≤ (lastState WriteState.finished pre).rank) (hop : op.state.rank < k) :
    op.sequenceNumber + writeBelow k (pre ++ op :: post) = next := by
  have hbelow : writeBelow k (pre ++ op :: post) = post.length + 1 :=
    countP_below (fun _ _ hf => hf) h.chained (fun _ => hprev) hop
  have hmid : op.sequenceNumber + post.length + 1 = next := numbered_mid h.numbered
  rw [hbelow]
  exact hmid

end WriteQueue

/-- The callbacks invoked so far: in order, and no buffer released while in use. -/
structure WriteLog (w : WriteSide) : Prop where
  writesCalled : w.called.map WriteCallback.number = List.range w.nextWriteCallbackToCall
  released : ∀ cb ∈ w.called, ∀ c ∈ cb.outstanding,
    c.isPayload cb.number = false ∧ c.isTensor cb.number = false

/-- **The invariant of the writing half.** -/
structure WriteInv (g : Gate) (w : WriteSide) (ops : List WriteOperation) : Prop where
  queue : WriteQueue g w.nextMessageBeingWritten w.pending ops
  cursor : w.nextWriteCallbackToCall + writeBelow 3 ops = w.nextMessageBeingWritten
  dchecks : w.dchecks = true
  log : WriteLog w

/-- What is left after a task that threw. -/
structure WriteSafe (w : WriteSide) (ops : List WriteOperation) : Prop where
  captured : ∀ call ∈ w.pending, ∀ n, call.captures = some n →
    ∃ op ∈ ops, op.sequenceNumber = n ∧ op.state ≠ .finished
  dchecks : w.dchecks = true
  log : WriteLog w

/-- The invariant contains what the callbacks rely on. -/
theorem WriteInv.safe {g : Gate} {w : WriteSide} {ops : List WriteOperation}
    (h : WriteInv g w ops) : WriteSafe w ops where
  captured := by
    intro c hc n hn
    obtain ⟨o, ho, rfl⟩ := h.queue.captured c hc n hn
    refine ⟨o, ho, rfl, ?_⟩
    intro hfin
    exact WriteQueue.no_call_of_finished (h.queue.locals o ho) hfin hc hn
  dchecks := h.dchecks
  log := h.log

/-- An error only takes obligations away. -/
theorem WriteInv.gate {g g' : Gate} {w : WriteSide} {ops : List WriteOperation}
    (h : WriteInv g w ops) (hg : g'.error = none → g.error = none) : WriteInv g' w ops :=
  { h with
    queue := { h.queue with
      locals := fun o ho =>
        { h.queue.locals o ho with
          answered := fun he => (h.queue.locals o ho).answered (hg he) } } }

-- ── Firing a transition ──────────────────────────────────────────────────────

section Fire

variable {g : Gate} {w : WriteSide} {pre post : List WriteOperation} {op : WriteOperation}

/-- The write callback, on the three ways to the end.  No call of this message is
    outstanding there. -/
theorem writeInv_finish (h : WriteInv g w (pre ++ op :: post))
    (hst : op.state ≠ .finished)
    (hreply : ¬ (op.state = .writingPayloadsAndReadingTargetDevices
      ∧ op.doneReadingDescriptorReply = false))
    (hpayloads : op.numPayloadsBeingWritten = 0) (htensors : op.numTensorsBeingSent = 0)
    (hprev : 3 ≤ (lastState WriteState.finished pre).rank) :
    (runActions [callWriteCallback g] (w, op)).Post
      (fun y => WriteInv g y.1 (pre ++ withState y.2 WriteState.finished :: post))
      (fun y => WriteSafe y.1 (pre ++ y.2 :: post)) := by
  have hloc := h.queue.locals op (by simp)
  have hlow : op.state.rank < 3 := by
    cases hs : op.state <;> first | exact absurd hs hst | decide
  have hcur := h.queue.cursor hprev hlow
  have hcb := h.cursor
  have hseq : op.sequenceNumber = w.nextWriteCallbackToCall := by omega
  show WriteInv g
    { w.dcheck (op.sequenceNumber == w.nextWriteCallbackToCall) with
        nextWriteCallbackToCall := w.nextWriteCallbackToCall + 1
        called := w.called ++ [⟨op.sequenceNumber, g.error,
          (w.dcheck (op.sequenceNumber == w.nextWriteCallbackToCall)).pending⟩] }
    (pre ++ { op with state := .finished } :: post)
  rw [WriteSide.dcheck_true _ (by simpa using hseq)]
  refine ⟨?_, ?_, h.dchecks, ?_⟩
  · refine h.queue.replace rfl (Nat.le_of_lt hlow) hprev (fun _ _ => ⟨rfl, rfl, rfl⟩)
      (fun _ hc => Or.inl hc) ?_
    have hr := hloc.replyRead
    rw [if_neg hreply] at hr
    exact { hloc with
      replyRead := by rw [if_neg (by simp)]; exact hr
      unwritten := fun _ => hpayloads
      unsent := fun _ => htensors
      fresh := fun hu => nomatch hu }
  · have hb := writeBelow_replace 3 pre post op { op with state := .finished }
    have h1 : writeUnit 3 op.state = 1 := if_pos hlow
    have h0 : writeUnit 3 WriteState.finished = 0 := rfl
    simp only [h1, h0] at hb
    show w.nextWriteCallbackToCall + 1 + _ = w.nextMessageBeingWritten
    omega
  · constructor
    · show (w.called ++ [_]).map _ = List.range (_ + 1)
      rw [List.map_append, h.log.writesCalled, List.range_succ, ← hseq]
      rfl
    · intro cb hcb'
      rcases List.mem_append.mp hcb' with hold | hnew
      · exact h.log.released cb hold
      · obtain rfl := List.mem_singleton.mp hnew
        have hp := hloc.payloadWrites
        have ht := hloc.tensorSends
        rw [hpayloads] at hp
        rw [htensors] at ht
        intro c hc
        exact ⟨Bool.eq_false_iff.mpr (List.countP_eq_zero.mp hp c hc),
          Bool.eq_false_iff.mpr (List.countP_eq_zero.mp ht c hc)⟩

/-- The kinds among the calls that are handed out in one transition. -/
structure WriteCalls (n replies payloads tensors : Nat) (calls : List WriteCall) :
    Prop where
  message : ∀ c ∈ calls, c.message = n
  replies : calls.countP (WriteCall.isDescriptorReply n) = replies
  payloads : calls.countP (WriteCall.isPayload n) = payloads
  tensors : calls.countP (WriteCall.isTensor n) = tensors

/-- Calls that are counted together. -/
theorem WriteCalls.append {n r p t r' p' t' : Nat} {calls calls' : List WriteCall}
    (h : WriteCalls n r p t calls) (h' : WriteCalls n r' p' t' calls') :
    WriteCalls n (r + r') (p + p') (t + t') (calls ++ calls') where
  message := fun c hc => (List.mem_append.mp hc).elim (h.message c) (h'.message c)
  replies := by rw [List.countP_append, h.replies, h'.replies]
  payloads := by rw [List.countP_append, h.payloads, h'.payloads]
  tensors := by rw [List.countP_append, h.tensors, h'.tensors]

/-- A transition that hands calls to the connections and channels. -/
theorem writeInv_issue (h : WriteInv g w (pre ++ op :: post)) {calls : List WriteCall}
    {st : WriteState} {replies payloads tensors : Nat}
    (hcalls : WriteCalls op.sequenceNumber replies payloads tensors calls)
    (hrank : op.state.rank ≤ st.rank)
    (hst : 1 ≤ st.rank ∧ st.rank < 3)
    (hprev : st.rank ≤ (lastState WriteState.finished pre).rank)
    (hreply : (if op.state = .writingPayloadsAndReadingTargetDevices
          ∧ op.doneReadingDescriptorReply = false then 1 else 0) + replies
        = if st = .writingPayloadsAndReadingTargetDevices
          ∧ op.doneReadingDescriptorReply = false then 1 else 0)
    (hunsent : st ≠ .writingPayloadsAndSendingTensors →
      op.numTensorsBeingSent + tensors = 0) :
    WriteInv g (w.issue calls) (pre ++ { op with
      state := st
      numPayloadsBeingWritten := op.numPayloadsBeingWritten + payloads
      numTensorsBeingSent := op.numTensorsBeingSent + tensors } :: post) := by
  have hloc := h.queue.locals op (by simp)
  refine ⟨?_, ?_, h.dchecks, ⟨h.log.writesCalled, h.log.released⟩⟩
  · refine h.queue.replace rfl hrank hprev ?_ ?_ ?_
    · intro n hn
      refine sameWriteCalls_issue ?_
      intro c hc
      rw [hcalls.message c hc]
      exact Ne.symm hn
    · intro c hc
      rcases List.mem_append.mp hc with hold | hnew
      · exact Or.inl hold
      · exact Or.inr (hcalls.message c hnew)
    · exact { hloc with
        replyRead := by
          show (w.pending ++ calls).countP _ = _
          rw [List.countP_append, hloc.replyRead, ← hreply]
          exact congrArg _ hcalls.replies
        payloadWrites := by
          show (w.pending ++ calls).countP _ = _ + _
          rw [List.countP_append, hloc.payloadWrites]
          exact congrArg _ hcalls.payloads
        tensorSends := by
          show (w.pending ++ calls).countP _ = _ + _
          rw [List.countP_append, hloc.tensorSends]
          exact congrArg _ hcalls.tensors
        unwritten := by
          rintro (hu | hf)
          · rw [show st = .uninitialized from hu] at hst
            exact absurd hst.1 (by decide)
          · rw [show st = .finished from hf] at hst
            exact absurd hst.2 (by decide)
        unsent := hunsent
        fresh := by
          intro hu
          rw [show st = .uninitialized from hu] at hst
          exact absurd hst.1 (by decide) }
  · have hb := writeBelow_replace 3 pre post op { op with
      state := st
      numPayloadsBeingWritten := op.numPayloadsBeingWritten + payloads
      numTensorsBeingSent := op.numTensorsBeingSent + tensors }
    have h1 : writeUnit 3 op.state = 1 := if_pos (Nat.lt_of_le_of_lt hrank hst.2)
    have h2 : writeUnit 3 st = 1 := if_pos hst.2
    simp only [h1, h2] at hb
    have hcb := h.cursor
    show w.nextWriteCallbackToCall + _ = w.nextMessageBeingWritten
    omega

/-- The state left by a transition that threw after handing out some calls. -/
theorem writeSafe_issue (h : WriteInv g w (pre ++ op :: post)) (hst : op.state ≠ .finished)
    {calls : List WriteCall} (hcalls : ∀ c ∈ calls, c.message = op.sequenceNumber)
    {op' : WriteOperation} (hseq : op'.sequenceNumber = op.sequenceNumber)
    (hsame : op'.state = op.state) : WriteSafe (w.issue calls) (pre ++ op' :: post) := by
  refine ⟨?_, h.dchecks, ⟨h.log.writesCalled, h.log.released⟩⟩
  intro c hc n hn
  have hback : ∃ o ∈ pre ++ op :: post, o.sequenceNumber = n ∧ o.state ≠ .finished := by
    rcases List.mem_append.mp hc with hold | hnew
    · exact h.safe.captured c hold n hn
    · refine ⟨op, by simp, ?_, hst⟩
      have hcm := hcalls c hnew
      cases c <;> simp_all [WriteCall.captures, WriteCall.message]
  obtain ⟨o, ho, hn', hfin⟩ := hback
  rcases List.mem_append.mp ho with hpre | hmid
  · exact ⟨o, by simp [hpre], hn', hfin⟩
  · rcases List.mem_cons.mp hmid with rfl | hpost
    · exact ⟨op', by simp, hseq.trans hn', by rw [hsame]; exact hfin⟩
    · exact ⟨o, by simp [hpost], hn', hfin⟩

end Fire

-- ── Sending the tensors ──────────────────────────────────────────────────────

/-- The send of one tensor, when its device pair has a channel. -/
def tensorSend (g : Gate) (n : Nat) (p : (Message.Tensor × SentTensor) × Nat) : WriteCall :=
  .tensor ((p.1.2.targetDevice.bind (fun remoteDevice =>
      g.channelForDevicePair.lookup (p.1.2.sourceDevice, remoteDevice))).getD "")
    n p.2 p.1.1.buffer p.1.1.length

/-- The calls for the tensors of a message. -/
def tensorSends (g : Gate) (op : WriteOperation) : List WriteCall :=
  (op.message.tensors.zip op.tensors).zipIdx.map (tensorSend g op.sequenceNumber)

/-- The loop issues one call for each tensor. -/
theorem sendTensorsLoop_spec (g : Gate) :
    ∀ (l : List ((Message.Tensor × SentTensor) × Nat)) (w : WriteSide)
      (op : WriteOperation), (∀ p ∈ l, p.1.2.targetDevice.isSome = true) →
      (sendTensorsLoop g l w op).Post
        (fun y => y = (w.issue (l.map (tensorSend g op.sequenceNumber)),
          { op with numTensorsBeingSent := op.numTensorsBeingSent + l.length }))
        (fun y => ∃ sends, (∀ c ∈ sends, c.isTensor op.sequenceNumber = true) ∧
          y.1 = w.issue sends ∧ y.2.sequenceNumber = op.sequenceNumber
            ∧ y.2.state = op.state) := by
  intro l
  induction l with
  | nil =>
      intro w op _
      show (w, op) = (w.issue [], _)
      simp [WriteSide.issue]
  | cons p rest ih =>
      obtain ⟨⟨tensor, sent⟩, tensorIdx⟩ := p
      intro w op hall
      have hempty : ∃ sends : List WriteCall,
          (∀ c ∈ sends, c.isTensor op.sequenceNumber = true) ∧
          w = w.issue sends ∧ op.sequenceNumber = op.sequenceNumber
            ∧ op.state = op.state :=
        ⟨[], fun c hc => (nomatch hc), by simp [WriteSide.issue], rfl, rfl⟩
      rw [sendTensorsLoop]
      cases htarget : sent.targetDevice with
      | none =>
          have hsome := hall ((tensor, sent), tensorIdx) (by simp)
          rw [htarget] at hsome
          exact nomatch hsome
      | some remoteDevice =>
          dsimp only
          cases hch : g.channelForDevicePair.lookup (sent.sourceDevice, remoteDevice) with
          | none => exact hempty
          | some channelName =>
              dsimp only
              by_cases hhas : g.hasChannel channelName = false
              · rw [if_pos hhas]
                exact hempty
              · rw [if_neg hhas]
                refine (ih _ _ (fun p hp => hall p (by simp [hp]))).imp ?_ ?_
                · rintro y rfl
                  rw [WriteSide.issue_issue]
                  simp [tensorSend, htarget, hch, Nat.add_assoc, Nat.add_comm 1]
                · rintro y ⟨sends, hsends, hy1, hy2, hy3⟩
                  refine ⟨.tensor channelName op.sequenceNumber tensorIdx tensor.buffer
                    tensor.length :: sends, ?_, ?_, hy2, hy3⟩
                  · intro c hc
                    rcases List.mem_cons.mp hc with rfl | hmem
                    · simp [WriteCall.isTensor]
                    · exact hsends c hmem
                  · rw [hy1, WriteSide.issue_issue]
                    rfl

/-- The tensors of a message are sent in order. -/
theorem sendTensorsOfMessage_spec {g : Gate} (w : WriteSide) {op : WriteOperation}
    (hlen : op.tensors.length = op.message.tensors.length)
    (htargets : ∀ sent ∈ op.tensors, sent.targetDevice.isSome = true) :
    (sendTensorsOfMessage g w op).Post
      (fun y => y = (w.issue (tensorSends g op),
        { op with numTensorsBeingSent :=
          op.numTensorsBeingSent + (tensorSends g op).length }))
      (fun y => ∃ sends, (∀ c ∈ sends, c.isTensor op.sequenceNumber = true) ∧
        y.1 = w.issue sends ∧ y.2.sequenceNumber = op.sequenceNumber
          ∧ y.2.state = op.state) := by
  rw [sendTensorsOfMessage, WriteSide.dcheck_true _ (by simpa using hlen.symm)]
  refine (sendTensorsLoop_spec g _ w op ?_).imp ?_ (fun y hy => hy)
  · intro p hp
    have hmem : p.1 ∈ op.message.tensors.zip op.tensors := by
      have := List.mem_map_of_mem (f := Prod.fst) hp
      rwa [List.zipIdx_map_fst] at this
    exact htargets p.1.2 (List.of_mem_zip hmem).2
  · rintro y rfl
    simp [tensorSends]

/-- The writes of the payloads, counted. -/
theorem payloadWrites_calls (op : WriteOperation) :
    WriteCalls op.sequenceNumber 0 (payloadWrites op).length 0 (payloadWrites op) := by
  have hpay : ∀ c ∈ payloadWrites op, ∃ i d l, c = .payload op.sequenceNumber i d l := by
    intro c hc
    obtain ⟨p, -, rfl⟩ := List.mem_map.mp hc
    exact ⟨_, _, _, rfl⟩
  refine ⟨?_, List.countP_eq_zero.mpr ?_, List.countP_eq_length.mpr ?_,
    List.countP_eq_zero.mpr ?_⟩ <;> intro c hc <;> obtain ⟨i, d, l, rfl⟩ := hpay c hc <;>
    simp [WriteCall.message, WriteCall.isDescriptorReply, WriteCall.isPayload,
      WriteCall.isTensor]

/-- The calls for the tensors, counted. -/
theorem sends_calls {n : Nat} {sends : List WriteCall}
    (h : ∀ c ∈ sends, c.isTensor n = true) : WriteCalls n 0 0 sends.length sends := by
  refine ⟨?_, List.countP_eq_zero.mpr ?_, List.countP_eq_zero.mpr ?_,
    List.countP_eq_length.mpr h⟩ <;> intro c hc <;> have := h c hc <;>
    cases c <;>
    simp_all [WriteCall.message, WriteCall.isDescriptorReply, WriteCall.isPayload,
      WriteCall.isTensor]

/-- The calls for the tensors are just these. -/
theorem tensorSends_isTensor (g : Gate) (op : WriteOperation) :
    ∀ c ∈ tensorSends g op, c.isTensor op.sequenceNumber = true := by
  intro c hc
  obtain ⟨p, -, rfl⟩ := List.mem_map.mp hc
  simp [tensorSend, WriteCall.isTensor]

/-- The write of the descriptor is not counted. -/
theorem descriptor_calls (n : Nat) (d : Descriptor) : WriteCalls n 0 0 0 [.descriptor n d] :=
  ⟨fun c hc => by rw [List.mem_singleton.mp hc]; rfl, rfl, rfl, rfl⟩

/-- The read of the reply, counted. -/
theorem descriptorReply_calls (n : Nat) : WriteCalls n 1 0 0 [.descriptorReply n] :=
  ⟨fun c hc => by rw [List.mem_singleton.mp hc]; rfl, by simp [WriteCall.isDescriptorReply],
    rfl, rfl⟩

/-- The frames of a message on the descriptor connection. -/
def messageFrames (op : WriteOperation) : List WriteCall :=
  .descriptor op.sequenceNumber (makeDescriptorForMessage op.message) :: payloadWrites op

/-- The writes of a message, counted. -/
theorem messageFrames_calls (op : WriteOperation) :
    WriteCalls op.sequenceNumber 0 (payloadWrites op).length 0 (messageFrames op) := by
  have h := (descriptor_calls op.sequenceNumber
    (makeDescriptorForMessage op.message)).append (payloadWrites_calls op)
  rw [Nat.zero_add, Nat.zero_add] at h
  exact h

/-- The actions that write a message, one after the other. -/
theorem writeFrames_run {w : WriteSide} {op : WriteOperation}
    (hlen : op.tensors.length = op.message.tensors.length)
    (rest : List (WriteSide → WriteOperation → Outcome (WriteSide × WriteOperation))) :
    runActions (writeDescriptorOfMessage :: writePayloadsOfMessage :: rest) (w, op)
      = runActions rest (w.issue (messageFrames op), { op with
        numPayloadsBeingWritten :=
          op.numPayloadsBeingWritten + (payloadWrites op).length }) := by
  have hdesc : writeDescriptorOfMessage w op = .returns (w.issue
      [.descriptor op.sequenceNumber (makeDescriptorForMessage op.message)], op) := by
    rw [writeDescriptorOfMessage, WriteSide.dcheck_true _ (by simpa using hlen.symm)]
  rw [runActions, hdesc, Outcome.bind_returns, runActions, writePayloadsOfMessage,
    Outcome.bind_returns, WriteSide.issue_issue]
  rfl

/-- A message without missing devices has them all. -/
theorem targets_of_complete {message : Message}
    (h : messageHasMissingTargetDevices message = false) :
    ∀ sent ∈ tensorsOfMessage message, sent.targetDevice.isSome = true := by
  intro sent hsent
  obtain ⟨tensor, htensor, rfl⟩ := List.mem_map.mp hsent
  have hnone := List.any_eq_false.mp h tensor htensor
  cases ht : tensor.targetDevice with
  | none => rw [ht] at hnone; exact absurd rfl hnone
  | some device => rfl

/-- Once a reply has been parsed, every tensor has a target. -/
theorem targets_of_parse :
    ∀ (tensors : List Message.Tensor) (devices : List Device)
      (result : List SentTensor × List Device),
      parseDescriptorReplyOfMessage tensors
        (tensors.map (fun tensor => ⟨tensor.buffer.device, tensor.targetDevice⟩)) devices
        = some result →
      result.1.length = tensors.length
        ∧ ∀ sent ∈ result.1, sent.targetDevice.isSome = true := by
  intro tensors
  induction tensors with
  | nil =>
      rintro devices result h
      obtain rfl := Option.some.inj h
      exact ⟨rfl, fun _ hs => (nomatch hs)⟩
  | cons tensor tensors ih =>
      intro devices result h
      rw [List.map_cons] at h
      cases ht : tensor.targetDevice with
      | some device =>
          simp only [parseDescriptorReplyOfMessage, ht] at h
          obtain ⟨r, hr, rfl⟩ := Option.map_eq_some_iff.mp h
          obtain ⟨hlen, hall⟩ := ih _ _ hr
          refine ⟨by simp [hlen], ?_⟩
          intro sent hsent
          rcases List.mem_cons.mp hsent with rfl | hmem
          · rfl
          · exact hall sent hmem
      | none =>
          cases devices with
          | nil => simp [parseDescriptorReplyOfMessage, ht] at h
          | cons device devices =>
              simp only [parseDescriptorReplyOfMessage, ht] at h
              obtain ⟨r, hr, rfl⟩ := Option.map_eq_some_iff.mp h
              obtain ⟨hlen, hall⟩ := ih _ _ hr
              refine ⟨by simp [hlen], ?_⟩
              intro sent hsent
              rcases List.mem_cons.mp hsent with rfl | hmem
              · rfl
              · exact hall sent hmem

section Fire

variable {g : Gate} {w : WriteSide} {pre post : List WriteOperation} {op : WriteOperation}

/-- What starts a message with every target known. -/
theorem writeMessage_spec (hlen : op.tensors.length = op.message.tensors.length)
    (htargets : ∀ sent ∈ op.tensors, sent.targetDevice.isSome = true) :
    (runActions [writeDescriptorOfMessage, writePayloadsOfMessage, sendTensorsOfMessage g]
      (w, op)).Post
      (fun y => y = (w.issue (messageFrames op ++ tensorSends g op), { op with
        numPayloadsBeingWritten := op.numPayloadsBeingWritten + (payloadWrites op).length
        numTensorsBeingSent := op.numTensorsBeingSent + (tensorSends g op).length }))
      (fun y => ∃ sends, (∀ c ∈ sends, c.isTensor op.sequenceNumber = true) ∧
        y.1 = w.issue (messageFrames op ++ sends)
          ∧ y.2.sequenceNumber = op.sequenceNumber ∧ y.2.state = op.state) := by
  rw [writeFrames_run hlen]
  let started : WriteOperation := { op with
    numPayloadsBeingWritten := op.numPayloadsBeingWritten + (payloadWrites op).length }
  rw [runActions_single]
  have hspec := sendTensorsOfMessage_spec (g := g) (w.issue (messageFrames op))
    (show started.tensors.length = started.message.tensors.length from hlen) htargets
  refine hspec.imp ?_ ?_
  · rintro y rfl
    rw [WriteSide.issue_issue]
    rfl
  · rintro y ⟨sends, hsends, hy1, hy2, hy3⟩
    exact ⟨sends, hsends, by rw [hy1, WriteSide.issue_issue], hy2, hy3⟩

/-- Writing a message that needs no reply keeps the invariant. -/
theorem writeInv_write (h : WriteInv g w (pre ++ op :: post))
    (hst : op.state = .uninitialized) (hmissing : op.hasMissingTargetDevices = false)
    (hprev : 2 ≤ (lastState WriteState.finished pre).rank) :
    (runActions [writeDescriptorOfMessage, writePayloadsOfMessage, sendTensorsOfMessage g]
      (w, op)).Post
      (fun y => WriteInv g y.1
        (pre ++ withState y.2 WriteState.writingPayloadsAndSendingTensors :: post))
      (fun y => WriteSafe y.1 (pre ++ y.2 :: post)) := by
  have hloc := h.queue.locals op (by simp)
  have htargets : ∀ sent ∈ op.tensors, sent.targetDevice.isSome = true := by
    rw [hloc.asked (hloc.fresh hst)]
    exact targets_of_complete (hloc.missing ▸ hmissing)
  refine (writeMessage_spec hloc.length htargets).imp ?_ ?_
  · rintro y rfl
    have hcalls := (messageFrames_calls op).append (sends_calls (tensorSends_isTensor g op))
    rw [Nat.zero_add, Nat.zero_add, Nat.add_zero] at hcalls
    exact writeInv_issue h hcalls (by rw [hst]; decide) (by decide) hprev
      (by simp [hst]) (fun hne => absurd rfl hne)
  · rintro y ⟨sends, hsends, hy1, hy2, hy3⟩
    rw [hy1]
    exact writeSafe_issue h (by simp [hst])
      ((messageFrames_calls op).append (sends_calls hsends)).message hy2 hy3

/-- Writing a message and asking for its devices keeps the invariant. -/
theorem writeInv_ask (h : WriteInv g w (pre ++ op :: post))
    (hst : op.state = .uninitialized) (hmissing : op.hasMissingTargetDevices = true)
    (hprev : 1 ≤ (lastState WriteState.finished pre).rank) :
    (runActions [writeDescriptorOfMessage, writePayloadsOfMessage,
        readDescriptorReplyOfMessage] (w, op)).Post
      (fun y => WriteInv g y.1
        (pre ++ withState y.2 WriteState.writingPayloadsAndReadingTargetDevices :: post))
      (fun y => WriteSafe y.1 (pre ++ y.2 :: post)) := by
  have hloc := h.queue.locals op (by simp)
  rw [writeFrames_run hloc.length]
  have hread : ∀ np, runActions [readDescriptorReplyOfMessage]
      (w.issue (messageFrames op), { op with numPayloadsBeingWritten := np })
      = .returns (w.issue (messageFrames op ++ [.descriptorReply op.sequenceNumber]),
        { op with numPayloadsBeingWritten := np }) := by
    intro np
    rw [runActions, readDescriptorReplyOfMessage, WriteSide.dcheck_true _ hmissing,
      Outcome.bind_returns, WriteSide.issue_issue]
    rfl
  rw [hread]
  have hcalls := (messageFrames_calls op).append (descriptorReply_calls op.sequenceNumber)
  rw [Nat.zero_add, Nat.add_zero, Nat.add_zero] at hcalls
  have ht0 := hloc.unsent (by simp [hst])
  exact writeInv_issue h hcalls (by rw [hst]; decide) (by decide) hprev
    (by simp [hst, hloc.fresh hst]) (fun _ => by rw [ht0])

/-- Sending the tensors once the reply was read keeps the invariant. -/
theorem writeInv_send (h : WriteInv g w (pre ++ op :: post))
    (hst : op.state = .writingPayloadsAndReadingTargetDevices) (herr : g.error = none)
    (hdone : op.doneReadingDescriptorReply = true)
    (hprev : 2 ≤ (lastState WriteState.finished pre).rank) :
    (runActions [sendTensorsOfMessage g] (w, op)).Post
      (fun y => WriteInv g y.1
        (pre ++ withState y.2 WriteState.writingPayloadsAndSendingTensors :: post))
      (fun y => WriteSafe y.1 (pre ++ y.2 :: post)) := by
  have hloc := h.queue.locals op (by simp)
  rw [runActions_single]
  refine (sendTensorsOfMessage_spec w hloc.length (hloc.answered herr hdone)).imp ?_ ?_
  · rintro y rfl
    exact writeInv_issue h (sends_calls (tensorSends_isTensor g op)) (by rw [hst]; decide)
      (by decide) hprev (by simp [hdone]) (fun hne => absurd rfl hne)
  · rintro y ⟨sends, hsends, hy1, hy2, hy3⟩
    rw [hy1]
    exact writeSafe_issue h (by simp [hst]) (sends_calls hsends).message hy2 hy3

/-- Each attempt of an operation keeps the invariant. -/
theorem writeInv_fire {t : Transition WriteSide WriteOperation WriteState}
    (h : WriteInv g w (pre ++ op :: post)) (ht : t ∈ advanceWriteOperation g)
    (hsrc : op.state = t.source)
    (hcond : t.cond op (lastState WriteState.finished pre) = true) :
    (runActions t.actions (w, op)).Post
      (fun y => WriteInv g y.1 (pre ++ withState y.2 t.target :: post))
      (fun y => WriteSafe y.1 (pre ++ y.2 :: post)) := by
  have hloc := h.queue.locals op (by simp)
  simp only [advanceWriteOperation, List.mem_cons, List.not_mem_nil, or_false] at ht
  rcases ht with rfl | rfl | rfl | rfl | rfl | rfl <;>
    simp only [Bool.and_eq_true, decide_eq_true_eq, Option.isSome_iff_ne_none,
      Option.isNone_iff_eq_none, Bool.not_eq_true', beq_iff_eq] at hsrc hcond
  · exact writeInv_finish h (by simp [hsrc]) (by simp [hsrc])
      (hloc.unwritten (Or.inl hsrc)) (hloc.unsent (by simp [hsrc])) hcond.2
  · exact writeInv_write h hsrc hcond.1.2 hcond.2
  · exact writeInv_ask h hsrc hcond.1.2 hcond.2
  · exact writeInv_finish h (by simp [hsrc]) (by simp [hcond.1.2])
      hcond.1.1.2 (hloc.unsent (by simp [hsrc])) hcond.2
  · exact writeInv_send h hsrc hcond.1.1 hcond.1.2 hcond.2
  · exact writeInv_finish h (by simp [hsrc]) (by simp [hsrc]) hcond.1.1 hcond.1.2 hcond.2

end Fire

-- ── The walks ────────────────────────────────────────────────────────────────

/-- Popping a finished operation keeps the invariant. -/
theorem writeInv_pop {g : Gate} {w : WriteSide} {ops : List WriteOperation}
    {op : WriteOperation} (h : WriteInv g w (op :: ops)) (hfin : op.state = .finished) :
    WriteInv g w ops := by
  refine ⟨h.queue.pop hfin, ?_, h.dchecks, h.log⟩
  have hcur := h.cursor
  have hnot : ¬ op.state.rank < 3 := by rw [hfin]; decide
  simpa [writeBelow, hnot] using hcur

/-- **Every walk keeps the invariant of the writing half.** -/
theorem writeInv_preserves (g : Gate) :
    Preserves (advanceWriteOperation g) (WriteInv g) WriteSafe where
  numbered := fun _ _ h => ⟨_, h.queue.numbered⟩
  fire := fun _ _ _ _ _ h ht hsrc hcond => writeInv_fire h ht hsrc hcond
  pop := fun _ _ _ h hfin => writeInv_pop h hfin

/-- The finished operations come first. -/
theorem writeInv_finishedFirst (g : Gate) (w : WriteSide) (ops : List WriteOperation)
    (h : WriteInv g w ops) : FinishedFirst ops := by
  refine finishedFirst_of_rank WriteState.rank (fun _ _ hf => hf) ?_ h.queue.chained
  intro st hst
  cases st <;> first | rfl | exact absurd hst (by decide)

/-- The loop leaves the number of the operation. -/
theorem sendTensorsLoop_number (g : Gate)
    (l : List ((Message.Tensor × SentTensor) × Nat)) :
    ∀ (w : WriteSide) (op : WriteOperation),
      (sendTensorsLoop g l w op).state.2.sequenceNumber = op.sequenceNumber := by
  induction l with
  | nil => intro w op; rfl
  | cons p rest ih =>
      intro w op
      rw [sendTensorsLoop]
      cases p.1.2.targetDevice with
      | none => rfl
      | some remoteDevice =>
          dsimp only
          cases g.channelForDevicePair.lookup (p.1.2.sourceDevice, remoteDevice) with
          | none => rfl
          | some channelName =>
              dsimp only
              by_cases hhas : g.hasChannel channelName = false
              · rw [if_pos hhas]; rfl
              · rw [if_neg hhas]; exact ih _ _

/-- The transitions of a write operation only point forward. -/
theorem advanceWriteOperation_forward (g : Gate) : Forward (advanceWriteOperation g) where
  later := by simp [advanceWriteOperation]
  moves := by simp [advanceWriteOperation]
  notFinished := by
    intro t ht
    simp only [advanceWriteOperation, List.mem_cons, List.not_mem_nil, or_false] at ht
    rcases ht with rfl | rfl | rfl | rfl | rfl | rfl <;> exact fun he => nomatch he
  keepsNumber := by
    intro t ht a ha w op
    have hsend : (sendTensorsOfMessage g w op).state.2.sequenceNumber
        = op.sequenceNumber := sendTensorsLoop_number g _ _ _
    simp only [advanceWriteOperation, List.mem_cons, List.not_mem_nil, or_false] at ht
    rcases ht with rfl | rfl | rfl | rfl | rfl | rfl <;>
      simp only [List.mem_cons, List.not_mem_nil, or_false] at ha <;>
      rcases ha with rfl | rfl | rfl <;>
      first | rfl | exact hsend

/-- The writing half between two tasks. -/
def WriteRest (g : Gate) : Writes → Prop := AtRest (advanceWriteOperation g) (WriteInv g)

-- ── Tasks ────────────────────────────────────────────────────────────────────

section Tasks

variable {g g' : Gate} {x : Writes}

/-- Replacing an operation by one alike leaves the sequence at rest. -/
theorem onWrites_rest {w w' : WriteSide} {ops : List WriteOperation} {n : Nat}
    {f : WriteOperation → WriteOperation} (h : WriteRest g (w, ops))
    (hstate : ∀ op, (f op).state = op.state)
    (hnumber : ∀ op, (f op).sequenceNumber = op.sequenceNumber)
    (hmem : ∃ o ∈ ops, o.sequenceNumber = n)
    (hinv : WriteInv g w' (modifyOperation n f ops)) :
    (advanceOperation (advanceWriteOperation g) w' (modifyOperation n f ops) n).Post
      (WriteRest g) (fun y => WriteSafe y.1 y.2) :=
  advanceOperation_modify_atRest (writeInv_preserves g) (advanceWriteOperation_forward g)
    (writeInv_finishedFirst g) h hstate hnumber hmem hinv

/-- Advancing all writes leaves the sequence at rest. -/
theorem writeRest_advanceAll (h : WriteRest g x) (hg : g'.error = none → g.error = none) :
    (advanceAllWrites g' x).Post (WriteRest g') (fun y => WriteSafe y.1 y.2) :=
  advanceAllOperations_atRest (writeInv_preserves g') (advanceWriteOperation_forward g')
    (writeInv_finishedFirst g') (h.inv.gate hg) h.unfinished

/-- Whether a transition is enabled depends on the gate only through the error and
    the flag. -/
theorem writeEnabled_gate (herr : g'.error = g.error)
    (hest : g'.established = true → g.established = true) {p : WriteState} {op : WriteOperation}
    (h : Enabled (advanceWriteOperation g') p op) :
    Enabled (advanceWriteOperation g) p op := by
  obtain ⟨t, ht, hsrc, hcond⟩ := h
  simp only [advanceWriteOperation, herr, List.mem_cons, List.not_mem_nil,
    or_false] at ht
  simp only [Enabled, advanceWriteOperation, List.mem_cons, List.not_mem_nil, or_false,
    exists_eq_or_imp, exists_eq_left]
  rcases ht with rfl | rfl | rfl | rfl | rfl | rfl <;> simp_all

/-- The sequence stays at rest when the gate allows no more than before. -/
theorem writeRest_gate (h : WriteRest g x) (herr : g'.error = g.error)
    (hest : g'.established = true → g.established = true) : WriteRest g' x where
  inv := h.inv.gate (fun he => herr ▸ he)
  unfinished := h.unfinished
  stable := chained_imp (fun _ _ _ hno hen => hno (writeEnabled_gate herr hest hen)) h.stable

/-- A pipe starts with an empty writing half. -/
theorem writeRest_init (g : Gate) : WriteRest g ({}, []) where
  inv := ⟨⟨trivial, trivial, fun _ h => (nomatch h), fun _ h => (nomatch h)⟩, rfl, rfl,
    ⟨rfl, fun _ h => (nomatch h)⟩⟩
  unfinished := fun _ h => (nomatch h)
  stable := trivial

/-- A call of `write` leaves the sequence at rest. -/
theorem writeRest_write (h : WriteRest g x) (message : Message) :
    (writeFromLoop g message x).Post (WriteRest g) (fun y => WriteSafe y.1 y.2) := by
  obtain ⟨w, ops⟩ := x
  have hinv : WriteInv g w ops := h.inv
  let op : WriteOperation := newWriteOperation w.nextMessageBeingWritten message
  show (advanceOperation (advanceWriteOperation g)
    { w with nextMessageBeingWritten := w.nextMessageBeingWritten + 1 } (ops ++ [op])
    op.sequenceNumber).Post _ _
  refine advanceOperation_atRest (writeInv_preserves g) (advanceWriteOperation_forward g)
    (writeInv_finishedFirst g) ?_ ?_ ⟨op, by simp, rfl⟩ (stable_push op h.stable)
  · refine ⟨hinv.queue.push message, ?_, hinv.dchecks,
      ⟨hinv.log.writesCalled, hinv.log.released⟩⟩
    have hbelow : writeBelow 3 (ops ++ [op]) = writeBelow 3 ops + 1 := by
      have hlt : op.state.rank < 3 := Nat.zero_lt_succ 2
      simp [writeBelow, hlt]
    have hcur := hinv.cursor
    show w.nextWriteCallbackToCall + writeBelow 3 (ops ++ [op])
      = w.nextMessageBeingWritten + 1
    omega
  · intro o ho
    rcases List.mem_append.mp ho with hold | hnew
    · exact h.unfinished o hold
    · obtain rfl := List.mem_singleton.mp hnew
      exact fun hx => nomatch hx

/-- A call that reports leaves the outstanding ones, and its operation accounts for
    it; the state of the operation does not change. -/
theorem writeInv_reported {w : WriteSide} {pre post : List WriteOperation}
    {op op' : WriteOperation} {call : WriteCall} (h : WriteInv g w (pre ++ op :: post))
    (hlocal : WriteLocal g (w.pending.erase call) op')
    (hcall : call.message = op.sequenceNumber)
    (hseq : op'.sequenceNumber = op.sequenceNumber) (hst : op'.state = op.state) (b : Bool) :
    WriteInv g { w with pending := w.pending.erase call, replyDchecks := b }
      (pre ++ op' :: post) := by
  refine ⟨?_, ?_, h.dchecks, ⟨h.log.writesCalled, h.log.released⟩⟩
  · refine h.queue.replace hseq (Nat.le_of_eq (by rw [hst])) ?_ ?_ ?_ hlocal
    · rw [hst]
      exact (chained_append.mp h.queue.chained).2.1
    · intro n hn
      exact sameWriteCalls_erase (by rw [hcall]; exact Ne.symm hn)
    · exact fun c hc => Or.inl (List.mem_of_mem_erase hc)
  · have hb := writeBelow_replace 3 pre post op op'
    rw [hst] at hb
    rw [Nat.add_right_cancel hb]
    exact h.cursor

/-- The report of a payload takes one from those that the message still writes. -/
theorem writeLocal_payload {pending : List WriteCall} {op : WriteOperation}
    (h : WriteLocal g pending op) {payloadIdx data length : Nat}
    (hc : .payload op.sequenceNumber payloadIdx data length ∈ pending) :
    WriteLocal g (pending.erase (.payload op.sequenceNumber payloadIdx data length))
      { op with numPayloadsBeingWritten := op.numPayloadsBeingWritten - 1 } := by
  have hcount := countP_erase_of_mem hc
    (show WriteCall.isPayload op.sequenceNumber _ = true by simp [WriteCall.isPayload])
  rw [h.payloadWrites] at hcount
  exact { h with
    replyRead := (countP_erase_of_not rfl).trans h.replyRead
    payloadWrites := Nat.eq_sub_of_add_eq hcount
    tensorSends := (countP_erase_of_not rfl).trans h.tensorSends
    unwritten := fun hst => by rw [h.unwritten hst] }

/-- The report of a tensor takes one from those that the message still sends. -/
theorem writeLocal_tensor {pending : List WriteCall} {op : WriteOperation}
    (h : WriteLocal g pending op) {channel : String} {tensorIdx length : Nat}
    {buffer : Buffer}
    (hc : .tensor channel op.sequenceNumber tensorIdx buffer length ∈ pending) :
    WriteLocal g (pending.erase (.tensor channel op.sequenceNumber tensorIdx buffer length))
      { op with numTensorsBeingSent := op.numTensorsBeingSent - 1 } := by
  have hcount := countP_erase_of_mem hc
    (show WriteCall.isTensor op.sequenceNumber _ = true by simp [WriteCall.isTensor])
  rw [h.tensorSends] at hcount
  exact { h with
    replyRead := (countP_erase_of_not rfl).trans h.replyRead
    payloadWrites := (countP_erase_of_not rfl).trans h.payloadWrites
    tensorSends := Nat.eq_sub_of_add_eq hcount
    unsent := fun hst => by rw [h.unsent hst] }

/-- A reply that has been read, with the targets it leaves behind.  Its operation
    was waiting for it. -/
theorem writeLocal_reply {pending : List WriteCall} {op : WriteOperation}
    (h : WriteLocal g pending op) (hc : .descriptorReply op.sequenceNumber ∈ pending)
    {tensors : List SentTensor}
    (hlen : tensors.length = op.message.tensors.length)
    (hall : g.error = none → ∀ sent ∈ tensors, sent.targetDevice.isSome = true) :
    WriteLocal g (pending.erase (.descriptorReply op.sequenceNumber))
      { op with doneReadingDescriptorReply := true, tensors := tensors } := by
  have hcount := countP_erase_of_mem hc
    (show WriteCall.isDescriptorReply op.sequenceNumber _ = true by
      simp [WriteCall.isDescriptorReply])
  rw [h.replyRead] at hcount
  have hreading : op.state = .writingPayloadsAndReadingTargetDevices
      ∧ op.doneReadingDescriptorReply = false := by
    by_contra hno
    rw [if_neg hno] at hcount
    exact absurd hcount (Nat.succ_ne_zero _)
  rw [if_pos hreading] at hcount
  exact { h with
    replyRead := by rw [if_neg (by simp)]; exact Nat.succ.inj hcount
    payloadWrites := (countP_erase_of_not rfl).trans h.payloadWrites
    tensorSends := (countP_erase_of_not rfl).trans h.tensorSends
    fresh := fun hu => by rw [hreading.1] at hu; exact nomatch hu
    length := hlen
    asked := fun hx => nomatch hx
    answered := fun he _ => hall he }

/-- The operation that reads a reply still has its tensors as they were created. -/
theorem writeLocal_asked {pending : List WriteCall} {op : WriteOperation}
    (h : WriteLocal g pending op) (hc : .descriptorReply op.sequenceNumber ∈ pending) :
    op.tensors = tensorsOfMessage op.message := by
  refine h.asked ?_
  by_contra hdone
  have hzero := h.replyRead
  rw [if_neg (fun hx => hdone hx.2)] at hzero
  exact List.countP_eq_zero.mp hzero _ hc (by simp [WriteCall.isDescriptorReply])

/-- The callback of any call of the writing half. -/
theorem writeRest_done (h : WriteRest g x) {call : WriteCall} (hc : call ∈ x.1.pending)
    (reply : DescriptorReply) :
    (onWriteDone g call reply x).Post (WriteRest g) (fun y => WriteSafe y.1 y.2) := by
  obtain ⟨w, ops⟩ := x
  have hinv : WriteInv g w ops := h.inv
  have hfind : ∀ n, call.captures = some n → ∃ pre op post, ops = pre ++ op :: post
      ∧ op.sequenceNumber = n := by
    intro n hn
    obtain ⟨op, hop, hseq⟩ := hinv.queue.captured call hc n hn
    obtain ⟨pre, post, hops⟩ := List.append_of_mem hop
    exact ⟨pre, op, post, hops, hseq⟩
  cases call with
  | descriptor n d =>
      -- nobody waits for the descriptor to be written
      refine ⟨⟨⟨hinv.queue.numbered, hinv.queue.chained, ?_, ?_⟩, hinv.cursor, hinv.dchecks,
        ⟨hinv.log.writesCalled, hinv.log.released⟩⟩, h.unfinished, h.stable⟩
      · intro o ho
        exact (hinv.queue.locals o ho).same
          ⟨countP_erase_of_not rfl, countP_erase_of_not rfl, countP_erase_of_not rfl⟩
      · exact fun c hcm => hinv.queue.captured c (List.mem_of_mem_erase hcm)
  | payload n payloadIdx data length =>
      obtain ⟨pre, op, post, rfl, rfl⟩ := hfind n rfl
      refine onWrites_rest h (fun _ => rfl) (fun _ => rfl) ⟨op, by simp, rfl⟩ ?_
      rw [show modifyOperation op.sequenceNumber _ (pre ++ op :: post) = _
        from modifyOperation_mid hinv.queue.numbered _]
      exact writeInv_reported hinv (writeLocal_payload (hinv.queue.locals op (by simp)) hc)
        rfl rfl rfl _
  | tensor channel n tensorIdx buffer length =>
      obtain ⟨pre, op, post, rfl, rfl⟩ := hfind n rfl
      refine onWrites_rest h (fun _ => rfl) (fun _ => rfl) ⟨op, by simp, rfl⟩ ?_
      rw [show modifyOperation op.sequenceNumber _ (pre ++ op :: post) = _
        from modifyOperation_mid hinv.queue.numbered _]
      exact writeInv_reported hinv (writeLocal_tensor (hinv.queue.locals op (by simp)) hc)
        rfl rfl rfl _
  | descriptorReply n =>
      obtain ⟨pre, op, post, rfl, rfl⟩ := hfind n rfl
      have hloc := hinv.queue.locals op (by simp)
      have hmid : (pre ++ op :: post).find?
          (fun o => o.sequenceNumber == op.sequenceNumber) = some op :=
        numbered_find hinv.queue.numbered (List.mem_append_right _ (List.mem_cons_self ..))
      rw [onWriteDone]
      dsimp only
      rw [hmid]
      dsimp only
      -- with an error the reply is not looked at, and nothing is said of the targets
      have hfailed : g.error.isSome = true → WriteInv g
          { w with pending := w.pending.erase (.descriptorReply op.sequenceNumber) }
          (pre ++ { op with doneReadingDescriptorReply := true } :: post) := by
        intro he
        refine writeInv_reported hinv (writeLocal_reply hloc hc hloc.length ?_)
          rfl rfl rfl _
        intro hnone'
        rw [hnone'] at he
        exact nomatch he
      by_cases he : g.error.isSome = true
      · rw [if_pos he]
        refine onWrites_rest h (fun _ => rfl) (fun _ => rfl) ⟨op, by simp, rfl⟩ ?_
        rw [show modifyOperation op.sequenceNumber _ (pre ++ op :: post) = _
          from modifyOperation_mid hinv.queue.numbered _]
        exact hfailed he
      · rw [if_neg he]
        cases hparse : parseDescriptorReplyOfMessage op.message.tensors op.tensors
            reply.targetDevices with
        | none =>
            -- the state left behind is that of the failing gate
            have hfail : WriteInv { g with error := some "" }
                { w with pending := w.pending.erase (.descriptorReply op.sequenceNumber) }
                (pre ++ { op with doneReadingDescriptorReply := true } :: post) := by
              have hinv' : WriteInv { g with error := some "" } w (pre ++ op :: post) :=
                hinv.gate (fun hx => nomatch hx)
              exact writeInv_reported hinv' (writeLocal_reply
                (hinv'.queue.locals op (by simp)) hc hloc.length (fun hx => nomatch hx))
                rfl rfl rfl _
            rw [show modifyOperation op.sequenceNumber _ (pre ++ op :: post) = _
              from modifyOperation_mid hinv.queue.numbered _]
            exact hfail.safe
        | some result =>
            rw [writeLocal_asked hloc hc] at hparse
            obtain ⟨hlen, hall⟩ := targets_of_parse _ _ _ hparse
            refine onWrites_rest h (fun _ => rfl) (fun _ => rfl) ⟨op, by simp, rfl⟩ ?_
            rw [show modifyOperation op.sequenceNumber _ (pre ++ op :: post) = _
              from modifyOperation_mid hinv.queue.numbered _]
            exact writeInv_reported hinv (writeLocal_reply hloc hc hlen (fun _ => hall))
              rfl rfl rfl _

end Tasks

end TpPipe
