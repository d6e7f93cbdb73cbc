import Tensorpipe.PipeReadProofs

/-! # The invariant of the reading half

    Four groups of facts, each with its own lemmas:

    * `ReadQueue`: the numbers are consecutive, the states never increase, the
      counters of each operation are the numbers of its outstanding calls, and
      every outstanding call belongs to a stored operation;
    * `ReadCursors`: where the global cursors stand, as counts of the operations
      that are still below a state;
    * the debug checks have all passed;
    * `ReadLog`: what has been done to the outside so far.

    `readInv_fire` says that a firing transition keeps them, `readInv_preserves`
    that the walks do, and one lemma per task that the tasks do.  A task that
    throws leaves `ReadSafe`. -/

namespace TpPipe

open TpStateMachine TpMessage TpSelect

-- ── Fields after an update ───────────────────────────────────────────────────

namespace ReadSide

variable (r : ReadSide) (calls : List ReadCall) (b : Bool)

/-- What is issued is pending and noted; the rest of the side stays. -/
@[simp] theorem issue_pending : (r.issue calls).pending = r.pending ++ calls := rfl
@[simp] theorem issue_issued : (r.issue calls).issued = r.issued ++ calls := rfl
@[simp] theorem issue_called : (r.issue calls).called = r.called := rfl
@[simp] theorem issue_accepted : (r.issue calls).accepted = r.accepted := rfl
@[simp] theorem issue_dchecks : (r.issue calls).dchecks = r.dchecks := rfl
@[simp] theorem issue_issue (calls' : List ReadCall) :
    (r.issue calls).issue calls' = r.issue (calls ++ calls') := by
  simp [issue, List.append_assoc]

/-- A check that passes leaves no trace. -/
theorem dcheck_true {b : Bool} (h : b = true) : r.dcheck b = r := by
  rw [dcheck, h, Bool.and_true]

end ReadSide

-- ── The queue ────────────────────────────────────────────────────────────────

/-- How an operation stands behind its predecessor: its state is no further, and
    it is first in line only once the predecessor has scheduled its reads. -/
structure ReadFollows (p : ReadState) (op : ReadOperation) : Prop where
  le : op.state.rank ≤ p.rank
  inLine : 3 ≤ op.state.rank → 4 ≤ p.rank

/-- What may follow an operation may follow one that is further. -/
theorem ReadFollows.mono {p q : ReadState} {op : ReadOperation} (h : ReadFollows p op)
    (hpq : p.rank ≤ q.rank) : ReadFollows q op :=
  ⟨Nat.le_trans h.le hpq, fun hop => Nat.le_trans (h.inLine hop) hpq⟩

/-- The operations whose state is below a given rank. -/
def readBelow (k : Nat) (ops : List ReadOperation) : Nat :=
  ops.countP (fun op => decide (op.state.rank < k))

/-- The flags and counters of one operation against the outstanding calls. -/
structure ReadLocal (pending : List ReadCall) (op : ReadOperation) : Prop where
  descriptorRead : pending.countP (ReadCall.isDescriptor op.sequenceNumber)
    = if op.state = .readingDescriptor ∧ op.doneReadingDescriptor = false then 1 else 0
  payloadReads : pending.countP (ReadCall.isPayload op.sequenceNumber)
    = op.numPayloadsBeingRead
  tensorRecvs : pending.countP (ReadCall.isTensor op.sequenceNumber)
    = op.numTensorsBeingReceived
  idle : op.state ≠ .readingPayloadsAndReceivingTensors →
    op.numPayloadsBeingRead = 0 ∧ op.numTensorsBeingReceived = 0
  fresh : op.state = .uninitialized → op.doneReadingDescriptor = false
  blank : op.doneReadingDescriptor = false → op.descriptor = {}
  described : 3 ≤ op.state.rank → op.doneReadingDescriptor = true
  unallocated : op.state.rank < 3 → op.doneGettingAllocation = false
  allocated : 4 ≤ op.state.rank → op.doneGettingAllocation = true
  compatible : op.doneGettingAllocation = true →
    checkAllocationCompatibility op.descriptor op.allocation = true
  missing : op.hasMissingTargetDevices = descriptorHasMissingTargetDevices op.descriptor

/-- Two lists of outstanding calls agree on one message. -/
structure SameReadCalls (n : Nat) (pending pending' : List ReadCall) : Prop where
  descriptor : pending'.countP (ReadCall.isDescriptor n)
    = pending.countP (ReadCall.isDescriptor n)
  payload : pending'.countP (ReadCall.isPayload n) = pending.countP (ReadCall.isPayload n)
  tensor : pending'.countP (ReadCall.isTensor n) = pending.countP (ReadCall.isTensor n)

/-- An operation depends on the calls about its own message. -/
theorem ReadLocal.same {pending pending' : List ReadCall} {op : ReadOperation}
    (h : ReadLocal pending op) (hs : SameReadCalls op.sequenceNumber pending pending') :
    ReadLocal pending' op where
  descriptorRead := hs.descriptor.trans h.descriptorRead
  payloadReads := hs.payload.trans h.payloadReads
  tensorRecvs := hs.tensor.trans h.tensorRecvs
  idle := h.idle
  fresh := h.fresh
  blank := h.blank
  described := h.described
  unallocated := h.unallocated
  allocated := h.allocated
  compatible := h.compatible
  missing := h.missing

/-- The message of the read of a descriptor. -/
theorem isDescriptor_message {c : ReadCall} {n : Nat} (h : c.isDescriptor n = true) :
    c.message = n := by
  cases c <;> simp_all [ReadCall.isDescriptor, ReadCall.message]

/-- The message of the read of a payload. -/
theorem isPayload_message {c : ReadCall} {n : Nat} (h : c.isPayload n = true) :
    c.message = n := by
  cases c <;> simp_all [ReadCall.isPayload, ReadCall.message]

/-- The message of the receiving of a tensor. -/
theorem isTensor_message {c : ReadCall} {n : Nat} (h : c.isTensor n = true) :
    c.message = n := by
  cases c <;> simp_all [ReadCall.isTensor, ReadCall.message]

/-- Calls of one message do not count for another. -/
theorem countP_other {q : Nat → ReadCall → Bool} {n : Nat} {calls : List ReadCall}
    (hq : ∀ c, q n c = true → c.message = n) (h : ∀ c ∈ calls, c.message ≠ n) :
    calls.countP (q n) = 0 :=
  List.countP_eq_zero.mpr (fun c hc hqc => h c hc (hq c hqc))

/-- Calls about other messages are none of this one. -/
theorem sameReadCalls_issue {n : Nat} {pending calls : List ReadCall}
    (h : ∀ c ∈ calls, c.message ≠ n) : SameReadCalls n pending (pending ++ calls) where
  descriptor := by
    rw [List.countP_append, countP_other (fun _ => isDescriptor_message) h, Nat.add_zero]
  payload := by
    rw [List.countP_append, countP_other (fun _ => isPayload_message) h, Nat.add_zero]
  tensor := by
    rw [List.countP_append, countP_other (fun _ => isTensor_message) h, Nat.add_zero]

/-- What is counted for an operation is captured by it. -/
theorem captures_of_counted {c : ReadCall} {n : Nat}
    (h : c.isDescriptor n = true ∨ c.isPayload n = true ∨ c.isTensor n = true) :
    c.captures = some n := by
  cases c <;>
    simp_all [ReadCall.captures, ReadCall.isDescriptor, ReadCall.isPayload,
      ReadCall.isTensor]

/-- Erasing an element that is not counted leaves the count. -/
theorem countP_erase_of_not {α : Type} [DecidableEq α] {q : α → Bool} {l : List α} {c : α}
    (h : q c = false) : (l.erase c).countP q = l.countP q := by
  rw [List.countP_erase, h]
  simp

/-- Erasing an element that is counted takes one from the count. -/
theorem countP_erase_of_mem {α : Type} [DecidableEq α] {q : α → Bool} {l : List α} {c : α}
    (hc : c ∈ l) (h : q c = true) : (l.erase c).countP q + 1 = l.countP q := by
  have hpos : 0 < l.countP q := List.countP_pos_iff.mpr ⟨c, hc, h⟩
  rw [List.countP_erase, if_pos ⟨hc, h⟩]
  omega

/-- The report of a call about another message is none of this one. -/
theorem sameReadCalls_erase {n : Nat} {pending : List ReadCall} {c : ReadCall}
    (h : c.message ≠ n) : SameReadCalls n pending (pending.erase c) where
  descriptor := countP_erase_of_not
    (Bool.eq_false_iff.mpr (fun hc => h (isDescriptor_message hc)))
  payload := countP_erase_of_not
    (Bool.eq_false_iff.mpr (fun hc => h (isPayload_message hc)))
  tensor := countP_erase_of_not
    (Bool.eq_false_iff.mpr (fun hc => h (isTensor_message hc)))

/-- The deque, against the number of the next operation and the outstanding calls. -/
structure ReadQueue (next : Nat) (pending : List ReadCall) (ops : List ReadOperation) :
    Prop where
  numbered : Numbered next ops
  chained : Chained ReadFollows .finished ops
  locals : ∀ op ∈ ops, ReadLocal pending op
  captured : ∀ call ∈ pending, ∀ n, call.captures = some n →
    ∃ op ∈ ops, op.sequenceNumber = n

namespace ReadQueue

variable {next : Nat} {pending pending' : List ReadCall} {pre post ops : List ReadOperation}
  {op op' : ReadOperation}

/-- Rewriting one operation and the outstanding calls of its message. -/
theorem replace (h : ReadQueue next pending (pre ++ op :: post))
    (hseq : op'.sequenceNumber = op.sequenceNumber)
    (hrank : op.state.rank ≤ op'.state.rank)
    (hfol : ReadFollows (lastState .finished pre) op')
    (hother : ∀ n, n ≠ op.sequenceNumber → SameReadCalls n pending pending')
    (hsub : ∀ c ∈ pending', c ∈ pending ∨ c.message = op.sequenceNumber)
    (hlocal : ReadLocal pending' op') :
    ReadQueue next pending' (pre ++ op' :: post) where
  numbered := numbered_set h.numbered hseq
  chained := chained_set h.chained hfol (fun _ ho => ho.mono hrank)
  locals := by
    intro o ho
    rcases List.mem_append.mp ho with hpre | hmid
    · exact (h.locals o (by simp [hpre])).same
        (hother _ (numbered_ne h.numbered (Or.inl hpre)))
    · rcases List.mem_cons.mp hmid with rfl | hpost
      · exact hlocal
      · exact (h.locals o (by simp [hpost])).same
          (hother _ (numbered_ne h.numbered (Or.inr hpost)))
  captured := by
    intro c hc n hn
    have hback : ∃ o ∈ pre ++ op :: post, o.sequenceNumber = n := by
      rcases hsub c hc with hold | hnew
      · exact h.captured c hold n hn
      · refine ⟨op, by simp, ?_⟩
        cases c <;> simp_all [ReadCall.captures, ReadCall.message]
    obtain ⟨o, ho, rfl⟩ := hback
    rcases List.mem_append.mp ho with hpre | hmid
    · exact ⟨o, by simp [hpre], rfl⟩
    · rcases List.mem_cons.mp hmid with rfl | hpost
      · exact ⟨op', by simp, hseq⟩
      · exact ⟨o, by simp [hpost], rfl⟩

/-- A finished operation has no call left, so it may go. -/
theorem no_call_of_finished (h : ReadLocal pending op) (hfin : op.state = .finished)
    {c : ReadCall} (hc : c ∈ pending) : c.captures ≠ some op.sequenceNumber := by
  obtain ⟨hp, ht⟩ := h.idle (by rw [hfin]; decide)
  have hd := h.descriptorRead
  rw [if_neg (by rw [hfin]; simp)] at hd
  have hp' := h.payloadReads
  have ht' := h.tensorRecvs
  rw [hp] at hp'
  rw [ht] at ht'
  have h1 := List.countP_eq_zero.mp hd c hc
  have h2 := List.countP_eq_zero.mp hp' c hc
  have h3 := List.countP_eq_zero.mp ht' c hc
  intro hcap
  cases c <;>
    simp_all [ReadCall.captures, ReadCall.isDescriptor, ReadCall.isPayload,
      ReadCall.isTensor]

/-- A finished operation at the front may be popped. -/
theorem pop (h : ReadQueue next pending (op :: ops)) (hfin : op.state = .finished) :
    ReadQueue next pending ops where
  numbered := h.numbered.2
  chained := by
    have h2 := h.chained.2
    rwa [show Operation.state op = ReadState.finished from hfin] at h2
  locals := fun o ho => h.locals o (by simp [ho])
  captured := by
    intro c hc n hn
    obtain ⟨o, ho, rfl⟩ := h.captured c hc n hn
    rcases List.mem_cons.mp ho with rfl | hmem
    · exact absurd hn (no_call_of_finished (h.locals o (by simp)) hfin hc)
    · exact ⟨o, hmem, rfl⟩

/-- A new operation may be pushed at the back. -/
theorem push (h : ReadQueue next pending ops) :
    ReadQueue (next + 1) pending (ops ++ [{ sequenceNumber := next }]) := by
  have hfresh : ∀ c ∈ pending, c.captures ≠ some next := by
    intro c hc hcap
    obtain ⟨o, ho, hseq⟩ := h.captured c hc next hcap
    obtain ⟨a, b, rfl⟩ := List.append_of_mem ho
    have hlt : o.sequenceNumber + b.length + 1 = next := numbered_mid h.numbered
    omega
  have hlocal : ReadLocal pending { sequenceNumber := next } := {
    descriptorRead := List.countP_eq_zero.mpr (fun c hc hq =>
      hfresh c hc (captures_of_counted (Or.inl hq)))
    payloadReads := List.countP_eq_zero.mpr (fun c hc hq =>
      hfresh c hc (captures_of_counted (Or.inr (Or.inl hq))))
    tensorRecvs := List.countP_eq_zero.mpr (fun c hc hq =>
      hfresh c hc (captures_of_counted (Or.inr (Or.inr hq))))
    idle := fun _ => ⟨rfl, rfl⟩
    fresh := fun _ => rfl
    blank := fun _ => rfl
    described := fun h3 => absurd h3 (by show ¬ 3 ≤ 0; omega)
    unallocated := fun _ => rfl
    allocated := fun h4 => absurd h4 (by show ¬ 4 ≤ 0; omega)
    compatible := fun hd => nomatch hd
    missing := rfl }
  constructor
  · exact numbered_snoc h.numbered rfl
  · exact chained_snoc h.chained
      ⟨Nat.zero_le _, fun h3 => absurd h3 (by show ¬ 3 ≤ 0; omega)⟩
  · intro o ho
    rcases List.mem_append.mp ho with hold | hnew
    · exact h.locals o hold
    · obtain rfl := List.mem_singleton.mp hnew
      exact hlocal
  · intro c hc n hn
    obtain ⟨o, ho, hseq⟩ := h.captured c hc n hn
    exact ⟨o, by simp [ho], hseq⟩

/-- The operations before one are no less far. -/
theorem pre_rank (h : ReadQueue next pending (pre ++ op :: post)) {o : ReadOperation}
    (ho : o ∈ pre) : (lastState ReadState.finished pre).rank ≤ o.state.rank :=
  (chained_rank_pre (fun _ _ hf => ReadFollows.le hf) pre _
    (chained_append.mp h.chained).1).1 o ho

/-- The operations after one are no further. -/
theorem post_rank (h : ReadQueue next pending (pre ++ op :: post)) {o : ReadOperation}
    (ho : o ∈ post) : o.state.rank ≤ op.state.rank :=
  chained_rank_post (fun _ _ hf => ReadFollows.le hf) post _
    (chained_append.mp h.chained).2.2 o ho

/-- Each operation follows the one before as it may. -/
theorem follows (h : ReadQueue next pending (pre ++ op :: post)) :
    ReadFollows (lastState .finished pre) op :=
  (chained_append.mp h.chained).2.1

/-- The cursor of a threshold stands at the operation about to cross it. -/
theorem cursor (h : ReadQueue next pending (pre ++ op :: post)) {k : Nat}
    (hprev : k ≤ (lastState ReadState.finished pre).rank) (hop : op.state.rank < k) :
    op.sequenceNumber + readBelow k (pre ++ op :: post) = next := by
  have hbelow : readBelow k (pre ++ op :: post) = post.length + 1 :=
    countP_below (fun _ _ hf => ReadFollows.le hf) h.chained (fun _ => hprev) hop
  have hmid : op.sequenceNumber + post.length + 1 = next := numbered_mid h.numbered
  rw [hbelow]
  exact hmid

end ReadQueue

/-- What one operation contributes below a rank. -/
def readUnit (k : Nat) (st : ReadState) : Nat := if st.rank < k then 1 else 0

/-- Replacing an operation changes the count by its own share. -/
theorem readBelow_replace (k : Nat) (pre post : List ReadOperation)
    (op op' : ReadOperation) :
    readBelow k (pre ++ op' :: post) + readUnit k op.state
      = readBelow k (pre ++ op :: post) + readUnit k op'.state := by
  have h := countP_set (fun o : ReadOperation => decide (o.state.rank < k)) pre post op op'
  simpa [readBelow, readUnit] using h

/-- More operations are below a higher stage. -/
theorem readBelow_mono {k l : Nat} (hkl : k ≤ l) (ops : List ReadOperation) :
    readBelow k ops ≤ readBelow l ops := by
  refine List.countP_mono_left ?_
  intro op _ h
  have hk : op.state.rank < k := by simpa using h
  simpa using Nat.lt_of_lt_of_le hk hkl

-- ── Cursors and logs ─────────────────────────────────────────────────────────

/-- The operation is the one that waits for the user's read call. -/
def expectsRead (op : ReadOperation) : Bool :=
  op.state == .askingForAllocationFirstInLine && !op.doneGettingAllocation

/-- One message is half read while its payloads are awaited. -/
def ConnectionState.awaited : ConnectionState → Nat
  | .awaitingDescriptor => 0
  | .awaitingPayloads => 1

/-- Where the cursors stand.  What concerns the descriptor connection matters only
    while there is no error: afterwards nothing is read from it. -/
structure ReadCursors (g : Gate) (r : ReadSide) (ops : List ReadOperation) : Prop where
  expected : ∀ n, r.nextMessageGettingAllocation = some n ↔
    ∃ op ∈ ops, expectsRead op = true ∧ op.sequenceNumber = n
  descriptorCallback :
    r.nextReadDescriptorCallbackToCall + readBelow 2 ops = r.nextMessageBeingRead
  readCallback : r.nextReadCallbackToCall + readBelow 5 ops = r.nextMessageBeingRead
  connection : g.error = none →
    r.messageBeingReadFromConnection + readBelow 4 ops = r.nextMessageBeingRead
  connectionState : g.error = none →
    readBelow 4 ops = readBelow 1 ops + r.connectionState.awaited
  described : g.error = none → ∀ op ∈ ops, 2 ≤ op.state.rank →
    op.doneReadingDescriptor = true
  accepted : r.accepted.length + ops.countP (fun op => !op.doneGettingAllocation)
    = r.nextMessageBeingRead

/-- The frames read off the descriptor connection for complete messages. -/
def readFrames (payloads : Nat → List ReadCall) (m : Nat) : List ReadCall :=
  (List.range m).flatMap (fun k => .descriptor k :: payloads k)

/-- The frames of one more message. -/
theorem readFrames_succ (payloads : Nat → List ReadCall) (m : Nat) :
    readFrames payloads (m + 1) = readFrames payloads m ++ .descriptor m :: payloads m := by
  simp [readFrames, List.range_succ]

/-- What has been done to the outside: callbacks in order, read calls accepted in
    order, no buffer released while in use, and the frames of the descriptor
    connection read message by message. -/
structure ReadLog (r : ReadSide) : Prop where
  descriptorsCalled : r.called.filterMap ReadCallback.descriptorNumber
    = List.range r.nextReadDescriptorCallbackToCall
  readsCalled : r.called.filterMap ReadCallback.readNumber
    = List.range r.nextReadCallbackToCall
  accepted : r.accepted = List.range r.accepted.length
  released : ∀ n error outstanding, .read n error outstanding ∈ r.called →
    ∀ c ∈ outstanding, c.isPayload n = false ∧ c.isTensor n = false
  frames : ∃ payloads : Nat → List ReadCall,
    (∀ k, ∀ c ∈ payloads k, c.isPayload k = true) ∧
    r.issued.filter ReadCall.isFrame
      = readFrames payloads r.messageBeingReadFromConnection
        ++ (if r.connectionState = .awaitingPayloads
            then [.descriptor r.messageBeingReadFromConnection] else [])

/-- **The invariant of the reading half.** -/
structure ReadInv (g : Gate) (r : ReadSide) (ops : List ReadOperation) : Prop where
  queue : ReadQueue r.nextMessageBeingRead r.pending ops
  cursors : ReadCursors g r ops
  dchecks : r.dchecks = true
  log : ReadLog r

/-- What is left after a task that threw. -/
structure ReadSafe (r : ReadSide) (ops : List ReadOperation) : Prop where
  captured : ∀ call ∈ r.pending, ∀ n, call.captures = some n →
    ∃ op ∈ ops, op.sequenceNumber = n ∧ op.state ≠ .finished
  dchecks : r.dchecks = true
  log : ReadLog r

/-- The invariant contains what the callbacks rely on. -/
theorem ReadInv.safe {g : Gate} {r : ReadSide} {ops : List ReadOperation}
    (h : ReadInv g r ops) : ReadSafe r ops where
  captured := by
    intro c hc n hn
    obtain ⟨o, ho, rfl⟩ := h.queue.captured c hc n hn
    refine ⟨o, ho, rfl, ?_⟩
    intro hfin
    exact ReadQueue.no_call_of_finished (h.queue.locals o ho) hfin hc hn
  dchecks := h.dchecks
  log := h.log

/-- An error only takes obligations away. -/
theorem ReadInv.gate {g g' : Gate} {r : ReadSide} {ops : List ReadOperation}
    (h : ReadInv g r ops) (hg : g'.error = none → g.error = none) : ReadInv g' r ops :=
  { h with
    cursors := { h.cursors with
      connection := fun he => h.cursors.connection (hg he)
      connectionState := fun he => h.cursors.connectionState (hg he)
      described := fun he => h.cursors.described (hg he) } }

-- ── Firing a transition ──────────────────────────────────────────────────────

section Fire

variable {g : Gate} {r : ReadSide} {pre post : List ReadOperation} {op : ReadOperation}

/-- Replacing an operation by one alike changes no existence. -/
theorem exists_replace {q : ReadOperation → Prop} (op : ReadOperation)
    {op' : ReadOperation} (h : q op' ↔ q op) :
    (∃ o ∈ pre ++ op' :: post, q o) ↔ ∃ o ∈ pre ++ op :: post, q o := by
  simp [or_and_right, exists_or, h]

/-- Moving one operation moves each cursor by what the operation contributes. -/
theorem ReadCursors.replace {r' : ReadSide} {op' : ReadOperation}
    (h : ReadCursors g r (pre ++ op :: post))
    (hnext : r'.nextMessageBeingRead = r.nextMessageBeingRead)
    (haccepted : r'.accepted = r.accepted)
    (hdone : op'.doneGettingAllocation = op.doneGettingAllocation)
    (hexpected : ∀ n, r'.nextMessageGettingAllocation = some n ↔
      ∃ o ∈ pre ++ op' :: post, expectsRead o = true ∧ o.sequenceNumber = n)
    (hdescriptor : r'.nextReadDescriptorCallbackToCall + readUnit 2 op'.state
      = r.nextReadDescriptorCallbackToCall + readUnit 2 op.state)
    (hread : r'.nextReadCallbackToCall + readUnit 5 op'.state
      = r.nextReadCallbackToCall + readUnit 5 op.state)
    (hconn : g.error = none → r'.messageBeingReadFromConnection + readUnit 4 op'.state
      = r.messageBeingReadFromConnection + readUnit 4 op.state)
    (hstate : g.error = none →
      readUnit 4 op'.state + readUnit 1 op.state + r.connectionState.awaited
        = readUnit 4 op.state + readUnit 1 op'.state + r'.connectionState.awaited)
    (hdescribed : g.error = none → 2 ≤ op'.state.rank → op'.doneReadingDescriptor = true) :
    ReadCursors g r' (pre ++ op' :: post) := by
  have hb := fun k => readBelow_replace k pre post op op'
  constructor
  · exact hexpected
  · have h2 := h.descriptorCallback
    have := hb 2
    omega
  · have h5 := h.readCallback
    have := hb 5
    omega
  · intro he
    have h4 := h.connection he
    have := hb 4
    have := hconn he
    omega
  · intro he
    have h4 := h.connectionState he
    have := hb 4
    have := hb 1
    have := hstate he
    omega
  · intro he o ho
    rcases List.mem_append.mp ho with hpre | hmid
    · exact h.described he o (by simp [hpre])
    · rcases List.mem_cons.mp hmid with rfl | hpost
      · exact hdescribed he
      · exact h.described he o (by simp [hpost])
  · rw [hnext, haccepted, ← h.accepted]
    simp [List.countP_append, List.countP_cons, hdone]

/-- A new state for an operation that has no call in flight and whose flags agree
    with it. -/
theorem ReadLocal.withState {pending : List ReadCall} {st : ReadState}
    (h : ReadLocal pending op)
    (hdesc : ¬ (op.state = .readingDescriptor ∧ op.doneReadingDescriptor = false))
    (hidle : op.numPayloadsBeingRead = 0 ∧ op.numTensorsBeingReceived = 0)
    (hst : st ≠ .uninitialized ∧ st ≠ .readingDescriptor)
    (hdone : 3 ≤ st.rank → op.doneReadingDescriptor = true)
    (halloc : st.rank < 3 → op.state.rank < 3)
    (hgot : 4 ≤ st.rank → op.doneGettingAllocation = true) :
    ReadLocal pending { op with state := st } where
  descriptorRead := by
    have hd := h.descriptorRead
    rw [if_neg hdesc] at hd
    rw [if_neg (fun hx => hst.2 hx.1)]
    exact hd
  payloadReads := h.payloadReads
  tensorRecvs := h.tensorRecvs
  idle := fun _ => hidle
  fresh := fun hu => absurd hu hst.1
  blank := h.blank
  described := hdone
  unallocated := fun hlt => h.unallocated (halloc hlt)
  allocated := hgot
  compatible := h.compatible
  missing := h.missing

/-- Unchanged pending calls give the frame conditions of `ReadQueue.replace`. -/
theorem ReadQueue.withState {next : Nat} {pending : List ReadCall} {st : ReadState}
    (h : ReadQueue next pending (pre ++ op :: post))
    (hrank : op.state.rank ≤ st.rank)
    (hfol : ReadFollows (lastState .finished pre) { op with state := st })
    (hlocal : ReadLocal pending { op with state := st }) :
    ReadQueue next pending (pre ++ { op with state := st } :: post) :=
  h.replace rfl hrank hfol (fun _ _ => ⟨rfl, rfl, rfl⟩) (fun _ hc => Or.inl hc) hlocal

/-- The readDescriptor callback, on the two ways into asking for an allocation. -/
theorem readInv_describe (h : ReadInv g r (pre ++ op :: post))
    (hst : (op.state = .uninitialized ∧ g.error ≠ none)
      ∨ (op.state = .readingDescriptor ∧ op.doneReadingDescriptor = true))
    (hprev : 2 ≤ (lastState ReadState.finished pre).rank) :
    (runActions [callReadDescriptorCallback g] (r, op)).Post
      (fun y => ReadInv g y.1
        (pre ++ withState y.2 ReadState.askingForAllocation :: post))
      (fun y => ReadSafe y.1 (pre ++ y.2 :: post)) := by
  have hloc := h.queue.locals op (by simp)
  have hlow : op.state.rank < 2 := by
    rcases hst with ⟨he, -⟩ | ⟨he, -⟩ <;> rw [he] <;> decide
  have hne : op.state ≠ .readingPayloadsAndReceivingTensors
      ∧ op.state ≠ .askingForAllocationFirstInLine := by
    rcases hst with ⟨he, -⟩ | ⟨he, -⟩ <;> rw [he] <;> decide
  have hcur := h.queue.cursor hprev hlow
  have hcb := h.cursors.descriptorCallback
  have hseq : op.sequenceNumber = r.nextReadDescriptorCallbackToCall := by omega
  show ReadInv g
    { r.dcheck (op.sequenceNumber == r.nextReadDescriptorCallbackToCall) with
        nextReadDescriptorCallbackToCall := r.nextReadDescriptorCallbackToCall + 1
        called := r.called
          ++ [.readDescriptor op.sequenceNumber g.error op.descriptor] }
    (pre ++ { op with state := .askingForAllocation } :: post)
  rw [ReadSide.dcheck_true _ (by simpa using hseq)]
  refine ⟨?_, ?_, h.dchecks, ?_⟩
  · refine h.queue.withState (show op.state.rank ≤ 2 by omega)
      ⟨hprev, fun h3 => absurd h3 (by show ¬ 3 ≤ 2; omega)⟩ ?_
    refine hloc.withState ?_ (hloc.idle hne.1) (by decide)
      (fun h3 => absurd h3 (by decide)) (fun _ => by omega)
      (fun h4 => absurd h4 (by decide))
    rcases hst with ⟨he, -⟩ | ⟨-, hd⟩
    · simp [he]
    · simp [hd]
  · refine h.cursors.replace rfl rfl rfl ?_ ?_ ?_ ?_ ?_ ?_
    · intro n
      rw [exists_replace op (by simp [expectsRead, hne.2])]
      exact h.cursors.expected n
    · rcases hst with ⟨he, -⟩ | ⟨he, -⟩ <;> rw [he] <;> rfl
    · rcases hst with ⟨he, -⟩ | ⟨he, -⟩ <;> rw [he] <;> rfl
    · rcases hst with ⟨he, -⟩ | ⟨he, -⟩ <;> rw [he] <;> exact fun _ => rfl
    · intro hnone
      rcases hst with ⟨-, herr⟩ | ⟨he, -⟩
      · exact absurd hnone herr
      · rw [he]
        rfl
    · intro hnone _
      rcases hst with ⟨-, herr⟩ | ⟨-, hd⟩
      · exact absurd hnone herr
      · exact hd
  · exact { h.log with
      descriptorsCalled := by
        show (r.called ++ [_]).filterMap _ = List.range (_ + 1)
        rw [List.filterMap_append, h.log.descriptorsCalled, List.range_succ, ← hseq]
        rfl
      readsCalled := by
        show (r.called ++ [_]).filterMap _ = _
        rw [List.filterMap_append, h.log.readsCalled]
        exact List.append_nil _
      released := by
        intro n error outstanding hmem
        rcases List.mem_append.mp hmem with hold | hnew
        · exact h.log.released n error outstanding hold
        · exact nomatch List.mem_singleton.mp hnew }

/-- The descriptor read.  Both cursors of the connection stand at this operation. -/
theorem readInv_readDescriptor (h : ReadInv g r (pre ++ op :: post))
    (hst : op.state = .uninitialized) (herr : g.error = none)
    (hprev : 4 ≤ (lastState ReadState.finished pre).rank) :
    (runActions [readDescriptorOfMessage] (r, op)).Post
      (fun y => ReadInv g y.1 (pre ++ withState y.2 ReadState.readingDescriptor :: post))
      (fun y => ReadSafe y.1 (pre ++ y.2 :: post)) := by
  have hloc := h.queue.locals op (by simp)
  have hlow : op.state.rank < 1 := by rw [hst]; decide
  have hcur1 := h.queue.cursor (k := 1) (by omega) hlow
  have hcur4 := h.queue.cursor hprev (by omega)
  have hmsg := h.cursors.connection herr
  have hconn := h.cursors.connectionState herr
  have hseq : r.messageBeingReadFromConnection = op.sequenceNumber := by omega
  have hwait : r.connectionState = .awaitingDescriptor := by
    cases hc : r.connectionState with
    | awaitingDescriptor => rfl
    | awaitingPayloads =>
        rw [hc] at hconn
        have h1 : readBelow 4 (pre ++ op :: post) = readBelow 1 (pre ++ op :: post) + 1 :=
          hconn
        omega
  show ReadInv g
    { ((r.dcheck (r.connectionState == .awaitingDescriptor)).dcheck
        ((r.dcheck (r.connectionState == .awaitingDescriptor)).messageBeingReadFromConnection
          == op.sequenceNumber)).issue [.descriptor op.sequenceNumber] with
      connectionState := .awaitingPayloads }
    (pre ++ { op with state := .readingDescriptor } :: post)
  rw [ReadSide.dcheck_true r (by simpa using hwait),
    ReadSide.dcheck_true r (by simpa using hseq)]
  obtain ⟨hp0, ht0⟩ := hloc.idle (by rw [hst]; decide)
  refine ⟨?_, ?_, h.dchecks, ?_⟩
  · refine h.queue.replace rfl (show op.state.rank ≤ 1 by omega)
      ⟨show 1 ≤ _ by omega, fun h3 => absurd h3 (by show ¬ 3 ≤ 1; omega)⟩ ?_ ?_ ?_
    · intro n hn
      refine sameReadCalls_issue ?_
      intro c hc
      obtain rfl := List.mem_singleton.mp hc
      exact Ne.symm hn
    · intro c hc
      rcases List.mem_append.mp hc with hold | hnew
      · exact Or.inl hold
      · obtain rfl := List.mem_singleton.mp hnew
        exact Or.inr rfl
    · constructor
      · have hd := hloc.descriptorRead
        rw [if_neg (by simp [hst])] at hd
        show (r.pending ++ [_]).countP _ = _
        rw [if_pos ⟨rfl, hloc.fresh hst⟩, List.countP_append]
        rw [show r.pending.countP (ReadCall.isDescriptor
          ({ op with state := .readingDescriptor } : ReadOperation).sequenceNumber) = 0
          from hd]
        simp [ReadCall.isDescriptor]
      · have hp := hloc.payloadReads
        show (r.pending ++ [_]).countP _ = _
        rw [List.countP_append, hp]
        rfl
      · have ht := hloc.tensorRecvs
        show (r.pending ++ [_]).countP _ = _
        rw [List.countP_append, ht]
        rfl
      · exact fun _ => ⟨hp0, ht0⟩
      · exact fun hu => nomatch hu
      · exact hloc.blank
      · exact fun h3 => absurd h3 (by show ¬ 3 ≤ 1; omega)
      · exact fun _ => hloc.unallocated (by omega)
      · exact fun h4 => absurd h4 (by show ¬ 4 ≤ 1; omega)
      · exact hloc.compatible
      · exact hloc.missing
  · refine h.cursors.replace rfl rfl rfl ?_ ?_ ?_ ?_ ?_ ?_
    · intro n
      rw [exists_replace op (by simp [expectsRead, hst])]
      exact h.cursors.expected n
    · rw [hst]; rfl
    · rw [hst]; rfl
    · rw [hst]; exact fun _ => rfl
    · rw [hst, hwait]; exact fun _ => rfl
    · exact fun _ h2 => absurd h2 (by show ¬ 2 ≤ 1; omega)
  · refine { h.log with frames := ?_ }
    obtain ⟨payloads, hpay, hframes⟩ := h.log.frames
    refine ⟨payloads, hpay, ?_⟩
    rw [hwait, if_neg (by decide), List.append_nil] at hframes
    show (r.issued ++ [_]).filter _ = readFrames payloads r.messageBeingReadFromConnection
      ++ [.descriptor r.messageBeingReadFromConnection]
    rw [List.filter_append, hframes, hseq]
    rfl

/-- First in line: no other operation expects a read call. -/
theorem readInv_expect (h : ReadInv g r (pre ++ op :: post))
    (hst : op.state = .askingForAllocation) (hdone : op.doneReadingDescriptor = true)
    (hprev : 4 ≤ (lastState ReadState.finished pre).rank) :
    (runActions [expectReadCall] (r, op)).Post
      (fun y => ReadInv g y.1
        (pre ++ withState y.2 ReadState.askingForAllocationFirstInLine :: post))
      (fun y => ReadSafe y.1 (pre ++ y.2 :: post)) := by
  have hloc := h.queue.locals op (by simp)
  have hrank : op.state.rank = 2 := by rw [hst]; rfl
  have hnodone := hloc.unallocated (by omega)
  have hother : ∀ o, o ∈ pre ∨ o ∈ post → expectsRead o = false := by
    intro o ho
    have hne : o.state ≠ .askingForAllocationFirstInLine := by
      intro he
      have h3 : o.state.rank = 3 := by rw [he]; rfl
      rcases ho with hpre | hpost
      · have := h.queue.pre_rank hpre
        omega
      · have := h.queue.post_rank hpost
        omega
    simp [expectsRead, hne]
  have hnone : r.nextMessageGettingAllocation = none := by
    rw [Option.eq_none_iff_forall_ne_some]
    intro n hn
    obtain ⟨o, ho, hexp, -⟩ := (h.cursors.expected n).mp hn
    rcases List.mem_append.mp ho with hpre | hmid
    · rw [hother o (Or.inl hpre)] at hexp
      exact nomatch hexp
    · rcases List.mem_cons.mp hmid with rfl | hpost
      · simp [expectsRead, hst] at hexp
      · rw [hother o (Or.inr hpost)] at hexp
        exact nomatch hexp
  show ReadInv g
    { r.dcheck r.nextMessageGettingAllocation.isNone with
      nextMessageGettingAllocation := some op.sequenceNumber }
    (pre ++ { op with state := .askingForAllocationFirstInLine } :: post)
  rw [ReadSide.dcheck_true _ (by rw [hnone]; rfl)]
  refine ⟨?_, ?_, h.dchecks, ?_⟩
  · refine h.queue.withState (show op.state.rank ≤ 3 by omega)
      ⟨show 3 ≤ _ by omega, fun _ => hprev⟩ ?_
    exact hloc.withState (by simp [hst]) (hloc.idle (by rw [hst]; decide)) (by decide)
      (fun _ => hdone) (fun h3 => absurd h3 (by decide)) (fun h4 => absurd h4 (by decide))
  · refine h.cursors.replace rfl rfl rfl ?_ ?_ ?_ ?_ ?_ ?_
    · intro n
      constructor
      · intro hn
        exact ⟨{ op with state := .askingForAllocationFirstInLine }, by simp,
          by simp [expectsRead, hnodone], Option.some.inj hn⟩
      · rintro ⟨o, ho, hexp, rfl⟩
        rcases List.mem_append.mp ho with hpre | hmid
        · rw [hother o (Or.inl hpre)] at hexp
          exact nomatch hexp
        · rcases List.mem_cons.mp hmid with rfl | hpost
          · rfl
          · rw [hother o (Or.inr hpost)] at hexp
            exact nomatch hexp
    · rw [hst]; rfl
    · rw [hst]; rfl
    · rw [hst]; exact fun _ => rfl
    · rw [hst]; exact fun _ => rfl
    · exact fun _ _ => hdone
  · exact { h.log with }

/-- The read callback, on the two ways to the end.  No call of this message is
    outstanding there. -/
theorem readInv_finish (h : ReadInv g r (pre ++ op :: post))
    (hst : (op.state = .askingForAllocationFirstInLine ∧ g.error ≠ none)
      ∨ op.state = .readingPayloadsAndReceivingTensors)
    (halloc : op.doneGettingAllocation = true)
    (hidle : op.numPayloadsBeingRead = 0 ∧ op.numTensorsBeingReceived = 0)
    (hprev : 5 ≤ (lastState ReadState.finished pre).rank) :
    (runActions [callReadCallback g] (r, op)).Post
      (fun y => ReadInv g y.1 (pre ++ withState y.2 ReadState.finished :: post))
      (fun y => ReadSafe y.1 (pre ++ y.2 :: post)) := by
  have hloc := h.queue.locals op (by simp)
  have hrank : 3 ≤ op.state.rank ∧ op.state.rank < 5 := by
    rcases hst with ⟨he, -⟩ | he <;> rw [he] <;> decide
  have hdesc : op.state ≠ .readingDescriptor := by
    rcases hst with ⟨he, -⟩ | he <;> rw [he] <;> decide
  have hcur := h.queue.cursor hprev hrank.2
  have hcb := h.cursors.readCallback
  have hseq : op.sequenceNumber = r.nextReadCallbackToCall := by omega
  show ReadInv g
    { r.dcheck (op.sequenceNumber == r.nextReadCallbackToCall) with
        nextReadCallbackToCall := r.nextReadCallbackToCall + 1
        called := r.called ++ [.read op.sequenceNumber g.error
          (r.dcheck (op.sequenceNumber == r.nextReadCallbackToCall)).pending] }
    (pre ++ { op with state := .finished } :: post)
  rw [ReadSide.dcheck_true _ (by simpa using hseq)]
  refine ⟨?_, ?_, h.dchecks, ?_⟩
  · refine h.queue.withState (show op.state.rank ≤ 5 by omega)
      ⟨hprev, fun _ => by omega⟩ ?_
    exact hloc.withState (fun hx => hdesc hx.1) hidle (by decide)
      (fun _ => hloc.described hrank.1) (fun h3 => absurd h3 (by decide)) (fun _ => halloc)
  · refine h.cursors.replace rfl rfl rfl ?_ ?_ ?_ ?_ ?_ ?_
    · intro n
      rw [exists_replace op (by simp [expectsRead, halloc])]
      exact h.cursors.expected n
    · rcases hst with ⟨he, -⟩ | he <;> rw [he] <;> rfl
    · rcases hst with ⟨he, -⟩ | he <;> rw [he] <;> rfl
    · intro hnone
      rcases hst with ⟨-, herr⟩ | he
      · exact absurd hnone herr
      · rw [he]; rfl
    · intro hnone
      rcases hst with ⟨-, herr⟩ | he
      · exact absurd hnone herr
      · rw [he]; rfl
    · exact fun _ _ => hloc.described hrank.1
  · exact { h.log with
      descriptorsCalled := by
        show (r.called ++ [_]).filterMap _ = _
        rw [List.filterMap_append, h.log.descriptorsCalled]
        exact List.append_nil _
      readsCalled := by
        show (r.called ++ [_]).filterMap _ = List.range (_ + 1)
        rw [List.filterMap_append, h.log.readsCalled, List.range_succ, ← hseq]
        rfl
      released := by
        intro n error outstanding hmem
        rcases List.mem_append.mp hmem with hold | hnew
        · exact h.log.released n error outstanding hold
        · obtain ⟨rfl, -, rfl⟩ := ReadCallback.read.inj (List.mem_singleton.mp hnew)
          have hp := hloc.payloadReads
          have ht := hloc.tensorRecvs
          rw [hidle.1] at hp
          rw [hidle.2] at ht
          intro c hc
          exact ⟨Bool.eq_false_iff.mpr (List.countP_eq_zero.mp hp c hc),
            Bool.eq_false_iff.mpr (List.countP_eq_zero.mp ht c hc)⟩ }

end Fire

-- ── Starting to read a message ───────────────────────────────────────────────

/-- The receives of the tensors, when every device pair has its channel. -/
def tensorRecvs (g : Gate) (op : ReadOperation) : List ReadCall :=
  (op.allocation.tensors.zip op.descriptor.tensors).zipIdx.map (fun p =>
    .tensor ((g.channelForDevicePair.lookup
        (p.1.1.buffer.device, p.1.2.sourceDevice)).getD "")
      op.sequenceNumber p.2 p.1.1.buffer p.1.2.length)

/-- The reply to write, if the sender left target devices open. -/
def replyWrites (op : ReadOperation) : List ReadCall :=
  if op.hasMissingTargetDevices then
    [.descriptorReply op.sequenceNumber
      (makeDescriptorReplyForMessage op.descriptor op.allocation)]
  else []

/-- All the calls that start the reading of a message. -/
def messageReads (g : Gate) (op : ReadOperation) : List ReadCall :=
  payloadReads op ++ replyWrites op ++ tensorRecvs g op

/-- The fields after the reading of a message has started. -/
def startReading (r : ReadSide) (calls : List ReadCall) : ReadSide :=
  { r.issue calls with
    connectionState := .awaitingDescriptor
    messageBeingReadFromConnection := r.messageBeingReadFromConnection + 1 }

/-- What the actions that start a message do: everything, or a part of the tensors
    before the one without a channel. -/
def Started (g : Gate) (r : ReadSide) (op : ReadOperation) (y : ReadSide × ReadOperation) :
    Prop :=
  y = (startReading r (messageReads g op),
    { op with
      numPayloadsBeingRead := op.numPayloadsBeingRead + (payloadReads op).length
      numTensorsBeingReceived :=
        op.numTensorsBeingReceived + (tensorRecvs g op).length })

/-- An action that threw half way, having issued the calls before. -/
def Interrupted (r : ReadSide) (op : ReadOperation) (y : ReadSide × ReadOperation) : Prop :=
  ∃ recvs, (∀ c ∈ recvs, c.isTensor op.sequenceNumber = true) ∧
    y.1 = startReading r (payloadReads op ++ replyWrites op ++ recvs) ∧
    y.2.sequenceNumber = op.sequenceNumber ∧ y.2.state = op.state

/-- The loop issues one call for each tensor, or throws. -/
theorem receiveTensorsLoop_spec (g : Gate) :
    ∀ (l : List ((Allocation.Tensor × Descriptor.Tensor) × Nat)) (r : ReadSide)
      (op : ReadOperation),
      (receiveTensorsLoop g l r op).Post
        (fun y => y = (r.issue (l.map (fun p =>
            .tensor ((g.channelForDevicePair.lookup
                (p.1.1.buffer.device, p.1.2.sourceDevice)).getD "")
              op.sequenceNumber p.2 p.1.1.buffer p.1.2.length)),
          { op with numTensorsBeingReceived := op.numTensorsBeingReceived + l.length }))
        (fun y => ∃ recvs, (∀ c ∈ recvs, c.isTensor op.sequenceNumber = true) ∧
          y.1 = r.issue recvs ∧ y.2.sequenceNumber = op.sequenceNumber
            ∧ y.2.state = op.state) := by
  intro l
  induction l with
  | nil =>
      intro r op
      show (r, op) = (r.issue [], _)
      simp [ReadSide.issue]
  | cons p rest ih =>
      obtain ⟨⟨tensor, tensorDescriptor⟩, tensorIdx⟩ := p
      intro r op
      have hempty : ∃ recvs : List ReadCall,
          (∀ c ∈ recvs, c.isTensor op.sequenceNumber = true) ∧
          r = r.issue recvs ∧ op.sequenceNumber = op.sequenceNumber
            ∧ op.state = op.state :=
        ⟨[], fun c hc => (nomatch hc), by simp [ReadSide.issue], rfl, rfl⟩
      rw [receiveTensorsLoop]
      cases hch : g.channelForDevicePair.lookup
          (tensor.buffer.device, tensorDescriptor.sourceDevice) with
      | none => exact hempty
      | some channelName =>
          dsimp only
          by_cases hhas : g.hasChannel channelName = false
          · rw [if_pos hhas]
            exact hempty
          · rw [if_neg hhas]
            refine (ih _ _).imp ?_ ?_
            · rintro y rfl
              rw [ReadSide.issue_issue]
              simp [hch, Nat.add_assoc, Nat.add_comm 1]
            · rintro y ⟨recvs, hrecvs, hy1, hy2, hy3⟩
              refine ⟨.tensor channelName op.sequenceNumber tensorIdx tensor.buffer
                tensorDescriptor.length :: recvs, ?_, ?_, hy2, hy3⟩
              · intro c hc
                rcases List.mem_cons.mp hc with rfl | hmem
                · simp [ReadCall.isTensor]
                · exact hrecvs c hmem
              · rw [hy1, ReadSide.issue_issue]
                rfl

/-- The tensors of a message are received in order, or the action throws. -/
theorem receiveTensorsOfMessage_spec (g : Gate) (r : ReadSide) (op : ReadOperation)
    (hlen : op.descriptor.tensors.length = op.allocation.tensors.length) :
    (receiveTensorsOfMessage g r op).Post
      (fun y => y = (r.issue (tensorRecvs g op),
        { op with numTensorsBeingReceived :=
          op.numTensorsBeingReceived + (tensorRecvs g op).length }))
      (fun y => ∃ recvs, (∀ c ∈ recvs, c.isTensor op.sequenceNumber = true) ∧
        y.1 = r.issue recvs ∧ y.2.sequenceNumber = op.sequenceNumber
          ∧ y.2.state = op.state) := by
  rw [receiveTensorsOfMessage, ReadSide.dcheck_true _ (by simpa using hlen)]
  refine (receiveTensorsLoop_spec g _ r op).imp ?_ (fun y hy => hy)
  rintro y rfl
  simp [tensorRecvs]

/-- Both ways to start a message, with and without the reply. -/
theorem startMessage_spec {g : Gate} {r : ReadSide} {op : ReadOperation}
    (hwait : r.connectionState = .awaitingPayloads)
    (hmsg : r.messageBeingReadFromConnection = op.sequenceNumber)
    (hlen : op.descriptor.tensors.length = op.allocation.tensors.length)
    {actions : List (ReadSide → ReadOperation → Outcome (ReadSide × ReadOperation))}
    (hactions : (op.hasMissingTargetDevices = false
        ∧ actions = [readPayloadsOfMessage, receiveTensorsOfMessage g])
      ∨ (op.hasMissingTargetDevices = true
        ∧ actions = [readPayloadsOfMessage, writeDescriptorReplyOfMessage,
            receiveTensorsOfMessage g])) :
    (runActions actions (r, op)).Post (Started g r op) (Interrupted r op) := by
  have hpay : readPayloadsOfMessage r op = .returns
      (startReading r (payloadReads op),
        { op with
          numPayloadsBeingRead := op.numPayloadsBeingRead + (payloadReads op).length }) := by
    rw [readPayloadsOfMessage, ReadSide.dcheck_true r (by simpa using hwait),
      ReadSide.dcheck_true r (by simpa using hmsg)]
    rfl
  -- whatever the reply was, the tensors are handed out last
  have hlast : ∀ reply : List ReadCall, reply = replyWrites op →
      (runActions [receiveTensorsOfMessage g]
        ((startReading r (payloadReads op)).issue reply,
          { op with
            numPayloadsBeingRead :=
              op.numPayloadsBeingRead + (payloadReads op).length })).Post
        (Started g r op) (Interrupted r op) := by
    rintro reply rfl
    rw [runActions_single]
    let started : ReadOperation := { op with
      numPayloadsBeingRead := op.numPayloadsBeingRead + (payloadReads op).length }
    refine (receiveTensorsOfMessage_spec g _ started hlen).imp ?_ ?_
    · rintro y rfl
      simp [Started, started, startReading, messageReads, ReadSide.issue, tensorRecvs,
        List.append_assoc]
    · rintro y ⟨recvs, hrecvs, hy1, hy2, hy3⟩
      refine ⟨recvs, hrecvs, ?_, hy2, hy3⟩
      rw [hy1]
      simp [startReading, ReadSide.issue, List.append_assoc]
  rcases hactions with ⟨hmissing, rfl⟩ | ⟨hmissing, rfl⟩
  · rw [runActions, hpay, Outcome.bind_returns]
    have h := hlast [] (by simp [replyWrites, hmissing])
    simpa [ReadSide.issue] using h
  · rw [runActions, hpay, Outcome.bind_returns, runActions]
    have hreply : writeDescriptorReplyOfMessage (startReading r (payloadReads op))
        { op with
          numPayloadsBeingRead := op.numPayloadsBeingRead + (payloadReads op).length }
        = .returns ((startReading r (payloadReads op)).issue (replyWrites op),
          { op with
            numPayloadsBeingRead :=
              op.numPayloadsBeingRead + (payloadReads op).length }) := by
      rw [writeDescriptorReplyOfMessage, ReadSide.dcheck_true _ hmissing, replyWrites,
        if_pos hmissing]
    rw [hreply, Outcome.bind_returns]
    exact hlast _ rfl

section Start

variable {g : Gate} {r : ReadSide} {pre post : List ReadOperation} {op : ReadOperation}

/-- The reads of the payloads are just these. -/
theorem payloadReads_isPayload (op : ReadOperation) : ∀ c ∈ payloadReads op,
    c.isPayload op.sequenceNumber = true := by
  intro c hc
  obtain ⟨p, -, rfl⟩ := List.mem_map.mp hc
  simp [ReadCall.isPayload]

/-- The write of a reply is just this. -/
theorem replyWrites_reply (op : ReadOperation) : ∀ c ∈ replyWrites op,
    ∃ reply, c = .descriptorReply op.sequenceNumber reply := by
  intro c hc
  rw [replyWrites] at hc
  by_cases hm : op.hasMissingTargetDevices = true
  · rw [if_pos hm] at hc
    exact ⟨_, List.mem_singleton.mp hc⟩
  · rw [if_neg hm] at hc
    exact nomatch hc

/-- The calls for the tensors are just these. -/
theorem tensorRecvs_isTensor (g : Gate) (op : ReadOperation) : ∀ c ∈ tensorRecvs g op,
    c.isTensor op.sequenceNumber = true := by
  intro c hc
  obtain ⟨p, -, rfl⟩ := List.mem_map.mp hc
  simp [ReadCall.isTensor]

/-- The calls that start a message, sorted by kind. -/
structure MessageCalls (op : ReadOperation) (recvs : List ReadCall) : Prop where
  message : ∀ c ∈ payloadReads op ++ replyWrites op ++ recvs,
    c.message = op.sequenceNumber
  descriptors : (payloadReads op ++ replyWrites op ++ recvs).countP
    (ReadCall.isDescriptor op.sequenceNumber) = 0
  payloads : (payloadReads op ++ replyWrites op ++ recvs).countP
    (ReadCall.isPayload op.sequenceNumber) = (payloadReads op).length
  tensors : (payloadReads op ++ replyWrites op ++ recvs).countP
    (ReadCall.isTensor op.sequenceNumber) = recvs.length
  frames : (payloadReads op ++ replyWrites op ++ recvs).filter ReadCall.isFrame
    = payloadReads op

/-- The calls that one message makes, however far it came. -/
theorem messageCalls {recvs : List ReadCall}
    (hrecvs : ∀ c ∈ recvs, c.isTensor op.sequenceNumber = true) :
    MessageCalls op recvs := by
  have hpay := payloadReads_isPayload op
  have hrep := replyWrites_reply op
  constructor
  · intro c hc
    rcases List.mem_append.mp hc with hc | hc
    · rcases List.mem_append.mp hc with hc | hc
      · exact isPayload_message (hpay c hc)
      · obtain ⟨reply, rfl⟩ := hrep c hc
        rfl
    · exact isTensor_message (hrecvs c hc)
  · refine List.countP_eq_zero.mpr ?_
    intro c hc
    rcases List.mem_append.mp hc with hc | hc
    · rcases List.mem_append.mp hc with hc | hc
      · have := hpay c hc
        cases c <;> simp_all [ReadCall.isPayload, ReadCall.isDescriptor]
      · obtain ⟨reply, rfl⟩ := hrep c hc
        simp [ReadCall.isDescriptor]
    · have := hrecvs c hc
      cases c <;> simp_all [ReadCall.isTensor, ReadCall.isDescriptor]
  · rw [List.countP_append, List.countP_append, List.countP_eq_length.mpr hpay,
      List.countP_eq_zero.mpr, List.countP_eq_zero.mpr]
    · rfl
    · intro c hc
      have := hrecvs c hc
      cases c <;> simp_all [ReadCall.isTensor, ReadCall.isPayload]
    · intro c hc
      obtain ⟨reply, rfl⟩ := hrep c hc
      simp [ReadCall.isPayload]
  · rw [List.countP_append, List.countP_append, List.countP_eq_length.mpr hrecvs,
      List.countP_eq_zero.mpr, List.countP_eq_zero.mpr]
    · omega
    · intro c hc
      obtain ⟨reply, rfl⟩ := hrep c hc
      simp [ReadCall.isTensor]
    · intro c hc
      have := hpay c hc
      cases c <;> simp_all [ReadCall.isTensor, ReadCall.isPayload]
  · rw [List.filter_append, List.filter_append, List.filter_eq_self.mpr,
      List.filter_eq_nil_iff.mpr, List.filter_eq_nil_iff.mpr]
    · simp
    · intro c hc
      have := hrecvs c hc
      cases c <;> simp_all [ReadCall.isTensor, ReadCall.isFrame]
    · intro c hc
      obtain ⟨reply, rfl⟩ := hrep c hc
      simp [ReadCall.isFrame]
    · intro c hc
      have := hpay c hc
      cases c <;> simp_all [ReadCall.isPayload, ReadCall.isFrame]

/-- Starting a message completes the frames of that message. -/
theorem readLog_start (h : ReadLog r) (hwait : r.connectionState = .awaitingPayloads)
    (hmsg : r.messageBeingReadFromConnection = op.sequenceNumber)
    {recvs : List ReadCall}
    (hrecvs : ∀ c ∈ recvs, c.isTensor op.sequenceNumber = true) :
    ReadLog (startReading r (payloadReads op ++ replyWrites op ++ recvs)) := by
  refine { h with frames := ?_ }
  obtain ⟨payloads, hpay, hframes⟩ := h.frames
  refine ⟨Function.update payloads op.sequenceNumber (payloadReads op), ?_, ?_⟩
  · intro k c hc
    by_cases hk : k = op.sequenceNumber
    · rw [hk] at hc ⊢
      rw [Function.update_self] at hc
      exact payloadReads_isPayload op c hc
    · rw [Function.update_of_ne hk] at hc
      exact hpay k c hc
  · have hold : readFrames (Function.update payloads op.sequenceNumber (payloadReads op))
        op.sequenceNumber = readFrames payloads op.sequenceNumber := by
      refine List.flatMap_congr ?_
      intro k hk
      rw [Function.update_of_ne (Nat.ne_of_lt (List.mem_range.mp hk))]
    show (r.issued ++ (payloadReads op ++ replyWrites op ++ recvs)).filter _
      = readFrames _ (r.messageBeingReadFromConnection + 1) ++ []
    rw [hwait, if_pos rfl, hmsg] at hframes
    rw [List.filter_append, hframes, (messageCalls hrecvs).frames, hmsg, readFrames_succ,
      hold, Function.update_self]
    simp

/-- The message that is first in line is the one whose payloads come next on the connection. -/
theorem payloads_next (h : ReadInv g r (pre ++ op :: post))
    (hst : op.state = .askingForAllocationFirstInLine) (herr : g.error = none) :
    r.connectionState = .awaitingPayloads
      ∧ r.messageBeingReadFromConnection = op.sequenceNumber := by
  have hrank : op.state.rank = 3 := by rw [hst]; rfl
  have hprev : 4 ≤ (lastState ReadState.finished pre).rank :=
    h.queue.follows.inLine (by omega)
  have hcur := h.queue.cursor hprev (by omega)
  have hcon := h.cursors.connection herr
  refine ⟨?_, by omega⟩
  have hstate := h.cursors.connectionState herr
  -- this operation is below the fourth rank and not below the first
  have hlt : readBelow 1 (pre ++ op :: post) < readBelow 4 (pre ++ op :: post) := by
    have h1 := readBelow_replace 1 pre post op { op with state := .finished }
    have h4 := readBelow_replace 4 pre post op { op with state := .finished }
    have hm := readBelow_mono (show 1 ≤ 4 by omega)
      (pre ++ { op with state := .finished } :: post)
    rw [hst] at h1 h4
    have e1 : readUnit 1 .askingForAllocationFirstInLine = 0 := rfl
    have e2 : readUnit 4 .askingForAllocationFirstInLine = 1 := rfl
    have e3 : readUnit 1 .finished = 0 := rfl
    have e4 : readUnit 4 .finished = 0 := rfl
    simp only [e1, e2, e3, e4] at h1 h4
    omega
  cases hc : r.connectionState with
  | awaitingPayloads => rfl
  | awaitingDescriptor =>
      rw [hc] at hstate
      have h0 : readBelow 4 (pre ++ op :: post) = readBelow 1 (pre ++ op :: post) + 0 :=
        hstate
      omega

/-- The operation whose message has started waits for the calls just issued. -/
theorem readLocal_start (hloc : ReadLocal r.pending op)
    (hst : op.state = .askingForAllocationFirstInLine)
    (halloc : op.doneGettingAllocation = true) :
    ReadLocal (r.pending ++ messageReads g op) { op with
      state := .readingPayloadsAndReceivingTensors
      numPayloadsBeingRead := op.numPayloadsBeingRead + (payloadReads op).length
      numTensorsBeingReceived :=
        op.numTensorsBeingReceived + (tensorRecvs g op).length } := by
  have hcalls := messageCalls (tensorRecvs_isTensor g op)
  have hrank : op.state.rank = 3 := by rw [hst]; rfl
  constructor
  · have hd := hloc.descriptorRead
    rw [if_neg (by simp [hst])] at hd
    rw [if_neg (by simp)]
    show (r.pending ++ messageReads g op).countP _ = 0
    rw [List.countP_append, hd]
    exact (Nat.zero_add _).trans hcalls.descriptors
  · show (r.pending ++ messageReads g op).countP _ = _ + _
    rw [List.countP_append, hloc.payloadReads]
    exact congrArg _ hcalls.payloads
  · show (r.pending ++ messageReads g op).countP _ = _ + _
    rw [List.countP_append, hloc.tensorRecvs]
    exact congrArg _ hcalls.tensors
  · exact fun hne => absurd rfl hne
  · exact fun hu => nomatch hu
  · exact hloc.blank
  · exact fun _ => hloc.described (by omega)
  · exact fun h3 => absurd h3 (by show ¬ 4 < 3; omega)
  · exact fun _ => halloc
  · exact hloc.compatible
  · exact hloc.missing

/-- A start that throws half way leaves what the callbacks rely on. -/
theorem readSafe_interrupted (h : ReadInv g r (pre ++ op :: post)) (hst : op.state ≠ .finished)
    (hwait : r.connectionState = .awaitingPayloads)
    (hmsg : r.messageBeingReadFromConnection = op.sequenceNumber)
    {y : ReadSide × ReadOperation} (hy : Interrupted r op y) :
    ReadSafe y.1 (pre ++ y.2 :: post) := by
  obtain ⟨recvs, hrecvs, hy1, hy2, hy3⟩ := hy
  have hcalls := messageCalls hrecvs
  refine ⟨?_, ?_, ?_⟩
  · intro c hc n hn
    rw [hy1] at hc
    have hback : ∃ o ∈ pre ++ op :: post, o.sequenceNumber = n ∧ o.state ≠ .finished := by
      rcases List.mem_append.mp hc with hold | hnew
      · exact h.safe.captured c hold n hn
      · refine ⟨op, by simp, ?_, hst⟩
        have hcm := hcalls.message c hnew
        cases c <;> simp_all [ReadCall.captures, ReadCall.message]
    obtain ⟨o, ho, hseq, hfin⟩ := hback
    rcases List.mem_append.mp ho with hpre | hmid
    · exact ⟨o, by simp [hpre], hseq, hfin⟩
    · rcases List.mem_cons.mp hmid with rfl | hpost
      · exact ⟨y.2, by simp, hy2.trans hseq, by rw [hy3]; exact hfin⟩
      · exact ⟨o, by simp [hpost], hseq, hfin⟩
  · rw [hy1]
    exact h.dchecks
  · rw [hy1]
    exact readLog_start h.log hwait hmsg hrecvs

/-- Payloads and tensors of a message are handed out once the allocation is there. -/
theorem readInv_start (h : ReadInv g r (pre ++ op :: post))
    (hst : op.state = .askingForAllocationFirstInLine) (herr : g.error = none)
    (halloc : op.doneGettingAllocation = true)
    {actions : List (ReadSide → ReadOperation → Outcome (ReadSide × ReadOperation))}
    (hactions : (op.hasMissingTargetDevices = false
        ∧ actions = [readPayloadsOfMessage, receiveTensorsOfMessage g])
      ∨ (op.hasMissingTargetDevices = true
        ∧ actions = [readPayloadsOfMessage, writeDescriptorReplyOfMessage,
            receiveTensorsOfMessage g])) :
    (runActions actions (r, op)).Post
      (fun y => ReadInv g y.1
        (pre ++ withState y.2 ReadState.readingPayloadsAndReceivingTensors :: post))
      (fun y => ReadSafe y.1 (pre ++ y.2 :: post)) := by
  have hloc := h.queue.locals op (by simp)
  have hrank : op.state.rank = 3 := by rw [hst]; rfl
  have hprev : 4 ≤ (lastState ReadState.finished pre).rank :=
    h.queue.follows.inLine (by omega)
  obtain ⟨hwait, hmsg⟩ := payloads_next h hst herr
  have hlen := (compatible_tensors (hloc.compatible halloc)).symm
  refine (startMessage_spec hwait hmsg hlen hactions).imp ?_
    (fun y => readSafe_interrupted h (by rw [hst]; decide) hwait hmsg)
  rintro y rfl
  have hcalls := messageCalls (tensorRecvs_isTensor g op)
  show ReadInv g (startReading r (messageReads g op)) (pre ++ { op with
    state := .readingPayloadsAndReceivingTensors
    numPayloadsBeingRead := op.numPayloadsBeingRead + (payloadReads op).length
    numTensorsBeingReceived :=
      op.numTensorsBeingReceived + (tensorRecvs g op).length } :: post)
  refine ⟨?_, ?_, h.dchecks, readLog_start h.log hwait hmsg (tensorRecvs_isTensor g op)⟩
  · refine h.queue.replace rfl (show op.state.rank ≤ 4 by omega)
      ⟨hprev, fun _ => hprev⟩ ?_ ?_ (readLocal_start hloc hst halloc)
    · intro n hn
      refine sameReadCalls_issue ?_
      intro c hc
      rw [hcalls.message c hc]
      exact Ne.symm hn
    · intro c hc
      rcases List.mem_append.mp hc with hold | hnew
      · exact Or.inl hold
      · exact Or.inr (hcalls.message c hnew)
  · refine h.cursors.replace rfl rfl rfl ?_ ?_ ?_ ?_ ?_ ?_
    · intro n
      rw [exists_replace op (by simp [expectsRead, halloc])]
      exact h.cursors.expected n
    · rw [hst]; rfl
    · rw [hst]; rfl
    · rw [hst]; exact fun _ => rfl
    · rw [hst, hwait]; exact fun _ => rfl
    · exact fun _ _ => hloc.described (by omega)

end Start

-- ── The walks ────────────────────────────────────────────────────────────────

/-- Each attempt of an operation keeps the invariant. -/
theorem readInv_fire {g : Gate} {r : ReadSide} {pre post : List ReadOperation}
    {op : ReadOperation} {t : Transition ReadSide ReadOperation ReadState}
    (h : ReadInv g r (pre ++ op :: post)) (ht : t ∈ advanceReadOperation g)
    (hsrc : op.state = t.source)
    (hcond : t.cond op (lastState ReadState.finished pre) = true) :
    (runActions t.actions (r, op)).Post
      (fun y => ReadInv g y.1 (pre ++ withState y.2 t.target :: post))
      (fun y => ReadSafe y.1 (pre ++ y.2 :: post)) := by
  have hloc := h.queue.locals op (by simp)
  simp only [advanceReadOperation, List.mem_cons, List.not_mem_nil, or_false] at ht
  rcases ht with rfl | rfl | rfl | rfl | rfl | rfl | rfl | rfl <;>
    simp only [Bool.and_eq_true, decide_eq_true_eq, Option.isSome_iff_ne_none,
      Option.isNone_iff_eq_none, Bool.not_eq_true', beq_iff_eq] at hsrc hcond
  · exact readInv_describe h (Or.inl ⟨hsrc, hcond.1⟩) hcond.2
  · exact readInv_readDescriptor h hsrc hcond.1.1 hcond.2
  · exact readInv_describe h (Or.inr ⟨hsrc, hcond.1⟩) hcond.2
  · exact readInv_expect h hsrc hcond.1 hcond.2
  · exact readInv_finish h (Or.inl ⟨hsrc, hcond.1.1⟩) hcond.1.2
      (hloc.idle (by rw [hsrc]; decide)) hcond.2
  · exact readInv_start h hsrc hcond.1.1 hcond.1.2 (Or.inl ⟨hcond.2, rfl⟩)
  · exact readInv_start h hsrc hcond.1.1 hcond.1.2 (Or.inr ⟨hcond.2, rfl⟩)
  · exact readInv_finish h (Or.inr hsrc) (hloc.allocated (by rw [hsrc]; decide))
      hcond.1 hcond.2

/-- A finished operation is below no stage. -/
theorem readBelow_cons_finished {k : Nat} (hk : k ≤ 5) {op : ReadOperation}
    (hfin : op.state = .finished) (ops : List ReadOperation) :
    readBelow k (op :: ops) = readBelow k ops := by
  have hnot : ¬ op.state.rank < k := by rw [hfin]; exact Nat.not_lt.mpr hk
  simp [readBelow, hnot]

/-- Popping a finished operation keeps the invariant. -/
theorem readInv_pop {g : Gate} {r : ReadSide} {ops : List ReadOperation}
    {op : ReadOperation} (h : ReadInv g r (op :: ops)) (hfin : op.state = .finished) :
    ReadInv g r ops := by
  refine ⟨h.queue.pop hfin, ?_, h.dchecks, h.log⟩
  constructor
  · intro n
    rw [h.cursors.expected n]
    simp [expectsRead, hfin]
  · rw [← readBelow_cons_finished (by omega) hfin]
    exact h.cursors.descriptorCallback
  · rw [← readBelow_cons_finished (by omega) hfin]
    exact h.cursors.readCallback
  · rw [← readBelow_cons_finished (by omega) hfin]
    exact h.cursors.connection
  · rw [← readBelow_cons_finished (by omega) hfin,
      ← readBelow_cons_finished (by omega) hfin ops]
    exact h.cursors.connectionState
  · exact fun he o ho => h.cursors.described he o (by simp [ho])
  · have hgot := (h.queue.locals op (by simp)).allocated (by rw [hfin]; decide)
    have hacc := h.cursors.accepted
    rwa [List.countP_cons_of_neg (by simp [hgot])] at hacc

/-- **Every walk keeps the invariant of the reading half.** -/
theorem readInv_preserves (g : Gate) :
    Preserves (advanceReadOperation g) (ReadInv g) ReadSafe where
  numbered := fun _ _ h => ⟨_, h.queue.numbered⟩
  fire := fun _ _ _ _ _ h ht hsrc hcond => readInv_fire h ht hsrc hcond
  pop := fun _ _ _ h hfin => readInv_pop h hfin

/-- The finished operations come first. -/
theorem readInv_finishedFirst (g : Gate) (r : ReadSide) (ops : List ReadOperation)
    (h : ReadInv g r ops) : FinishedFirst ops := by
  refine finishedFirst_of_rank ReadState.rank (fun _ _ hf => ReadFollows.le hf) ?_
    h.queue.chained
  intro st hst
  cases st <;> first | rfl | exact absurd hst (by decide)

/-- The loop leaves the number of the operation. -/
theorem receiveTensorsLoop_number (g : Gate)
    (l : List ((Allocation.Tensor × Descriptor.Tensor) × Nat)) :
    ∀ (r : ReadSide) (op : ReadOperation),
      (receiveTensorsLoop g l r op).state.2.sequenceNumber = op.sequenceNumber := by
  induction l with
  | nil => intro r op; rfl
  | cons p rest ih =>
      intro r op
      rw [receiveTensorsLoop]
      cases g.channelForDevicePair.lookup (p.1.1.buffer.device, p.1.2.sourceDevice) with
      | none => rfl
      | some channelName =>
          dsimp only
          by_cases hhas : g.hasChannel channelName = false
          · rw [if_pos hhas]; rfl
          · rw [if_neg hhas]; exact ih _ _

/-- The transitions of a read operation only point forward. -/
theorem advanceReadOperation_forward (g : Gate) : Forward (advanceReadOperation g) where
  later := by simp [advanceReadOperation]
  moves := by simp [advanceReadOperation]
  notFinished := by
    intro t ht
    simp only [advanceReadOperation, List.mem_cons, List.not_mem_nil, or_false] at ht
    rcases ht with rfl | rfl | rfl | rfl | rfl | rfl | rfl | rfl <;>
      exact fun he => nomatch he
  keepsNumber := by
    intro t ht a ha r op
    have hrecv : (receiveTensorsOfMessage g r op).state.2.sequenceNumber
        = op.sequenceNumber := receiveTensorsLoop_number g _ _ _
    simp only [advanceReadOperation, List.mem_cons, List.not_mem_nil, or_false] at ht
    rcases ht with rfl | rfl | rfl | rfl | rfl | rfl | rfl | rfl <;>
      simp only [List.mem_cons, List.not_mem_nil, or_false] at ha <;>
      rcases ha with rfl | rfl | rfl <;>
      first | rfl | exact hrecv

/-- The reading half between two tasks. -/
def ReadRest (g : Gate) : Reads → Prop := AtRest (advanceReadOperation g) (ReadInv g)

-- ── Tasks ────────────────────────────────────────────────────────────────────

section Tasks

variable {g g' : Gate} {x : Reads}

/-- Advancing one operation of a queue in which only that one may have been
    touched since it was at rest. -/
theorem advanceReads_rest {r : ReadSide} {ops : List ReadOperation} {n : Nat}
    (hinv : ReadInv g r ops) (hno : ∀ o ∈ ops, o.state ≠ .finished)
    (hmem : ∃ o ∈ ops, o.sequenceNumber = n)
    (hch : Chained (fun p o => sequenceNumber o = n
      ∨ ¬ Enabled (advanceReadOperation g) p o) ReadState.finished ops) :
    (advanceOperation (advanceReadOperation g) r ops n).Post (ReadRest g)
      (fun y => ReadSafe y.1 y.2) :=
  advanceOperation_atRest (readInv_preserves g) (advanceReadOperation_forward g)
    (readInv_finishedFirst g) hinv hno hmem hch

/-- Replacing an operation by one alike leaves the sequence at rest. -/
theorem onReads_rest {r r' : ReadSide} {ops : List ReadOperation} {n : Nat}
    {f : ReadOperation → ReadOperation} (h : ReadRest g (r, ops))
    (hstate : ∀ op, (f op).state = op.state)
    (hnumber : ∀ op, (f op).sequenceNumber = op.sequenceNumber)
    (hmem : ∃ o ∈ ops, o.sequenceNumber = n)
    (hinv : ReadInv g r' (modifyOperation n f ops)) :
    (advanceOperation (advanceReadOperation g) r' (modifyOperation n f ops) n).Post
      (ReadRest g) (fun y => ReadSafe y.1 y.2) :=
  advanceOperation_modify_atRest (readInv_preserves g) (advanceReadOperation_forward g)
    (readInv_finishedFirst g) h hstate hnumber hmem hinv

/-- Advancing all reads leaves the sequence at rest. -/
theorem readRest_advanceAll (h : ReadRest g x) (hg : g'.error = none → g.error = none) :
    (advanceAllReads g' x).Post (ReadRest g') (fun y => ReadSafe y.1 y.2) :=
  advanceAllOperations_atRest (readInv_preserves g') (advanceReadOperation_forward g')
    (readInv_finishedFirst g') (h.inv.gate hg) h.unfinished

/-- Whether a transition is enabled depends on the gate only through the error and
    the flag. -/
theorem readEnabled_gate (herr : g'.error = g.error)
    (hest : g'.established = true → g.established = true) {p : ReadState} {op : ReadOperation}
    (h : Enabled (advanceReadOperation g') p op) :
    Enabled (advanceReadOperation g) p op := by
  obtain ⟨t, ht, hsrc, hcond⟩ := h
  simp only [advanceReadOperation, herr, List.mem_cons, List.not_mem_nil,
    or_false] at ht
  simp only [Enabled, advanceReadOperation, List.mem_cons, List.not_mem_nil, or_false,
    exists_eq_or_imp, exists_eq_left]
  rcases ht with rfl | rfl | rfl | rfl | rfl | rfl | rfl | rfl <;> simp_all

/-- As long as nothing is established and no error is set, a new gate changes
    nothing. -/
theorem readRest_gate (h : ReadRest g x) (herr : g'.error = g.error)
    (hest : g'.established = true → g.established = true) : ReadRest g' x where
  inv := h.inv.gate (fun he => herr ▸ he)
  unfinished := h.unfinished
  stable := chained_imp (fun _ _ _ hno hen => hno (readEnabled_gate herr hest hen)) h.stable

/-- A pipe starts with an empty reading half. -/
theorem readRest_init (g : Gate) : ReadRest g ({}, []) where
  inv := by
    refine ⟨⟨trivial, trivial, fun _ h => (nomatch h), fun _ h => (nomatch h)⟩, ?_, rfl, ?_⟩
    · refine ⟨?_, rfl, rfl, fun _ => rfl, fun _ => rfl, fun _ _ h => (nomatch h), rfl⟩
      intro n
      constructor
      · exact fun h => nomatch h
      · rintro ⟨o, ho, -⟩
        exact nomatch ho
    · exact ⟨rfl, rfl, rfl, fun _ _ _ h => (nomatch h), fun _ => [], fun _ _ h => (nomatch h),
        rfl⟩
  unfinished := fun _ h => (nomatch h)
  stable := trivial

/-- A new operation, before anything has been tried on it. -/
theorem readInv_push {r : ReadSide} {ops : List ReadOperation} (hinv : ReadInv g r ops) :
    ReadInv g { r with nextMessageBeingRead := r.nextMessageBeingRead + 1 }
      (ops ++ [{ sequenceNumber := r.nextMessageBeingRead }]) := by
  let op : ReadOperation := { sequenceNumber := r.nextMessageBeingRead }
  have hbelow : ∀ k, 1 ≤ k → readBelow k (ops ++ [op]) = readBelow k ops + 1 := by
    intro k hk
    have hlt : op.state.rank < k := hk
    simp [readBelow, hlt]
  show ReadInv g _ (ops ++ [op])
  refine ⟨hinv.queue.push, ?_, hinv.dchecks, { hinv.log with }⟩
  constructor
  · intro n
    rw [show (∃ o ∈ ops ++ [op], expectsRead o = true ∧ o.sequenceNumber = n)
      ↔ ∃ o ∈ ops, expectsRead o = true ∧ o.sequenceNumber = n by
        simp [or_and_right, exists_or, op, expectsRead]]
    exact hinv.cursors.expected n
  · have := hinv.cursors.descriptorCallback
    have := hbelow 2 (by omega)
    show r.nextReadDescriptorCallbackToCall + _ = r.nextMessageBeingRead + 1
    omega
  · have := hinv.cursors.readCallback
    have := hbelow 5 (by omega)
    show r.nextReadCallbackToCall + _ = r.nextMessageBeingRead + 1
    omega
  · intro he
    have := hinv.cursors.connection he
    have := hbelow 4 (by omega)
    show r.messageBeingReadFromConnection + _ = r.nextMessageBeingRead + 1
    omega
  · intro he
    have := hinv.cursors.connectionState he
    have := hbelow 4 (by omega)
    have := hbelow 1 (by omega)
    show _ = _ + r.connectionState.awaited
    omega
  · intro he o ho hrank
    rcases List.mem_append.mp ho with hold | hnew
    · exact hinv.cursors.described he o hold hrank
    · obtain rfl := List.mem_singleton.mp hnew
      exact absurd hrank (by show ¬ 2 ≤ 0; omega)
  · have hacc := hinv.cursors.accepted
    rw [List.countP_append, List.countP_cons_of_pos (by simp [op]), List.countP_nil]
    show r.accepted.length + _ = r.nextMessageBeingRead + 1
    omega

/-- A call of `readDescriptor` leaves the sequence at rest. -/
theorem readRest_readDescriptor (h : ReadRest g x) :
    (readDescriptorFromLoop g x).Post (ReadRest g) (fun y => ReadSafe y.1 y.2) := by
  obtain ⟨r, ops⟩ := x
  let op : ReadOperation := { sequenceNumber := r.nextMessageBeingRead }
  show (advanceOperation (advanceReadOperation g)
    { r with nextMessageBeingRead := r.nextMessageBeingRead + 1 } (ops ++ [op])
    op.sequenceNumber).Post _ _
  refine advanceReads_rest (readInv_push h.inv) ?_ ⟨op, by simp, rfl⟩ (stable_push op h.stable)
  intro o ho
  rcases List.mem_append.mp ho with hold | hnew
  · exact h.unfinished o hold
  · obtain rfl := List.mem_singleton.mp hnew
    exact fun hx => nomatch hx

/-- What an operation that waits for its allocation says of the others. -/
theorem count_unallocated_at {next : Nat} {pending : List ReadCall}
    {pre post : List ReadOperation} {op : ReadOperation}
    (h : ReadQueue next pending (pre ++ op :: post)) (hexp : expectsRead op = true) :
    (pre ++ op :: post).countP (fun o => !o.doneGettingAllocation) = post.length + 1 := by
  simp only [expectsRead, Bool.and_eq_true, beq_iff_eq, Bool.not_eq_true'] at hexp
  have hrank : op.state.rank = 3 := by rw [hexp.1]; rfl
  have hpre : pre.countP (fun o => !o.doneGettingAllocation) = 0 := by
    refine List.countP_eq_zero.mpr ?_
    intro o ho
    have h4 := h.follows.inLine (by omega)
    have hle := h.pre_rank ho
    simp [(h.locals o (by simp [ho])).allocated (by omega)]
  have hpost : post.countP (fun o => !o.doneGettingAllocation) = post.length := by
    refine List.countP_eq_length.mpr ?_
    intro o ho
    obtain ⟨q, hq, hqo⟩ := chained_post_mem (fun _ _ hf => ReadFollows.le hf) post _
      (chained_append.mp h.chained).2.2 o ho
    have hlt : o.state.rank < 3 := by
      by_contra hge
      have h4 := hqo.inLine (by omega)
      have h3 : q.rank ≤ op.state.rank := hq
      omega
    simp [(h.locals o (by simp [ho])).unallocated hlt]
  rw [List.countP_append, List.countP_cons_of_pos (by simp [hexp.2]), hpre, hpost]
  omega

/-- A legal read call.  The operation it is for is the one that expects it, and it
    is the only one. -/
theorem readInv_allocate {r : ReadSide} {pre post : List ReadOperation}
    {op : ReadOperation} (h : ReadInv g r (pre ++ op :: post))
    (hexp : expectsRead op = true) {allocation : Allocation}
    (hcompat : checkAllocationCompatibility op.descriptor allocation = true) :
    ReadInv g
      { r with
        nextMessageGettingAllocation := none
        accepted := r.accepted ++ [op.sequenceNumber] }
      (pre ++ { op with allocation := allocation, doneGettingAllocation := true }
        :: post) := by
  have hloc := h.queue.locals op (by simp)
  have hcount := count_unallocated_at h.queue hexp
  have hacc := h.cursors.accepted
  have hmid : op.sequenceNumber + post.length + 1 = r.nextMessageBeingRead :=
    numbered_mid h.queue.numbered
  have hmine := (h.cursors.expected op.sequenceNumber).mpr ⟨op, by simp, hexp, rfl⟩
  simp only [expectsRead, Bool.and_eq_true, beq_iff_eq, Bool.not_eq_true'] at hexp
  have hrank : op.state.rank = 3 := by rw [hexp.1]; rfl
  refine ⟨?_, ?_, h.dchecks, ?_⟩
  · refine h.queue.replace rfl (Nat.le_refl _)
      ⟨h.queue.follows.le, h.queue.follows.inLine⟩ (fun _ _ => ⟨rfl, rfl, rfl⟩)
      (fun _ hc => Or.inl hc) ?_
    exact { hloc with
      unallocated := fun h3 => absurd h3 (by show ¬ op.state.rank < 3; omega)
      allocated := fun _ => rfl
      compatible := fun _ => hcompat }
  · refine ⟨?_, ?_, ?_, ?_, ?_, ?_, ?_⟩
    · intro n
      constructor
      · exact fun hx => nomatch hx
      · rintro ⟨o, ho, hoexp, rfl⟩
        have hother : o ∈ pre ∨ o ∈ post := by
          rcases List.mem_append.mp ho with hpre | hx
          · exact Or.inl hpre
          · rcases List.mem_cons.mp hx with rfl | hpost
            · simp [expectsRead] at hoexp
            · exact Or.inr hpost
        have hin : o ∈ pre ++ op :: post := by
          rcases hother with hpre | hpost
          · simp [hpre]
          · simp [hpost]
        have hhis := (h.cursors.expected o.sequenceNumber).mpr ⟨o, hin, hoexp, rfl⟩
        exact absurd (Option.some.inj (hhis.symm.trans hmine))
          (numbered_ne h.queue.numbered hother)
    · have hb := readBelow_replace 2 pre post op
        { op with allocation := allocation, doneGettingAllocation := true }
      have hc := h.cursors.descriptorCallback
      show r.nextReadDescriptorCallbackToCall + _ = r.nextMessageBeingRead
      rw [← hc, Nat.add_right_cancel hb]
    · have hb := readBelow_replace 5 pre post op
        { op with allocation := allocation, doneGettingAllocation := true }
      have hc := h.cursors.readCallback
      show r.nextReadCallbackToCall + _ = r.nextMessageBeingRead
      rw [← hc, Nat.add_right_cancel hb]
    · intro he
      have hb := readBelow_replace 4 pre post op
        { op with allocation := allocation, doneGettingAllocation := true }
      rw [Nat.add_right_cancel hb]
      exact h.cursors.connection he
    · intro he
      have hb := readBelow_replace 4 pre post op
        { op with allocation := allocation, doneGettingAllocation := true }
      have hb1 := readBelow_replace 1 pre post op
        { op with allocation := allocation, doneGettingAllocation := true }
      rw [Nat.add_right_cancel hb, Nat.add_right_cancel hb1]
      exact h.cursors.connectionState he
    · intro he o ho hrk
      rcases List.mem_append.mp ho with hpre | hx
      · exact h.cursors.described he o (by simp [hpre]) hrk
      · rcases List.mem_cons.mp hx with rfl | hpost
        · exact h.cursors.described he op (by simp) hrk
        · exact h.cursors.described he o (by simp [hpost]) hrk
    · have hset := countP_set (fun o : ReadOperation => !o.doneGettingAllocation)
        pre post op { op with allocation := allocation, doneGettingAllocation := true }
      rw [if_pos (by simp [hexp.2]), if_neg (by simp)] at hset
      show (r.accepted ++ [op.sequenceNumber]).length + _ = r.nextMessageBeingRead
      rw [List.length_append, List.length_singleton]
      omega
  · refine { h.log with accepted := ?_ }
    have hlen : op.sequenceNumber = r.accepted.length := by omega
    show r.accepted ++ [op.sequenceNumber] = List.range (r.accepted ++ [_]).length
    rw [List.length_append, List.length_singleton, List.range_succ, ← h.log.accepted, hlen]

/-- A call of `read` leaves the sequence at rest. -/
theorem readRest_read (h : ReadRest g x) (allocation : Allocation) :
    (readFromLoop g allocation x).Post (ReadRest g) (fun y => ReadSafe y.1 y.2) := by
  obtain ⟨r, ops⟩ := x
  have hinv : ReadInv g r ops := h.inv
  have hsafe : ReadSafe { r with nextMessageGettingAllocation := none } ops :=
    ⟨hinv.safe.captured, hinv.dchecks, { hinv.log with }⟩
  rw [readFromLoop]
  cases hnext : r.nextMessageGettingAllocation with
  | none => exact hinv.safe
  | some n =>
      dsimp only
      obtain ⟨op, hop, hexp, rfl⟩ := (hinv.cursors.expected n).mp hnext
      have hfind : ops.find? (fun o => o.sequenceNumber == op.sequenceNumber) = some op :=
        numbered_find hinv.queue.numbered hop
      rw [hfind]
      obtain ⟨pre, post, rfl⟩ := List.append_of_mem hop
      dsimp only
      by_cases hcompat : checkAllocationCompatibility op.descriptor allocation = false
      · rw [if_pos hcompat]
        exact hsafe
      · rw [if_neg hcompat]
        have hset : modifyOperation op.sequenceNumber (fun op => { op with
              allocation := allocation, doneGettingAllocation := true })
            (pre ++ op :: post) = pre ++ { op with
              allocation := allocation, doneGettingAllocation := true } :: post :=
          modifyOperation_mid hinv.queue.numbered _
        refine onReads_rest h (fun _ => rfl) (fun _ => rfl) ⟨op, hop, rfl⟩ ?_
        rw [hset]
        exact readInv_allocate hinv hexp (by simpa using hcompat)

/-- A call that reports leaves the outstanding ones, and its operation accounts for
    it; the state of the operation does not change. -/
theorem readInv_reported {r : ReadSide} {pre post : List ReadOperation}
    {op op' : ReadOperation} {call : ReadCall} (h : ReadInv g r (pre ++ op :: post))
    (hcall : call.message = op.sequenceNumber)
    (hseq : op'.sequenceNumber = op.sequenceNumber) (hst : op'.state = op.state)
    (hdone : op'.doneGettingAllocation = op.doneGettingAllocation)
    (hdescribed : op.doneReadingDescriptor = true → op'.doneReadingDescriptor = true)
    (hlocal : ReadLocal (r.pending.erase call) op') :
    ReadInv g { r with pending := r.pending.erase call } (pre ++ op' :: post) := by
  refine ⟨?_, ?_, h.dchecks, { h.log with }⟩
  · refine h.queue.replace hseq (Nat.le_of_eq (by rw [hst])) ?_ ?_ ?_ hlocal
    · exact ⟨by rw [hst]; exact h.queue.follows.le, by rw [hst]; exact h.queue.follows.inLine⟩
    · intro n hn
      exact sameReadCalls_erase (by rw [hcall]; exact Ne.symm hn)
    · exact fun c hc => Or.inl (List.mem_of_mem_erase hc)
  · refine h.cursors.replace rfl rfl hdone ?_ ?_ ?_ ?_ ?_ ?_
    · intro n
      rw [exists_replace op (by simp [expectsRead, hst, hdone, hseq])]
      exact h.cursors.expected n
    · rw [hst]
    · rw [hst]
    · rw [hst]; exact fun _ => rfl
    · rw [hst]; exact fun _ => rfl
    · intro he hrank
      rw [hst] at hrank
      exact hdescribed (h.cursors.described he op (by simp) hrank)

/-- A descriptor that has been read: its operation was waiting for it. -/
theorem readLocal_descriptor {pending : List ReadCall} {op : ReadOperation}
    (h : ReadLocal pending op) (hc : .descriptor op.sequenceNumber ∈ pending)
    (d : Descriptor) :
    ReadLocal (pending.erase (.descriptor op.sequenceNumber)) { op with
        doneReadingDescriptor := true
        descriptor := d
        hasMissingTargetDevices :=
          op.hasMissingTargetDevices || descriptorHasMissingTargetDevices d }
      ∧ ReadLocal (pending.erase (.descriptor op.sequenceNumber)) { op with
        doneReadingDescriptor := true } := by
  have hmine : ReadCall.isDescriptor op.sequenceNumber
      (.descriptor op.sequenceNumber) = true := by simp [ReadCall.isDescriptor]
  have hcount := countP_erase_of_mem hc hmine
  have hreading : op.state = .readingDescriptor ∧ op.doneReadingDescriptor = false := by
    by_contra hno
    rw [h.descriptorRead, if_neg hno] at hcount
    exact absurd hcount (Nat.succ_ne_zero _)
  rw [h.descriptorRead, if_pos hreading] at hcount
  have hdesc : (pending.erase (.descriptor op.sequenceNumber)).countP
      (ReadCall.isDescriptor op.sequenceNumber) = 0 := by omega
  have hpay : (pending.erase (.descriptor op.sequenceNumber)).countP
      (ReadCall.isPayload op.sequenceNumber) = op.numPayloadsBeingRead :=
    (countP_erase_of_not rfl).trans h.payloadReads
  have htens : (pending.erase (.descriptor op.sequenceNumber)).countP
      (ReadCall.isTensor op.sequenceNumber) = op.numTensorsBeingReceived :=
    (countP_erase_of_not rfl).trans h.tensorRecvs
  have hunalloc : op.doneGettingAllocation = false :=
    h.unallocated (by rw [hreading.1]; decide)
  have hblank : op.hasMissingTargetDevices = false := by
    rw [h.missing, h.blank hreading.2]
    rfl
  have hlocal : ReadLocal (pending.erase (.descriptor op.sequenceNumber)) { op with
      doneReadingDescriptor := true } := {
    descriptorRead := by rw [if_neg (by simp)]; exact hdesc
    payloadReads := hpay
    tensorRecvs := htens
    idle := h.idle
    fresh := fun hu => by rw [hreading.1] at hu; exact nomatch hu
    blank := fun hx => nomatch hx
    described := fun _ => rfl
    unallocated := h.unallocated
    allocated := h.allocated
    compatible := h.compatible
    missing := h.missing }
  refine ⟨?_, hlocal⟩
  exact { hlocal with
    blank := fun hx => nomatch hx
    compatible := fun hx => by rw [hunalloc] at hx; exact nomatch hx
    missing := by simp [hblank] }

/-- The report of a payload takes one from those that the message still reads. -/
theorem readLocal_payload {pending : List ReadCall} {op : ReadOperation}
    (h : ReadLocal pending op) {payloadIdx data length : Nat}
    (hc : .payload op.sequenceNumber payloadIdx data length ∈ pending) :
    ReadLocal (pending.erase (.payload op.sequenceNumber payloadIdx data length))
      { op with numPayloadsBeingRead := op.numPayloadsBeingRead - 1 } := by
  have hcount := countP_erase_of_mem hc
    (show ReadCall.isPayload op.sequenceNumber _ = true by simp [ReadCall.isPayload])
  rw [h.payloadReads] at hcount
  exact { h with
    descriptorRead := (countP_erase_of_not rfl).trans h.descriptorRead
    payloadReads := Nat.eq_sub_of_add_eq hcount
    tensorRecvs := (countP_erase_of_not rfl).trans h.tensorRecvs
    idle := fun hst => ⟨by rw [(h.idle hst).1], (h.idle hst).2⟩ }

/-- The report of a tensor takes one from those that the message still receives. -/
theorem readLocal_tensor {pending : List ReadCall} {op : ReadOperation}
    (h : ReadLocal pending op) {channel : String} {tensorIdx length : Nat}
    {buffer : Buffer}
    (hc : .tensor channel op.sequenceNumber tensorIdx buffer length ∈ pending) :
    ReadLocal (pending.erase (.tensor channel op.sequenceNumber tensorIdx buffer length))
      { op with numTensorsBeingReceived := op.numTensorsBeingReceived - 1 } := by
  have hcount := countP_erase_of_mem hc
    (show ReadCall.isTensor op.sequenceNumber _ = true by simp [ReadCall.isTensor])
  rw [h.tensorRecvs] at hcount
  exact { h with
    descriptorRead := (countP_erase_of_not rfl).trans h.descriptorRead
    payloadReads := (countP_erase_of_not rfl).trans h.payloadReads
    tensorRecvs := Nat.eq_sub_of_add_eq hcount
    idle := fun hst => ⟨(h.idle hst).1, by rw [(h.idle hst).2]⟩ }

/-- The callback of any call of the reading half. -/
theorem readRest_done (h : ReadRest g x) {call : ReadCall} (hc : call ∈ x.1.pending)
    (descriptor : Descriptor) :
    (onReadDone g call descriptor x).Post (ReadRest g) (fun y => ReadSafe y.1 y.2) := by
  obtain ⟨r, ops⟩ := x
  have hinv : ReadInv g r ops := h.inv
  have hfind : ∀ n, call.captures = some n → ∃ pre op post, ops = pre ++ op :: post
      ∧ op.sequenceNumber = n := by
    intro n hn
    obtain ⟨op, hop, hseq⟩ := hinv.queue.captured call hc n hn
    obtain ⟨pre, post, hops⟩ := List.append_of_mem hop
    exact ⟨pre, op, post, hops, hseq⟩
  cases call with
  | descriptor n =>
      obtain ⟨pre, op, post, rfl, rfl⟩ := hfind n rfl
      have hloc := readLocal_descriptor (hinv.queue.locals op (by simp)) hc descriptor
      refine onReads_rest h ?_ ?_ ⟨op, by simp, rfl⟩ ?_
      · intro o
        by_cases he : g.error.isNone = true
        · rw [if_pos he]
        · rw [if_neg he]
      · intro o
        by_cases he : g.error.isNone = true
        · rw [if_pos he]
        · rw [if_neg he]
      · rw [show modifyOperation op.sequenceNumber _ (pre ++ op :: post) = _
          from modifyOperation_mid hinv.queue.numbered _]
        by_cases he : g.error.isNone = true
        · rw [if_pos he]
          exact readInv_reported hinv rfl rfl rfl rfl (fun _ => rfl) hloc.1
        · rw [if_neg he]
          exact readInv_reported hinv rfl rfl rfl rfl (fun _ => rfl) hloc.2
  | payload n payloadIdx data length =>
      obtain ⟨pre, op, post, rfl, rfl⟩ := hfind n rfl
      refine onReads_rest h (fun _ => rfl) (fun _ => rfl) ⟨op, by simp, rfl⟩ ?_
      rw [show modifyOperation op.sequenceNumber _ (pre ++ op :: post) = _
        from modifyOperation_mid hinv.queue.numbered _]
      exact readInv_reported hinv rfl rfl rfl rfl id
        (readLocal_payload (hinv.queue.locals op (by simp)) hc)
  | tensor channel n tensorIdx buffer length =>
      obtain ⟨pre, op, post, rfl, rfl⟩ := hfind n rfl
      refine onReads_rest h (fun _ => rfl) (fun _ => rfl) ⟨op, by simp, rfl⟩ ?_
      rw [show modifyOperation op.sequenceNumber _ (pre ++ op :: post) = _
        from modifyOperation_mid hinv.queue.numbered _]
      exact readInv_reported hinv rfl rfl rfl rfl id
        (readLocal_tensor (hinv.queue.locals op (by simp)) hc)
  | descriptorReply n reply =>
      -- nobody waits for the reply to be written
      refine ⟨⟨?_, ⟨hinv.cursors.expected, hinv.cursors.descriptorCallback,
        hinv.cursors.readCallback, hinv.cursors.connection, hinv.cursors.connectionState,
        hinv.cursors.described, hinv.cursors.accepted⟩, hinv.dchecks, { hinv.log with }⟩,
        h.unfinished, h.stable⟩
      refine ⟨hinv.queue.numbered, hinv.queue.chained, ?_, ?_⟩
      · intro o ho
        exact (hinv.queue.locals o ho).same
          ⟨countP_erase_of_not rfl, countP_erase_of_not rfl, countP_erase_of_not rfl⟩
      · exact fun c hcm => hinv.queue.captured c (List.mem_of_mem_erase hcm)

end Tasks

end TpPipe
