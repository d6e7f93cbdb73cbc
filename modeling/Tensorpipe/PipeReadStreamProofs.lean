import Tensorpipe.PipeRunProofs
import Tensorpipe.PipeWriteStreamProofs
import Tensorpipe.StreamAgreementProofs

/-! # What the reading half hands out

    The reading half issues its calls strictly message by message: the descriptor is
    read, and once the user has given an allocation everything else follows at once —
    the payload reads, the reply if the sender left devices open, and the receives of
    the tensors (`readCalls`).  So the whole list of calls is a function of the messages
    and of the allocations, and needs no sorting by kind.

    `ReadStream` is the invariant, over the messages that the other end has sent and the
    allocations of the read calls taken so far; one lemma for each task of the reading
    half. -/

namespace TpPipe

open TpStateMachine TpMessage TpSelect TpStream

-- ── The calls of a message ───────────────────────────────────────────────────

/-- The read operation of a message that was sent and allocated. -/
def readOperationOf (n : Nat) (message : Message) (allocation : Allocation) :
    ReadOperation where
  sequenceNumber := n
  hasMissingTargetDevices := messageHasMissingTargetDevices message
  descriptor := makeDescriptorForMessage message
  allocation := allocation

/-- Everything issued for a message. -/
def readCalls (g : Gate) (n : Nat) (message : Message) (allocation : Allocation) :
    List ReadCall :=
  .descriptor n :: messageReads g (readOperationOf n message allocation)

/-- A message that was sent, and an allocation for it that fits. -/
def Allocated (sent : List Message) (allocated : List Allocation) (n : Nat)
    (message : Message) (allocation : Allocation) : Prop :=
  sent[n]? = some message ∧ allocated[n]? = some allocation
    ∧ checkAllocationCompatibility (makeDescriptorForMessage message) allocation = true

/-- The read of a descriptor whose payloads are still awaited. -/
def descriptorInHand (r : ReadSide) : List ReadCall :=
  if r.connectionState = .awaitingPayloads then
    [.descriptor r.messageBeingReadFromConnection]
  else []

/-- All calls so far, message by message. -/
def ReadsIssued (g : Gate) (sent : List Message) (allocated : List Allocation)
    (r : ReadSide) : Prop :=
  ∃ log : List (Message × Allocation),
    (∀ k e, log[k]? = some e → Allocated sent allocated k e.1 e.2)
    ∧ log.length = r.messageBeingReadFromConnection
    ∧ r.issued = log.zipIdx.flatMap (fun p => readCalls g p.2 p.1.1 p.1.2)
      ++ descriptorInHand r

theorem Allocated.mono {sent sent' : List Message} {allocated allocated' : List Allocation}
    {n : Nat} {message : Message} {allocation : Allocation}
    (h : Allocated sent allocated n message allocation) (hsent : sent <+: sent')
    (halloc : allocated <+: allocated') : Allocated sent' allocated' n message allocation :=
  ⟨getElem?_of_beginning hsent h.1, getElem?_of_beginning halloc h.2.1, h.2.2⟩

/-- The calls of a message depend on what was sent and allocated only. -/
theorem messageReads_of {g : Gate} {op : ReadOperation} {message : Message}
    (hdesc : op.descriptor = makeDescriptorForMessage message)
    (hmissing : op.hasMissingTargetDevices = messageHasMissingTargetDevices message) :
    messageReads g op
      = messageReads g (readOperationOf op.sequenceNumber message op.allocation) := by
  simp only [messageReads, payloadReads, replyWrites, tensorRecvs, hdesc, hmissing]
  rfl

-- ── The invariant ────────────────────────────────────────────────────────────

/-- What the reading half knows and has issued, against what was sent and allocated. -/
structure ReadStream (g : Gate) (sent : List Message) (allocated : List Allocation)
    (r : ReadSide) (ops : List ReadOperation) : Prop where
  allocations : allocated.length = r.accepted.length
  described : g.error = none → ∀ op ∈ ops, op.doneReadingDescriptor = true →
    ∃ message, sent[op.sequenceNumber]? = some message
      ∧ op.descriptor = makeDescriptorForMessage message
  granted : ∀ op ∈ ops, op.doneGettingAllocation = true →
    allocated[op.sequenceNumber]? = some op.allocation
  issued : ReadsIssued g sent allocated r
  called : ∀ n d, .readDescriptor n none d ∈ r.called →
    ∃ message, sent[n]? = some message ∧ d = makeDescriptorForMessage message

namespace ReadStream

variable {g g' : Gate} {sent sent' : List Message} {allocated allocated' : List Allocation}
  {r r' : ReadSide} {pre post ops : List ReadOperation} {op op' : ReadOperation}

/-- The other end sends more. -/
theorem mono (h : ReadStream g sent allocated r ops) (hsent : sent <+: sent') :
    ReadStream g sent' allocated r ops where
  allocations := h.allocations
  described := by
    intro he o ho hdone
    obtain ⟨message, hmsg, hdesc⟩ := h.described he o ho hdone
    exact ⟨message, getElem?_of_beginning hsent hmsg, hdesc⟩
  granted := h.granted
  issued := by
    obtain ⟨log, hlog, hlen, hissued⟩ := h.issued
    exact ⟨log, fun k e hk => (hlog k e hk).mono hsent (List.prefix_refl _), hlen, hissued⟩
  called := by
    intro n d hd
    obtain ⟨message, hmsg, hdesc⟩ := h.called n d hd
    exact ⟨message, getElem?_of_beginning hsent hmsg, hdesc⟩

/-- An error only takes obligations away. -/
theorem gate (h : ReadStream g sent allocated r ops) (hg : g'.error = none → g.error = none)
    (hmap : g'.channelForDevicePair = g.channelForDevicePair) :
    ReadStream g' sent allocated r ops where
  allocations := h.allocations
  described := fun he => h.described (hg he)
  granted := h.granted
  issued := by
    obtain ⟨log, hlog, hlen, hissued⟩ := h.issued
    refine ⟨log, hlog, hlen, ?_⟩
    rw [hissued]
    simp only [readCalls, messageReads, tensorRecvs, hmap]
  called := h.called

/-- Rewriting one operation; what was issued and called is accounted for by the caller. -/
theorem replace (h : ReadStream g sent allocated r (pre ++ op :: post))
    (haccepted : r'.accepted = r.accepted)
    (hdescribed : g.error = none → op'.doneReadingDescriptor = true →
      ∃ message, sent[op'.sequenceNumber]? = some message
        ∧ op'.descriptor = makeDescriptorForMessage message)
    (hgranted : op'.doneGettingAllocation = true →
      allocated[op'.sequenceNumber]? = some op'.allocation)
    (hissued : ReadsIssued g sent allocated r')
    (hcalled : ∀ n d, .readDescriptor n none d ∈ r'.called →
      ∃ message, sent[n]? = some message ∧ d = makeDescriptorForMessage message) :
    ReadStream g sent allocated r' (pre ++ op' :: post) where
  allocations := h.allocations.trans (congrArg List.length haccepted.symm)
  described := by
    intro he o ho
    rcases List.mem_append.mp ho with hpre | hmid
    · exact h.described he o (by simp [hpre])
    · rcases List.mem_cons.mp hmid with rfl | hpost
      · exact hdescribed he
      · exact h.described he o (by simp [hpost])
  granted := by
    intro o ho
    rcases List.mem_append.mp ho with hpre | hmid
    · exact h.granted o (by simp [hpre])
    · rcases List.mem_cons.mp hmid with rfl | hpost
      · exact hgranted
      · exact h.granted o (by simp [hpost])
  issued := hissued
  called := hcalled

end ReadStream

-- ── Firing a transition ──────────────────────────────────────────────────────

/-- Both invariants of the reading half. -/
def ReadBoth (g : Gate) (sent : List Message) (allocated : List Allocation) (r : ReadSide)
    (ops : List ReadOperation) : Prop :=
  ReadInv g r ops ∧ ReadStream g sent allocated r ops

section Fire

variable {g : Gate} {sent : List Message} {allocated : List Allocation}
  {r : ReadSide} {pre post : List ReadOperation} {op : ReadOperation}

theorem readStream_describe (h : ReadStream g sent allocated r (pre ++ op :: post))
    (hst : g.error ≠ none ∨ op.doneReadingDescriptor = true) :
    (runActions [callReadDescriptorCallback g] (r, op)).Post
      (fun y => ReadStream g sent allocated y.1
        (pre ++ withState y.2 ReadState.askingForAllocation :: post))
      (fun _ => True) := by
  refine h.replace rfl (fun he => h.described he op (by simp)) (h.granted op (by simp))
    h.issued ?_
  intro n d hd
  rcases List.mem_append.mp hd with hold | hnew
  · exact h.called n d hold
  · obtain ⟨rfl, herr, rfl⟩ := ReadCallback.readDescriptor.inj (List.mem_singleton.mp hnew)
    exact h.described herr.symm op (by simp) (hst.resolve_left (fun hne => hne herr.symm))

/-- The read of a descriptor, on a connection on which nothing is awaited. -/
theorem readStream_readDescriptor (hinv : ReadInv g r (pre ++ op :: post))
    (h : ReadStream g sent allocated r (pre ++ op :: post)) (hst : op.state = .uninitialized)
    (herr : g.error = none) (hprev : 4 ≤ (lastState ReadState.finished pre).rank) :
    (runActions [readDescriptorOfMessage] (r, op)).Post
      (fun y => ReadStream g sent allocated y.1
        (pre ++ withState y.2 ReadState.readingDescriptor :: post))
      (fun _ => True) := by
  have hcur := hinv.queue.cursor hprev (by rw [hst]; decide)
  have hmsg := hinv.cursors.connection herr
  have hseq : r.messageBeingReadFromConnection = op.sequenceNumber := by omega
  have hwait : r.connectionState = .awaitingDescriptor := by
    have hop : op ∈ pre ++ op :: post := by simp
    have hnot := (PipeImpl.connection_current hinv herr hop).not.mp (by rw [hst]; decide)
    cases hc : r.connectionState with
    | awaitingDescriptor => rfl
    | awaitingPayloads => exact absurd ⟨hseq.symm, hc⟩ hnot
  refine h.replace rfl (fun he => h.described he op (by simp)) (h.granted op (by simp)) ?_
    h.called
  obtain ⟨log, hlog, hlen, hissued⟩ := h.issued
  refine ⟨log, hlog, hlen, ?_⟩
  rw [descriptorInHand, hwait, if_neg ConnectionState.noConfusion, List.append_nil] at hissued
  show r.issued ++ [.descriptor op.sequenceNumber]
    = _ ++ [.descriptor r.messageBeingReadFromConnection]
  rw [hissued, hseq]

theorem readStream_expect (h : ReadStream g sent allocated r (pre ++ op :: post)) :
    (runActions [expectReadCall] (r, op)).Post
      (fun y => ReadStream g sent allocated y.1
        (pre ++ withState y.2 ReadState.askingForAllocationFirstInLine :: post))
      (fun _ => True) :=
  h.replace rfl (fun he => h.described he op (by simp)) (h.granted op (by simp)) h.issued
    h.called

theorem readStream_finish (h : ReadStream g sent allocated r (pre ++ op :: post)) :
    (runActions [callReadCallback g] (r, op)).Post
      (fun y => ReadStream g sent allocated y.1
        (pre ++ withState y.2 ReadState.finished :: post))
      (fun _ => True) := by
  refine h.replace rfl (fun he => h.described he op (by simp)) (h.granted op (by simp))
    h.issued ?_
  intro n d hd
  rcases List.mem_append.mp hd with hold | hnew
  · exact h.called n d hold
  · exact ReadCallback.noConfusion (List.mem_singleton.mp hnew)

/-- What is issued once the allocation is there completes the calls of the message. -/
theorem readStream_start (hinv : ReadInv g r (pre ++ op :: post))
    (h : ReadStream g sent allocated r (pre ++ op :: post))
    (hst : op.state = .askingForAllocationFirstInLine) (herr : g.error = none)
    (halloc : op.doneGettingAllocation = true)
    {actions : List (ReadSide → ReadOperation → Outcome (ReadSide × ReadOperation))}
    (hactions : (op.hasMissingTargetDevices = false
        ∧ actions = [readPayloadsOfMessage, receiveTensorsOfMessage g])
      ∨ (op.hasMissingTargetDevices = true
        ∧ actions = [readPayloadsOfMessage, writeDescriptorReplyOfMessage,
            receiveTensorsOfMessage g])) :
    (runActions actions (r, op)).Post
      (fun y => ReadStream g sent allocated y.1
        (pre ++ withState y.2 ReadState.readingPayloadsAndReceivingTensors :: post))
      (fun _ => True) := by
  have hloc := hinv.queue.locals op (by simp)
  have hop : op ∈ pre ++ op :: post := by simp
  obtain ⟨hmsg, hwait⟩ := (PipeImpl.connection_current hinv herr hop).mp (by rw [hst]; decide)
  have hcompat := hloc.compatible halloc
  have hlen := (compatible_tensors hcompat).symm
  obtain ⟨message, hsent, hdesc⟩ := h.described herr op (by simp)
    (hloc.described (by rw [hst]; decide))
  have hgranted := h.granted op (by simp) halloc
  have hcalls : messageReads g op
      = messageReads g (readOperationOf op.sequenceNumber message op.allocation) :=
    messageReads_of hdesc (by rw [hloc.missing, hdesc, makeDescriptor_missing])
  refine (startMessage_spec hwait hmsg.symm hlen hactions).imp ?_ (fun _ _ => trivial)
  rintro y rfl
  refine h.replace rfl (fun he => h.described he op (by simp)) (h.granted op (by simp)) ?_
    h.called
  obtain ⟨log, hlog, hloglen, hissued⟩ := h.issued
  refine ⟨log ++ [(message, op.allocation)], ?_, ?_, ?_⟩
  · intro k e hk
    rcases Nat.lt_or_ge k log.length with hlt | hge
    · rw [List.getElem?_append_left hlt] at hk
      exact hlog k e hk
    · rw [List.getElem?_append_right hge] at hk
      have hk0 : k - log.length = 0 := by
        have := (List.getElem?_eq_some_iff.mp hk).1
        rw [List.length_singleton] at this
        omega
      rw [hk0] at hk
      obtain rfl := Option.some.inj hk
      obtain rfl : k = op.sequenceNumber := by omega
      exact ⟨hsent, hgranted, hdesc ▸ hcompat⟩
  · rw [List.length_append, List.length_singleton, hloglen]
    rfl
  · show r.issued ++ messageReads g op = _ ++ []
    rw [hissued, descriptorInHand, hwait, if_pos rfl, flatMap_zipIdx_snoc, hloglen,
      hcalls, ← hmsg, List.append_nil, List.append_assoc]
    rfl

theorem readStream_fire {t : Transition ReadSide ReadOperation ReadState}
    (hinv : ReadInv g r (pre ++ op :: post))
    (h : ReadStream g sent allocated r (pre ++ op :: post)) (ht : t ∈ advanceReadOperation g)
    (hsrc : op.state = t.source)
    (hcond : t.cond op (lastState ReadState.finished pre) = true) :
    (runActions t.actions (r, op)).Post
      (fun y => ReadStream g sent allocated y.1 (pre ++ withState y.2 t.target :: post))
      (fun _ => True) := by
  simp only [advanceReadOperation, List.mem_cons, List.not_mem_nil, or_false] at ht
  rcases ht with rfl | rfl | rfl | rfl | rfl | rfl | rfl | rfl <;>
    simp only [Bool.and_eq_true, decide_eq_true_eq, Option.isSome_iff_ne_none,
      Option.isNone_iff_eq_none, Bool.not_eq_true', beq_iff_eq] at hsrc hcond
  · exact readStream_describe h (Or.inl hcond.1)
  · exact readStream_readDescriptor hinv h hsrc hcond.1.1 hcond.2
  · exact readStream_describe h (Or.inr hcond.1)
  · exact readStream_expect h
  · exact readStream_finish h
  · exact readStream_start hinv h hsrc hcond.1.1 hcond.1.2 (Or.inl ⟨hcond.2, rfl⟩)
  · exact readStream_start hinv h hsrc hcond.1.1 hcond.1.2 (Or.inr ⟨hcond.2, rfl⟩)
  · exact readStream_finish h

end Fire

-- ── The walks and the tasks ──────────────────────────────────────────────────

/-- **Every walk keeps both invariants of the reading half.** -/
theorem readBoth_preserves (g : Gate) (sent : List Message) (allocated : List Allocation) :
    Preserves (advanceReadOperation g) (ReadBoth g sent allocated)
      (fun r ops => ReadSafe r ops ∧ True) where
  numbered := fun _ _ h => ⟨_, h.1.queue.numbered⟩
  fire := fun _ _ _ _ _ h ht hsrc hcond =>
    (readInv_fire h.1 ht hsrc hcond).and (readStream_fire h.1 h.2 ht hsrc hcond)
  pop := fun _ _ _ h hfin => ⟨readInv_pop h.1 hfin, h.2.allocations,
    fun he o ho => h.2.described he o (by simp [ho]),
    fun o ho => h.2.granted o (by simp [ho]), h.2.issued, h.2.called⟩

section Tasks

variable {g g' : Gate} {sent : List Message} {allocated : List Allocation} {x : Reads}

theorem readBoth_init (g : Gate) : ReadBoth g [] [] {} [] := by
  refine ⟨(readRest_init g).inv, rfl, fun _ _ h => (List.not_mem_nil h).elim,
    fun _ h => (List.not_mem_nil h).elim, ?_, fun _ _ h => (List.not_mem_nil h).elim⟩
  exact ⟨[], fun k e hk => by simp at hk, rfl, rfl⟩

theorem ReadBoth.mono {sent' : List Message} (h : ReadBoth g sent allocated x.1 x.2)
    (hsent : sent <+: sent') : ReadBoth g sent' allocated x.1 x.2 :=
  ⟨h.1, h.2.mono hsent⟩

theorem readBoth_advance {r : ReadSide} {ops : List ReadOperation} (n : Nat)
    (h : ReadBoth g sent allocated r ops) :
    (advanceOperation (advanceReadOperation g) r ops n).Post
      (fun y => ReadBoth g sent allocated y.1 y.2) (fun _ => True) :=
  (advanceOperation_preserves (readBoth_preserves g sent allocated) n h).imp
    (fun _ hy => hy) (fun _ _ => trivial)

theorem readBoth_advanceAll (h : ReadBoth g sent allocated x.1 x.2)
    (hg : g'.error = none → g.error = none)
    (hmap : g'.channelForDevicePair = g.channelForDevicePair) :
    (advanceAllReads g' x).Post (fun y => ReadBoth g' sent allocated y.1 y.2)
      (fun _ => True) :=
  (advanceAllOperations_preserves (readBoth_preserves g' sent allocated)
    ⟨h.1.gate hg, h.2.gate hg hmap⟩).imp (fun _ hy => hy) (fun _ _ => trivial)

theorem readBoth_readDescriptor (h : ReadBoth g sent allocated x.1 x.2) :
    (readDescriptorFromLoop g x).Post (fun y => ReadBoth g sent allocated y.1 y.2)
      (fun _ => True) := by
  obtain ⟨r, ops⟩ := x
  obtain ⟨hinv, hstream⟩ : ReadInv g r ops ∧ ReadStream g sent allocated r ops := h
  refine readBoth_advance _ ⟨readInv_push hinv, hstream.allocations, ?_, ?_, hstream.issued,
    hstream.called⟩
  · intro he o ho hdone
    rcases List.mem_append.mp ho with hold | hnew
    · exact hstream.described he o hold hdone
    · obtain rfl := List.mem_singleton.mp hnew
      exact Bool.noConfusion hdone
  · intro o ho hdone
    rcases List.mem_append.mp ho with hold | hnew
    · exact hstream.granted o hold hdone
    · obtain rfl := List.mem_singleton.mp hnew
      exact Bool.noConfusion hdone

/-- A read call that is taken: its allocation is the next one of those given. -/
theorem readBoth_read (h : ReadBoth g sent allocated x.1 x.2) (allocation : Allocation) :
    (readFromLoop g allocation x).Post
      (fun y => ReadBoth g sent (allocated ++ [allocation]) y.1 y.2) (fun _ => True) := by
  obtain ⟨r, ops⟩ := x
  obtain ⟨hinv, hstream⟩ : ReadInv g r ops ∧ ReadStream g sent allocated r ops := h
  rw [readFromLoop]
  cases hnext : r.nextMessageGettingAllocation with
  | none => trivial
  | some n =>
      dsimp only
      obtain ⟨op, hop, hexp, rfl⟩ := (hinv.cursors.expected n).mp hnext
      rw [show ops.find? (fun o => o.sequenceNumber == op.sequenceNumber) = some op
        from numbered_find hinv.queue.numbered hop]
      obtain ⟨pre, post, rfl⟩ := List.append_of_mem hop
      dsimp only
      by_cases hcompat : checkAllocationCompatibility op.descriptor allocation = false
      · rw [if_pos hcompat]
        trivial
      · rw [if_neg hcompat, show modifyOperation op.sequenceNumber _ (pre ++ op :: post) = _
          from modifyOperation_mid hinv.queue.numbered _]
        have hcompatible : checkAllocationCompatibility op.descriptor allocation = true := by
          simpa using hcompat
        have hnew := readInv_allocate hinv hexp hcompatible
        have hlen : op.sequenceNumber = allocated.length := by
          have hcount := count_unallocated_at hinv.queue hexp
          have hacc := hinv.cursors.accepted
          have hmid : op.sequenceNumber + post.length + 1 = r.nextMessageBeingRead :=
            numbered_mid hinv.queue.numbered
          rw [hstream.allocations]
          omega
        have hmore : allocated <+: allocated ++ [allocation] := List.prefix_append _ _
        refine readBoth_advance _ ⟨hnew, ?_, ?_, ?_, ?_, hstream.called⟩
        · show (allocated ++ [allocation]).length = (r.accepted ++ [_]).length
          rw [List.length_append, List.length_append, hstream.allocations]
          rfl
        · intro he o ho hdone
          rcases List.mem_append.mp ho with hpre | hmid
          · exact hstream.described he o (by simp [hpre]) hdone
          · rcases List.mem_cons.mp hmid with rfl | hpost
            · exact hstream.described he op (by simp) hdone
            · exact hstream.described he o (by simp [hpost]) hdone
        · intro o ho hdone
          rcases List.mem_append.mp ho with hpre | hmid
          · exact getElem?_of_beginning hmore (hstream.granted o (by simp [hpre]) hdone)
          · rcases List.mem_cons.mp hmid with rfl | hpost
            · show (allocated ++ [allocation])[op.sequenceNumber]? = some allocation
              rw [hlen, List.getElem?_concat_length]
            · exact getElem?_of_beginning hmore (hstream.granted o (by simp [hpost]) hdone)
        · obtain ⟨log, hlog, hloglen, hissued⟩ := hstream.issued
          exact ⟨log, fun k e hk => (hlog k e hk).mono (List.prefix_refl _) hmore, hloglen,
            hissued⟩

/-- The callback of a call of the reading half.  A descriptor that is read without error
    has to be that of its message. -/
theorem readBoth_done (h : ReadBoth g sent allocated x.1 x.2) {call : ReadCall}
    (hc : call ∈ x.1.pending) (descriptor : Descriptor)
    (hdescriptor : g.error = none → ∀ n, call = .descriptor n →
      ∃ message, sent[n]? = some message ∧ descriptor = makeDescriptorForMessage message) :
    (onReadDone g call descriptor x).Post (fun y => ReadBoth g sent allocated y.1 y.2)
      (fun _ => True) := by
  obtain ⟨r, ops⟩ := x
  obtain ⟨hinv, hstream⟩ : ReadInv g r ops ∧ ReadStream g sent allocated r ops := h
  have hfind : ∀ n, call.captures = some n → ∃ pre op post, ops = pre ++ op :: post
      ∧ op.sequenceNumber = n := by
    intro n hn
    obtain ⟨op, hop, hseq⟩ := hinv.queue.captured call hc n hn
    obtain ⟨pre, post, hops⟩ := List.append_of_mem hop
    exact ⟨pre, op, post, hops, hseq⟩
  cases call with
  | descriptor n =>
      obtain ⟨pre, op, post, rfl, rfl⟩ := hfind n rfl
      have hloc := readLocal_descriptor (hinv.queue.locals op (by simp)) hc descriptor
      have hunalloc : op.doneGettingAllocation = true →
          allocated[op.sequenceNumber]? = some op.allocation := hstream.granted op (by simp)
      rw [onReadDone, show modifyOperation op.sequenceNumber _ (pre ++ op :: post) = _
        from modifyOperation_mid hinv.queue.numbered _]
      refine readBoth_advance _ ?_
      by_cases he : g.error.isNone = true
      · rw [if_pos he]
        refine ⟨readInv_reported hinv rfl rfl rfl rfl (fun _ => rfl) hloc.1, ?_⟩
        exact hstream.replace rfl
          (fun hn _ => hdescriptor hn op.sequenceNumber rfl) hunalloc hstream.issued
          hstream.called
      · rw [if_neg he]
        refine ⟨readInv_reported hinv rfl rfl rfl rfl (fun _ => rfl) hloc.2, ?_⟩
        exact hstream.replace rfl (fun hn => absurd (by rw [hn]; rfl) he) hunalloc
          hstream.issued hstream.called
  | payload n payloadIdx data length =>
      obtain ⟨pre, op, post, rfl, rfl⟩ := hfind n rfl
      rw [onReadDone, show modifyOperation op.sequenceNumber _ (pre ++ op :: post) = _
        from modifyOperation_mid hinv.queue.numbered _]
      refine readBoth_advance _ ⟨readInv_reported hinv rfl rfl rfl rfl id
        (readLocal_payload (hinv.queue.locals op (by simp)) hc), ?_⟩
      exact hstream.replace rfl (fun he => hstream.described he op (by simp))
        (hstream.granted op (by simp)) hstream.issued hstream.called
  | tensor channel n tensorIdx buffer length =>
      obtain ⟨pre, op, post, rfl, rfl⟩ := hfind n rfl
      rw [onReadDone, show modifyOperation op.sequenceNumber _ (pre ++ op :: post) = _
        from modifyOperation_mid hinv.queue.numbered _]
      refine readBoth_advance _ ⟨readInv_reported hinv rfl rfl rfl rfl id
        (readLocal_tensor (hinv.queue.locals op (by simp)) hc), ?_⟩
      exact hstream.replace rfl (fun he => hstream.described he op (by simp))
        (hstream.granted op (by simp)) hstream.issued hstream.called
  | descriptorReply n reply =>
      refine ⟨⟨⟨hinv.queue.numbered, hinv.queue.chained, ?_, ?_⟩,
        ⟨hinv.cursors.expected, hinv.cursors.descriptorCallback, hinv.cursors.readCallback,
          hinv.cursors.connection, hinv.cursors.connectionState, hinv.cursors.described,
          hinv.cursors.accepted⟩, hinv.dchecks, { hinv.log with }⟩,
        hstream.allocations, hstream.described, hstream.granted, hstream.issued,
        hstream.called⟩
      · intro o ho
        exact (hinv.queue.locals o ho).same
          ⟨countP_erase_of_not rfl, countP_erase_of_not rfl, countP_erase_of_not rfl⟩
      · exact fun c hcm => hinv.queue.captured c (List.mem_of_mem_erase hcm)

end Tasks

end TpPipe
