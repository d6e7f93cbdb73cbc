import Mathlib.Tactic.Common
import Tensorpipe.CudaIpcSendProofs

/-! # The receiving half of the cuda_ipc channel

    Descriptors are read in the order of the chunks, and the chunks are copied in that order,
    because both transitions wait for the previous operation.  So the first descriptor of a
    device, which tells how to open the outbox, has been read when a chunk of the device is
    copied. -/

namespace TpCudaIpc

open TpStateMachine TpAllocator

-- ── The outboxes of others ───────────────────────────────────────────────────

/-- A handle to what an end could mean by its device: the outbox, for that device, of a context of
    the same process. -/
def RemoteOf (S : Setup) (e : Endpoint) (deviceIdx : Nat) (outbox : MemHandle) : Prop :=
  ∃ e', outbox = ⟨S.home e', deviceIdx⟩
    ∧ S.processIdentifier (S.home e') = S.processIdentifier (S.home e)

/-- The handles of a context are under their own keys. -/
def Remotes (S : Setup) (x : ContextImpl) : Prop :=
  ∀ p ∈ x.remoteOutboxes, ∃ e', p.2 = ⟨S.home e', p.1.remoteDeviceIdx⟩
    ∧ S.processIdentifier (S.home e') = p.1.processIdentifier

/-- The handles of a channel are those of the other end. -/
def Opened (S : Setup) (e : Endpoint) (h : RecvHalf) : Prop :=
  ∀ (deviceIdx : Nat) row (localDeviceIdx : Nat) outbox,
    h.remoteOutboxesOpened[deviceIdx]? = some row →
    row[localDeviceIdx]? = some (some outbox) → RemoteOf S e.other deviceIdx outbox

section Opening

variable {S : Setup} {e : Endpoint}

theorem openRemoteOutbox_keeps {x : ContextImpl} (h : Remotes S x)
    (localDeviceIdx remoteDeviceIdx : Nat) :
    Remotes S (x.openRemoteOutbox localDeviceIdx remoteDeviceIdx (S.info e remoteDeviceIdx)).1
      ∧ RemoteOf S e remoteDeviceIdx
        (x.openRemoteOutbox localDeviceIdx remoteDeviceIdx (S.info e remoteDeviceIdx)).2 := by
  rw [ContextImpl.openRemoteOutbox]
  cases hlookup : x.remoteOutboxes.lookup (⟨(S.info e remoteDeviceIdx).processIdentifier,
      remoteDeviceIdx, localDeviceIdx⟩ : RemoteOutboxKey) with
  | some outbox =>
      obtain ⟨before, after, hsplit, -⟩ := List.lookup_eq_some_iff.mp hlookup
      have hmem : (⟨(S.info e remoteDeviceIdx).processIdentifier, remoteDeviceIdx, localDeviceIdx⟩,
          outbox) ∈ x.remoteOutboxes := by
        rw [hsplit]
        exact List.mem_append_right _ (List.mem_cons_self ..)
      exact ⟨h, h _ hmem⟩
  | none =>
      refine ⟨fun p hp => ?_, e, rfl, rfl⟩
      rcases List.mem_cons.mp hp with rfl | hold
      · exact ⟨e, rfl, rfl⟩
      · exact h p hold

/-- What opening an outbox leaves as it is. -/
theorem openedOutbox_same {s : Receiving} {localDeviceIdx remoteDeviceIdx : Nat}
    {y : Receiving × MemHandle}
    (h : openedOutbox s localDeviceIdx remoteDeviceIdx = some y) :
    y.1.1 = { s.1 with remoteOutboxes := y.1.1.remoteOutboxes }
      ∧ y.1.2 = { s.2 with remoteOutboxesOpened := y.1.2.remoteOutboxesOpened } := by
  rw [openedOutbox] at h
  dsimp only at h
  split at h
  · rw [← Option.some.inj h]
    exact ⟨rfl, rfl⟩
  · split at h
    · exact absurd h (by simp)
    · next info _ =>
        rw [← Option.some.inj h]
        refine ⟨?_, rfl⟩
        show (s.1.openRemoteOutbox localDeviceIdx remoteDeviceIdx info).1 = _
        rw [ContextImpl.openRemoteOutbox]
        dsimp only
        split <;> rfl

theorem openedOutbox_isSome {s : Receiving} (localDeviceIdx : Nat) {remoteDeviceIdx : Nat}
    {info : OutboxInfo} (h : s.2.remoteOutboxesReceived[remoteDeviceIdx]? = some (some info)) :
    ∃ y, openedOutbox s localDeviceIdx remoteDeviceIdx = some y := by
  rw [openedOutbox, h]
  dsimp only [Option.join]
  split
  · exact ⟨_, rfl⟩
  · exact ⟨_, rfl⟩

/-- **What is opened is an outbox of the other end.** -/
theorem openedOutbox_keeps {s : Receiving} {localDeviceIdx remoteDeviceIdx : Nat}
    {y : Receiving × MemHandle} (hremotes : Remotes S s.1) (hopened : Opened S e s.2)
    (hreceived : ∀ d info, s.2.remoteOutboxesReceived[d]? = some (some info) →
      info = S.info e.other d)
    (h : openedOutbox s localDeviceIdx remoteDeviceIdx = some y) :
    Remotes S y.1.1 ∧ Opened S e y.1.2 ∧ RemoteOf S e.other remoteDeviceIdx y.2 := by
  -- the vectors hold nothing more after they grew
  have hgrown : ∀ d row, (grow s.2.remoteOutboxesOpened remoteDeviceIdx [])[d]? = some row →
      ∀ (l : Nat) outbox, row[l]? = some (some outbox) → RemoteOf S e.other d outbox := by
    intro d row hrow l outbox hl
    rw [grow_get] at hrow
    split at hrow
    · exact hopened d row l outbox hrow hl
    · split at hrow
      · rw [← Option.some.inj hrow] at hl
        exact absurd hl (by simp)
      · exact absurd hrow (by simp)
  have hrow : ∀ (l : Nat) outbox, (grow ((grow s.2.remoteOutboxesOpened remoteDeviceIdx
      [])[remoteDeviceIdx]?.getD []) localDeviceIdx none)[l]? = some (some outbox) →
      RemoteOf S e.other remoteDeviceIdx outbox := by
    intro l outbox hl
    rw [grow_get] at hl
    split at hl
    · cases hget : (grow s.2.remoteOutboxesOpened remoteDeviceIdx [])[remoteDeviceIdx]? with
      | none =>
          rw [hget] at hl
          exact absurd hl (by simp)
      | some row =>
          rw [hget] at hl
          exact hgrown _ row hget l outbox hl
    · split at hl
      · exact absurd hl (by simp)
      · exact absurd hl (by simp)
  have hset : ∀ row', (∀ (l : Nat) outbox, row'[l]? = some (some outbox) →
      RemoteOf S e.other remoteDeviceIdx outbox) → Opened S e { s.2 with
        remoteOutboxesOpened :=
          (grow s.2.remoteOutboxesOpened remoteDeviceIdx []).set remoteDeviceIdx row' } := by
    intro row' hrow' d row l outbox hd hl
    have hd' : ((grow s.2.remoteOutboxesOpened remoteDeviceIdx []).set remoteDeviceIdx row')[d]?
        = some row := hd
    rw [grow_set_get] at hd'
    by_cases hdd : d = remoteDeviceIdx
    · rw [if_pos hdd] at hd'
      rw [hdd]
      exact hrow' l outbox (Option.some.inj hd' ▸ hl)
    · rw [if_neg hdd] at hd'
      exact hgrown d row hd' l outbox hl
  rw [openedOutbox] at h
  dsimp only at h
  split at h
  · next outbox houtbox =>
      rw [← Option.some.inj h]
      exact ⟨hremotes, hset _ hrow, hrow localDeviceIdx outbox (Option.join_eq_some_iff.mp houtbox)⟩
  · split at h
    · exact absurd h (by simp)
    · next info hinfo =>
        obtain rfl := hreceived _ _ (Option.join_eq_some_iff.mp hinfo)
        obtain ⟨hkeeps, hremote⟩ := openRemoteOutbox_keeps (e := e.other) hremotes localDeviceIdx
          remoteDeviceIdx
        rw [← Option.some.inj h]
        refine ⟨hkeeps, hset _ (fun l outbox hl => ?_), hremote⟩
        rw [grow_set_get] at hl
        by_cases hll : l = localDeviceIdx
        · rw [if_pos hll] at hl
          rw [← Option.some.inj (Option.some.inj hl)]
          exact hremote
        · rw [if_neg hll] at hl
          exact hrow l outbox hl

end Opening

-- ── What a transition does ───────────────────────────────────────────────────

/-- The half after the callback of an operation, if that has one. -/
def RecvHalf.called (h : RecvHalf) (op : ChunkRecvOperation) (error : Bool) : RecvHalf :=
  { h with callbacks := h.callbacks
      ++ if op.callback then [(op.chunk.bufferSequenceNumber, error)] else [] }

/-- The half with other operations. -/
def RecvHalf.withOps (h : RecvHalf) (ops : List ChunkRecvOperation) : RecvHalf :=
  { h with chunkRecvOps := ops }

/-- A chunk was copied, and the reply was written. -/
def RecvHalf.replied (h : RecvHalf) (op : ChunkRecvOperation) (copy : Copy) : RecvHalf :=
  { h with copied := h.copied ++ [copy], replies := h.replies ++ [op.tag] }

/-- The copy of a chunk out of a slot of an outbox. -/
def ChunkRecvOperation.copyOf (op : ChunkRecvOperation) (h : RecvHalf)
    (remoteDeviceIdx remoteSlotIdx : Nat) (outbox : MemHandle) : Copy where
  tag := op.tag
  remoteDeviceIdx := remoteDeviceIdx
  received := h.remoteOutboxesReceived[remoteDeviceIdx]?
  ptr := op.chunk.ptr
  stream := op.chunk.stream
  slot := (outbox, remoteSlotIdx)

/-- The transfer of a copy out of a slot. -/
def Copy.transfer (copy : Copy) (self : Endpoint) : Transfer :=
  .fetch self copy.tag copy.ptr copy.slot

/-- The context after the copy was issued. -/
def ContextImpl.fetched (x : ContextImpl) (self : Endpoint) (copy : Copy) : ContextImpl :=
  x.issue copy.stream (copy.transfer self)

/-- The effect of each transition on the half and on the operation, behind `prev`. -/
inductive RecvFires (self : Endpoint) (error : Bool) (prev : RecvState) (s : Receiving)
    (op : ChunkRecvOperation) : Receiving → ChunkRecvOperation → Prop where
  | skip (herror : error = true) (hprev : prev = .FINISHED) (hstate : op.state = .UNINITIALIZED) :
      RecvFires self error prev s op (s.1, s.2.called op error)
        { op with state := .FINISHED, callback := false }
  | read (herror : error = false) (hprev : prev ≠ .UNINITIALIZED)
      (hstate : op.state = .UNINITIALIZED) :
      RecvFires self error prev s op
        (s.1, { s.2 with descriptorReads := s.2.descriptorReads ++ [op.tag] })
        { op with state := .READING_DESCRIPTOR }
  | drop (herror : error = true) (hprev : prev = .FINISHED)
      (hstate : op.state = .READING_DESCRIPTOR) (hdone : op.doneReadingDescriptor = true) :
      RecvFires self error prev s op (s.1, s.2.called op error)
        { op with state := .FINISHED, callback := false }
  | copy (remoteDeviceIdx remoteSlotIdx : Nat) (y : Receiving × MemHandle) (herror : error = false)
      (hprev : prev = .FINISHED) (hstate : op.state = .READING_DESCRIPTOR)
      (hdone : op.doneReadingDescriptor = true)
      (hdevice : op.remoteDeviceIdx = some remoteDeviceIdx)
      (hslot : op.remoteSlotIdx = some remoteSlotIdx)
      (hopened : openedOutbox s op.chunk.deviceIdx remoteDeviceIdx = some y) :
      RecvFires self error prev s op
        (y.1.1.fetched self (op.copyOf s.2 remoteDeviceIdx remoteSlotIdx y.2),
          (y.1.2.replied op (op.copyOf s.2 remoteDeviceIdx remoteSlotIdx y.2)).called op error)
        { op with state := .FINISHED, callback := false }

section Fires

variable {self : Endpoint} {error : Bool} {s : Receiving} {op : ChunkRecvOperation}

theorem callRecvCallback_eq (error : Bool) (s : Receiving) (op : ChunkRecvOperation) :
    callRecvCallback error s op
      = .returns ((s.1, s.2.called op error), { op with callback := false }) := by
  cases hcallback : op.callback with
  | true => simp [callRecvCallback, RecvHalf.called, hcallback]
  | false =>
      have hsame : { op with callback := false } = op := by rw [← hcallback]
      simp [callRecvCallback, RecvHalf.called, hcallback, hsame]

theorem copyFromStagingToTarget_eq {remoteDeviceIdx remoteSlotIdx : Nat} {y : Receiving × MemHandle}
    (hdevice : op.remoteDeviceIdx = some remoteDeviceIdx)
    (hslot : op.remoteSlotIdx = some remoteSlotIdx)
    (hopened : openedOutbox s op.chunk.deviceIdx remoteDeviceIdx = some y) :
    copyFromStagingToTarget self s op
      = .returns ((y.1.1.fetched self (op.copyOf s.2 remoteDeviceIdx remoteSlotIdx y.2),
          { y.1.2 with copied := y.1.2.copied
              ++ [op.copyOf s.2 remoteDeviceIdx remoteSlotIdx y.2] }), op) := by
  rw [copyFromStagingToTarget, hdevice, hslot]
  dsimp only
  rw [hopened]
  rfl

theorem RecvState.finished_le {st : RecvState} : RecvState.FINISHED ≤ st ↔ st = .FINISHED := by
  cases st <;> decide

theorem RecvState.reading_le {st : RecvState} :
    RecvState.READING_DESCRIPTOR ≤ st ↔ st ≠ .UNINITIALIZED := by
  cases st <;> decide

/-- A transition that is enabled fires, unless it does not know the outbox to copy from. -/
theorem recv_fires {prev : RecvState} {t : Transition Receiving ChunkRecvOperation RecvState}
    (ht : t ∈ advanceChunkRecvOperation self error) (hsource : op.state = t.source)
    (hcond : t.cond op prev = true)
    (hready : error = false → prev = .FINISHED → op.state = .READING_DESCRIPTOR →
      op.doneReadingDescriptor = true → ∃ remoteDeviceIdx remoteSlotIdx y,
        op.remoteDeviceIdx = some remoteDeviceIdx ∧ op.remoteSlotIdx = some remoteSlotIdx
          ∧ openedOutbox s op.chunk.deviceIdx remoteDeviceIdx = some y) :
    (runActions t.actions (s, op)).Post
      (fun y => RecvFires self error prev s op y.1 (withState y.2 t.target))
      (fun _ => False) := by
  simp only [advanceChunkRecvOperation, List.mem_cons, List.not_mem_nil, or_false] at ht
  rcases ht with rfl | rfl | rfl | rfl
  · simp only [Bool.and_eq_true, decide_eq_true_eq, RecvState.finished_le] at hcond
    rw [runActions_single, callRecvCallback_eq]
    exact .skip hcond.1 hcond.2 hsource
  · simp only [Bool.and_eq_true, Bool.not_eq_true', decide_eq_true_eq,
      RecvState.reading_le] at hcond
    rw [runActions_single]
    exact .read hcond.1 hcond.2 hsource
  · simp only [Bool.and_eq_true, decide_eq_true_eq, RecvState.finished_le] at hcond
    rw [runActions_single, callRecvCallback_eq]
    exact .drop hcond.1.1 hcond.2 hsource hcond.1.2
  · simp only [Bool.and_eq_true, Bool.not_eq_true', decide_eq_true_eq,
      RecvState.finished_le] at hcond
    obtain ⟨remoteDeviceIdx, remoteSlotIdx, y, hdevice, hslot, hopened⟩ :=
      hready hcond.1.1 hcond.2 hsource hcond.1.2
    rw [runActions, copyFromStagingToTarget_eq hdevice hslot hopened, Outcome.bind_returns,
      runActions, writeReply, Outcome.bind_returns, runActions_single, callRecvCallback_eq]
    exact .copy remoteDeviceIdx remoteSlotIdx y hcond.1.1 hcond.2 hsource hcond.1.2 hdevice hslot
      hopened

end Fires

-- ── The invariant rule ───────────────────────────────────────────────────────

/-- What an invariant of a receiving half owes its operations. -/
structure RecvRule (e : Endpoint) (error : Bool) (Inv : Receiving → Prop) : Prop where
  numbered : ∀ s, Inv s → ∃ next, Numbered next s.2.chunkRecvOps
  ready : ∀ (s : Receiving) pre op post, Inv (s.1, s.2.withOps (pre ++ op :: post)) →
    error = false → lastState .FINISHED pre = .FINISHED → op.state = .READING_DESCRIPTOR →
    op.doneReadingDescriptor = true → ∃ remoteDeviceIdx remoteSlotIdx y,
      op.remoteDeviceIdx = some remoteDeviceIdx ∧ op.remoteSlotIdx = some remoteSlotIdx
        ∧ openedOutbox s op.chunk.deviceIdx remoteDeviceIdx = some y
  fire : ∀ (s : Receiving) pre op post y op', Inv (s.1, s.2.withOps (pre ++ op :: post)) →
    RecvFires e error (lastState .FINISHED pre) s op y op' →
    Inv (y.1, y.2.withOps (pre ++ op' :: post))
  pop : ∀ (s : Receiving) op rest, Inv (s.1, s.2.withOps (op :: rest)) → op.state = .FINISHED →
    Inv (s.1, s.2.withOps rest)

section Rule

variable {e : Endpoint} {error : Bool} {Inv : Receiving → Prop}

theorem RecvRule.preserves (h : RecvRule e error Inv) :
    Preserves (advanceChunkRecvOperation e error) (fun s ops => Inv (s.1, s.2.withOps ops))
      (fun _ _ => False) where
  numbered := fun _ _ hinv => h.numbered _ hinv
  fire := by
    intro s pre op post t hinv ht hsource hcond
    exact (recv_fires ht hsource hcond (h.ready s pre op post hinv)).imp
      (fun y hy => h.fire s pre op post _ _ hinv hy) (fun _ hno => hno)
  pop := fun s op rest hinv hfin => h.pop s op rest hinv hfin

theorem RecvRule.advance (h : RecvRule e error Inv) {s : Receiving} (hinv : Inv s) (n : Nat) :
    Inv (recvAdvance e error n s) := by
  have hpost : (advanceOperation (advanceChunkRecvOperation e error) s
      s.2.chunkRecvOps n).Post _ _ := advanceOperation_preserves h.preserves n hinv
  rw [recvAdvance]
  cases hadv : advanceOperation (advanceChunkRecvOperation e error) s s.2.chunkRecvOps n with
  | throws y => rw [hadv] at hpost; exact hpost.elim
  | returns y => rw [hadv] at hpost; exact hpost

theorem RecvRule.advanceAll (h : RecvRule e error Inv) {s : Receiving} (hinv : Inv s) :
    Inv (recvAdvanceAll e error s) := by
  have hpost : (advanceAllOperations (advanceChunkRecvOperation e error) s
      s.2.chunkRecvOps).Post _ _ := advanceAllOperations_preserves h.preserves hinv
  rw [recvAdvanceAll]
  cases hadv : advanceAllOperations (advanceChunkRecvOperation e error) s
      s.2.chunkRecvOps with
  | throws y => rw [hadv] at hpost; exact hpost.elim
  | returns y => rw [hadv] at hpost; exact hpost

end Rule

-- ── The invariant ────────────────────────────────────────────────────────────

/-- An operation, by what the half has read and copied.  `frames` are the descriptors that the
    other end has written. -/
structure RecvOk (S : Setup) (e : Endpoint) (error : Bool) (frames : List (Tag × Descriptor))
    (h : RecvHalf) (op : ChunkRecvOperation) : Prop where
  chunk : op.tag.IsOf (S.length e.other)
  below : op.sequenceNumber < h.descriptorReads.length → op.state ≠ .UNINITIALIZED
  above : h.descriptorReads.length ≤ op.sequenceNumber →
    op.state ≠ .READING_DESCRIPTOR ∧ (error = false → op.state ≠ .FINISHED)
  uncopied : op.state ≠ .FINISHED → h.copied.length ≤ op.sequenceNumber
  copied : error = false → op.state = .FINISHED → op.sequenceNumber < h.copied.length
  told : error = false → op.doneReadingDescriptor = true →
    ∃ frame, frames[op.sequenceNumber]? = some frame
      ∧ op.remoteDeviceIdx = some frame.2.deviceIdx ∧ op.remoteSlotIdx = some frame.2.slotIdx
  asked : op.state = .UNINITIALIZED → op.doneReadingDescriptor = false
  read : op.doneReadingDescriptor = true → op.sequenceNumber ∈ h.descriptorsRead

/-- What the half knows of the outboxes of the other end. -/
structure Known (S : Setup) (e : Endpoint) (error : Bool) (frames : List (Tag × Descriptor))
    (h : RecvHalf) : Prop where
  heard : ∀ d info, h.remoteOutboxesReceived[d]? = some (some info) →
    ∃ i ∈ h.descriptorsRead, ∃ frame, frames[i]? = some frame ∧ frame.2.deviceIdx = d
      ∧ frame.2.outboxInfo = some info
  learnt : error = false → ∀ i ∈ h.descriptorsRead, ∀ frame info, frames[i]? = some frame →
    frame.2.outboxInfo = some info → h.remoteOutboxesReceived[frame.2.deviceIdx]? = some (some info)
  within : error = false → ∀ i ∈ h.descriptorsRead, i < frames.length
  dchecks : h.dchecks = true
  opened : Opened S e h

/-- What the half has copied: each chunk out of the slot that its descriptor names, of an outbox
    that the device of the descriptor can mean. -/
structure Copied (S : Setup) (e : Endpoint) (frames : List (Tag × Descriptor)) (h : RecvHalf) :
    Prop where
  inTurn : InTurn (S.length e.other) (h.copied.map Copy.tag)
  replies : h.replies = h.copied.map Copy.tag
  reads : h.copied.length ≤ h.descriptorReads.length
  read : ∀ i < h.copied.length, i ∈ h.descriptorsRead
  outbox : ∀ (i : Nat) copy, h.copied[i]? = some copy →
    copy.received = some (some (S.info e.other copy.remoteDeviceIdx))
      ∧ RemoteOf S e.other copy.remoteDeviceIdx copy.slot.1
      ∧ ∃ frame, frames[i]? = some frame ∧ frame.2.deviceIdx = copy.remoteDeviceIdx
        ∧ frame.2.slotIdx = copy.slot.2

/-- The invariant of a receiving half.  No chunk is lost before there is an error. -/
structure RecvInv (S : Setup) (e : Endpoint) (error : Bool) (frames : List (Tag × Descriptor))
    (s : Receiving) : Prop where
  remotes : Remotes S s.1
  numbered : Numbered s.2.nextChunkBeingReceived s.2.chunkRecvOps
  within : s.2.descriptorReads.length ≤ s.2.nextChunkBeingReceived
  inTurn : InTurn (S.length e.other) s.2.descriptorReads
  ops : ∀ op ∈ s.2.chunkRecvOps, RecvOk S e error frames s.2 op
  kept : error = false → ∀ n < s.2.nextChunkBeingReceived, n < s.2.copied.length
    ∨ ∃ op ∈ s.2.chunkRecvOps, op.sequenceNumber = n
  known : Known S e error frames s.2
  copied : Copied S e frames s.2

section Fire

variable {S : Setup} {e : Endpoint} {error : Bool} {frames : List (Tag × Descriptor)}

/-- What counts for an operation is what the half has read and copied. -/
theorem RecvOk.frame {h h' : RecvHalf} {op : ChunkRecvOperation}
    (hok : RecvOk S e error frames h op) (hreads : h'.descriptorReads = h.descriptorReads)
    (hcopied : h'.copied = h.copied) (hread : h'.descriptorsRead = h.descriptorsRead) :
    RecvOk S e error frames h' op := by
  refine ⟨hok.chunk, ?_, ?_, ?_, ?_, hok.told, hok.asked, ?_⟩
  · rw [hreads]
    exact hok.below
  · rw [hreads]
    exact hok.above
  · rw [hcopied]
    exact hok.uncopied
  · rw [hcopied]
    exact hok.copied
  · rw [hread]
    exact hok.read

theorem Known.frame {h h' : RecvHalf} (hk : Known S e error frames h)
    (hread : h'.descriptorsRead = h.descriptorsRead)
    (hreceived : h'.remoteOutboxesReceived = h.remoteOutboxesReceived)
    (hdchecks : h'.dchecks = h.dchecks)
    (hopened : h'.remoteOutboxesOpened = h.remoteOutboxesOpened) : Known S e error frames h' := by
  refine ⟨?_, ?_, ?_, hdchecks.trans hk.dchecks, ?_⟩
  · rw [hread, hreceived]
    exact hk.heard
  · rw [hread, hreceived]
    exact hk.learnt
  · rw [hread]
    exact hk.within
  · rw [Opened, hopened]
    exact hk.opened

theorem Copied.frame {h h' : RecvHalf} (hc : Copied S e frames h)
    (hcopied : h'.copied = h.copied) (hreplies : h'.replies = h.replies)
    (hreads : h.descriptorReads.length ≤ h'.descriptorReads.length)
    (hread : h'.descriptorsRead = h.descriptorsRead) : Copied S e frames h' := by
  refine ⟨?_, ?_, ?_, ?_, ?_⟩
  · rw [hcopied]
    exact hc.inTurn
  · rw [hreplies, hcopied]
    exact hc.replies
  · rw [hcopied]
    exact Nat.le_trans hc.reads hreads
  · rw [hcopied, hread]
    exact hc.read
  · rw [hcopied]
    exact hc.outbox

/-- One operation moves and copies nothing. -/
theorem RecvInv.move {s : Receiving} {h : RecvHalf} {pre post : List ChunkRecvOperation}
    {op op' : ChunkRecvOperation}
    (hinv : RecvInv S e error frames (s.1, s.2.withOps (pre ++ op :: post)))
    (hsame : h = { s.2 with callbacks := h.callbacks })
    (hseq : op'.sequenceNumber = op.sequenceNumber) (hok : RecvOk S e error frames s.2 op') :
    RecvInv S e error frames (s.1, h.withOps (pre ++ op' :: post)) := by
  rw [hsame]
  refine ⟨hinv.remotes, numbered_set hinv.numbered hseq, hinv.within, hinv.inTurn, ?_, ?_,
    hinv.known.frame rfl rfl rfl rfl, hinv.copied.frame rfl rfl (Nat.le_refl _) rfl⟩
  · intro o ho
    rcases mem_replaced hinv.numbered ho with rfl | ⟨hold, -⟩
    · exact hok.frame rfl rfl rfl
    · exact (hinv.ops o hold).frame rfl rfl rfl
  · intro herror n hn
    rcases hinv.kept herror n hn with hlt | ⟨o, ho, hon⟩
    · exact .inl hlt
    · rcases mem_kept ho with rfl | hkept
      · exact .inr ⟨op', List.mem_append_right _ (List.mem_cons_self ..), hseq.trans hon⟩
      · exact .inr ⟨o, hkept, hon⟩

/-- The operation before an operation, or its chunk was copied. -/
theorem RecvInv.before {s : Receiving} {pre post : List ChunkRecvOperation}
    {op : ChunkRecvOperation}
    (hinv : RecvInv S e error frames (s.1, s.2.withOps (pre ++ op :: post)))
    (herror : error = false) {n : Nat} (hn : op.sequenceNumber = n + 1)
    (hcopied : s.2.copied.length ≤ n) :
    ∃ o, RecvOk S e error frames s.2 o ∧ o.sequenceNumber = n
      ∧ lastState .FINISHED pre = o.state := by
  have hmid : op.sequenceNumber + post.length + 1 = s.2.nextChunkBeingReceived :=
    numbered_mid hinv.numbered
  have hbelow : n < s.2.nextChunkBeingReceived := by omega
  rcases hinv.kept herror n hbelow with hlt | ⟨o, ho, hon⟩
  · exact absurd hcopied (Nat.not_le.mpr hlt)
  · have hbefore : o.sequenceNumber + 1 = op.sequenceNumber := by rw [hon, hn]
    exact ⟨o, (hinv.ops o ho).frame rfl rfl rfl, hon, lastState_before hinv.numbered ho hbefore⟩

/-- The chunk whose turn it is to be copied. -/
theorem RecvInv.turn {s : Receiving} {pre post : List ChunkRecvOperation} {op : ChunkRecvOperation}
    (hinv : RecvInv S e error frames (s.1, s.2.withOps (pre ++ op :: post)))
    (herror : error = false) (hprev : lastState .FINISHED pre = RecvState.FINISHED)
    (hstate : op.state ≠ .FINISHED) : op.sequenceNumber = s.2.copied.length := by
  have hok := hinv.ops op (List.mem_append_right _ (List.mem_cons_self ..))
  have hge : s.2.copied.length ≤ op.sequenceNumber := hok.uncopied hstate
  by_contra hne
  obtain ⟨n, hn⟩ : ∃ n, op.sequenceNumber = n + 1 := ⟨op.sequenceNumber - 1, by omega⟩
  obtain ⟨o, hoko, hon, hlast⟩ := hinv.before herror hn (by omega)
  have hlt := hoko.copied herror (hlast.symm.trans hprev)
  omega

/-- The chunk whose turn it is to have its descriptor read. -/
theorem RecvInv.readTurn {s : Receiving} {pre post : List ChunkRecvOperation}
    {op : ChunkRecvOperation}
    (hinv : RecvInv S e error frames (s.1, s.2.withOps (pre ++ op :: post)))
    (herror : error = false) (hprev : lastState .FINISHED pre ≠ RecvState.UNINITIALIZED)
    (hstate : op.state = .UNINITIALIZED) : op.sequenceNumber = s.2.descriptorReads.length := by
  have hok := hinv.ops op (List.mem_append_right _ (List.mem_cons_self ..))
  have hge : s.2.descriptorReads.length ≤ op.sequenceNumber :=
    Nat.le_of_not_lt (fun hlt => hok.below hlt hstate)
  have hreads : s.2.copied.length ≤ s.2.descriptorReads.length := hinv.copied.reads
  by_contra hne
  obtain ⟨n, hn⟩ : ∃ n, op.sequenceNumber = n + 1 := ⟨op.sequenceNumber - 1, by omega⟩
  obtain ⟨o, hoko, hon, hlast⟩ := hinv.before herror hn (by omega)
  obtain ⟨hreading, hfinished⟩ := hoko.above (by omega)
  rw [hlast] at hprev
  cases host : o.state with
  | UNINITIALIZED => exact hprev host
  | READING_DESCRIPTOR => exact hreading host
  | FINISHED => exact hfinished herror host

/-- What the other end has written. -/
structure Frames (S : Setup) (e : Endpoint) (frames : List (Tag × Descriptor)) : Prop where
  inTurn : InTurn (S.length e.other) (frames.map Prod.fst)
  introduces : Introduces (S.info e.other) frames

/-- A copy that is due knows the outbox of its descriptor. -/
theorem RecvInv.due (hframes : Frames S e frames) {s : Receiving}
    {pre post : List ChunkRecvOperation}
    {op : ChunkRecvOperation}
    (hinv : RecvInv S e error frames (s.1, s.2.withOps (pre ++ op :: post)))
    (herror : error = false) (hprev : lastState .FINISHED pre = RecvState.FINISHED)
    (hstate : op.state = .READING_DESCRIPTOR) (hdone : op.doneReadingDescriptor = true) :
    ∃ frame, frames[s.2.copied.length]? = some frame ∧ frame.1 = op.tag
      ∧ op.remoteDeviceIdx = some frame.2.deviceIdx ∧ op.remoteSlotIdx = some frame.2.slotIdx
      ∧ s.2.remoteOutboxesReceived[frame.2.deviceIdx]?
        = some (some (S.info e.other frame.2.deviceIdx)) := by
  have hok := hinv.ops op (List.mem_append_right _ (List.mem_cons_self ..))
  have hturn : op.sequenceNumber = s.2.copied.length :=
    hinv.turn herror hprev (by rw [hstate]; exact RecvState.noConfusion)
  obtain ⟨frame, hframe, hdevice, hslot⟩ := hok.told herror hdone
  have htag : (frames.map Prod.fst)[op.sequenceNumber]? = some frame.1 := by
    rw [List.getElem?_map, hframe]
    rfl
  have hsame : frame.1 = op.tag := (hframes.inTurn.chunks _ (List.mem_of_getElem? htag)).unique
    hok.chunk (hframes.inTurn.number htag)
  -- the descriptor that told about the outbox was read before
  obtain ⟨j, hj, f, hf, hfd, hfi⟩ := hframes.introduces.exists_le _ frame hframe
  have hread : j ∈ s.2.descriptorsRead := by
    rcases Nat.lt_or_eq_of_le hj with hlt | rfl
    · exact hinv.copied.read j (hturn ▸ hlt)
    · exact hok.read hdone
  have hlearnt := hinv.known.learnt herror j hread f _ hf hfi
  rw [hturn] at hframe
  rw [hfd] at hlearnt
  exact ⟨frame, hframe, hsame, hdevice, hslot, hlearnt⟩

/-- Who is told about an outbox is told the truth. -/
theorem Known.right (hframes : Frames S e frames) {h : RecvHalf} (hk : Known S e error frames h)
    (d : Nat) (info : OutboxInfo) (hinfo : h.remoteOutboxesReceived[d]? = some (some info)) :
    info = S.info e.other d := by
  obtain ⟨i, -, frame, hframe, hd, hfi⟩ := hk.heard d info hinfo
  rw [← hd]
  exact hframes.introduces.right hframe hfi

/-- After an error an operation may finish without its chunk. -/
theorem RecvOk.finish {h : RecvHalf} {op : ChunkRecvOperation}
    (hok : RecvOk S e error frames h op) (herror : error = true) :
    RecvOk S e error frames h { op with state := .FINISHED, callback := false } := by
  refine ⟨hok.chunk, fun _ => RecvState.noConfusion, fun _ => ⟨RecvState.noConfusion, ?_⟩,
    fun hno => absurd rfl hno, ?_, hok.told, RecvState.noConfusion, hok.read⟩
  · exact fun hno => absurd (herror.symm.trans hno) (by decide)
  · exact fun hno => absurd (herror.symm.trans hno) (by decide)

/-- No chunk is lost when one operation moves. -/
theorem kept_set {pre post : List ChunkRecvOperation} {op op' : ChunkRecvOperation}
    {copied copied' n : Nat}
    (hkept : n < copied ∨ ∃ o ∈ pre ++ op :: post, o.sequenceNumber = n)
    (hseq : op'.sequenceNumber = op.sequenceNumber) (hle : copied ≤ copied') :
    n < copied' ∨ ∃ o ∈ pre ++ op' :: post, o.sequenceNumber = n := by
  rcases hkept with hlt | ⟨o, ho, hon⟩
  · exact .inl (Nat.lt_of_lt_of_le hlt hle)
  · rcases mem_kept ho with rfl | hkept
    · exact .inr ⟨op', List.mem_append_right _ (List.mem_cons_self ..), hseq.trans hon⟩
    · exact .inr ⟨o, hkept, hon⟩

/-- The read of a descriptor begins. -/
theorem RecvInv.read {s : Receiving} {pre post : List ChunkRecvOperation} {op : ChunkRecvOperation}
    (hinv : RecvInv S e error frames (s.1, s.2.withOps (pre ++ op :: post)))
    (herror : error = false) (hprev : lastState .FINISHED pre ≠ RecvState.UNINITIALIZED)
    (hstate : op.state = .UNINITIALIZED) :
    RecvInv S e error frames (s.1,
      { s.2 with descriptorReads := s.2.descriptorReads ++ [op.tag] }.withOps
        (pre ++ { op with state := .READING_DESCRIPTOR } :: post)) := by
  have hok : RecvOk S e error frames s.2 op :=
    (hinv.ops op (List.mem_append_right _ (List.mem_cons_self ..))).frame rfl rfl rfl
  have hturn := hinv.readTurn herror hprev hstate
  have hmid : op.sequenceNumber + post.length + 1 = s.2.nextChunkBeingReceived :=
    numbered_mid hinv.numbered
  have hlength : (s.2.descriptorReads ++ [op.tag]).length = s.2.descriptorReads.length + 1 := by
    rw [List.length_append, List.length_singleton]
  refine ⟨hinv.remotes, numbered_set hinv.numbered rfl, ?_, hinv.inTurn.append hok.chunk hturn,
    ?_, ?_, hinv.known.frame rfl rfl rfl rfl, hinv.copied.frame rfl rfl ?_ rfl⟩
  · show (s.2.descriptorReads ++ [op.tag]).length ≤ s.2.nextChunkBeingReceived
    rw [hlength]
    omega
  · intro o ho
    rcases mem_replaced hinv.numbered ho with rfl | ⟨hold, hne⟩
    · refine ⟨hok.chunk, fun _ => RecvState.noConfusion, fun hle => ?_,
        fun _ => hok.uncopied (by rw [hstate]; exact RecvState.noConfusion),
        fun _ => RecvState.noConfusion, hok.told, RecvState.noConfusion, hok.read⟩
      have hle' : (s.2.descriptorReads ++ [op.tag]).length ≤ op.sequenceNumber := hle
      omega
    · have hne' : o.sequenceNumber ≠ op.sequenceNumber := hne
      have hoko := hinv.ops o hold
      refine ⟨hoko.chunk, fun hlt => ?_, fun hle => ?_, hoko.uncopied, hoko.copied, hoko.told,
        hoko.asked, hoko.read⟩
      · have hlt' : o.sequenceNumber < (s.2.descriptorReads ++ [op.tag]).length := hlt
        refine hoko.below ?_
        show o.sequenceNumber < s.2.descriptorReads.length
        omega
      · have hle' : (s.2.descriptorReads ++ [op.tag]).length ≤ o.sequenceNumber := hle
        refine hoko.above ?_
        show s.2.descriptorReads.length ≤ o.sequenceNumber
        omega
  · exact fun herror' n hn => kept_set (hinv.kept herror' n hn) rfl (Nat.le_refl _)
  · show s.2.descriptorReads.length ≤ (s.2.descriptorReads ++ [op.tag]).length
    omega

/-- One more chunk is copied, out of the slot that its descriptor names. -/
theorem Copied.append {h : RecvHalf} (hc : Copied S e frames h) {op : ChunkRecvOperation}
    {frame : Tag × Descriptor} {outbox : MemHandle} (hchunk : op.tag.IsOf (S.length e.other))
    (hturn : op.sequenceNumber = h.copied.length)
    (hreads : h.copied.length + 1 ≤ h.descriptorReads.length)
    (hread : op.sequenceNumber ∈ h.descriptorsRead)
    (hframe : frames[h.copied.length]? = some frame)
    (hreceived : h.remoteOutboxesReceived[frame.2.deviceIdx]?
      = some (some (S.info e.other frame.2.deviceIdx)))
    (hremote : RemoteOf S e.other frame.2.deviceIdx outbox) :
    Copied S e frames (h.replied op (op.copyOf h frame.2.deviceIdx frame.2.slotIdx outbox)) := by
  have hlength : (h.copied ++ [op.copyOf h frame.2.deviceIdx frame.2.slotIdx outbox]).length
      = h.copied.length + 1 := by
    rw [List.length_append, List.length_singleton]
  refine ⟨?_, ?_, ?_, ?_, ?_⟩
  · show InTurn _ ((h.copied ++ [_]).map Copy.tag)
    rw [List.map_append, List.map_singleton]
    refine hc.inTurn.append hchunk ?_
    rw [List.length_map]
    exact hturn
  · show h.replies ++ [op.tag] = (h.copied ++ [_]).map Copy.tag
    rw [List.map_append, List.map_singleton, hc.replies]
    rfl
  · show (h.copied ++ [_]).length ≤ h.descriptorReads.length
    rw [hlength]
    exact hreads
  · intro i hi
    have hi' : i < (h.copied ++ [op.copyOf h frame.2.deviceIdx frame.2.slotIdx outbox]).length := hi
    rcases Nat.lt_succ_iff_lt_or_eq.mp (hlength ▸ hi') with hlt | rfl
    · exact hc.read i hlt
    · exact hturn ▸ hread
  · intro i c hi
    have hi' : (h.copied ++ [op.copyOf h frame.2.deviceIdx frame.2.slotIdx outbox])[i]? = some c :=
      hi
    rw [List.getElem?_append] at hi'
    split at hi'
    · exact hc.outbox i c hi'
    · next hge =>
        rw [List.getElem?_singleton] at hi'
        split at hi'
        · obtain rfl := Option.some.inj hi'
          obtain rfl : i = h.copied.length := by omega
          exact ⟨hreceived, hremote, frame, hframe, rfl, rfl⟩
        · exact absurd hi' (by simp)

/-- The copy of a chunk is issued, and the reply is written. -/
theorem RecvInv.copy (hframes : Frames S e frames) {s : Receiving}
    {pre post : List ChunkRecvOperation} {op : ChunkRecvOperation}
    (hinv : RecvInv S e error frames (s.1, s.2.withOps (pre ++ op :: post)))
    (herror : error = false) (hprev : lastState .FINISHED pre = RecvState.FINISHED)
    (hstate : op.state = .READING_DESCRIPTOR) (hdone : op.doneReadingDescriptor = true)
    {remoteDeviceIdx remoteSlotIdx : Nat} {y : Receiving × MemHandle}
    (hdevice : op.remoteDeviceIdx = some remoteDeviceIdx)
    (hslot : op.remoteSlotIdx = some remoteSlotIdx)
    (hopened : openedOutbox s op.chunk.deviceIdx remoteDeviceIdx = some y) (self : Endpoint) :
    RecvInv S e error frames
      (y.1.1.fetched self (op.copyOf s.2 remoteDeviceIdx remoteSlotIdx y.2),
        ((y.1.2.replied op (op.copyOf s.2 remoteDeviceIdx remoteSlotIdx y.2)).called op
          error).withOps (pre ++ { op with state := .FINISHED, callback := false } :: post)) := by
  have hok : RecvOk S e error frames s.2 op :=
    (hinv.ops op (List.mem_append_right _ (List.mem_cons_self ..))).frame rfl rfl rfl
  have hturn : op.sequenceNumber = s.2.copied.length :=
    hinv.turn herror hprev (by rw [hstate]; exact RecvState.noConfusion)
  obtain ⟨frame, hframe, htag, hdevice', hslot', hreceived⟩ :=
    hinv.due hframes herror hprev hstate hdone
  obtain rfl := Option.some.inj (hdevice.symm.trans hdevice')
  obtain rfl := Option.some.inj (hslot.symm.trans hslot')
  obtain ⟨hremotes, hopened', hremote⟩ := openedOutbox_keeps (s := s) (e := e) hinv.remotes
    hinv.known.opened (hinv.known.right hframes) hopened
  obtain ⟨-, hsame⟩ := openedOutbox_same hopened
  have hreads : s.2.copied.length + 1 ≤ s.2.descriptorReads.length := by
    have hlt : op.sequenceNumber < s.2.descriptorReads.length :=
      Nat.lt_of_not_le (fun hle => (hok.above hle).1 hstate)
    omega
  have hcopied : Copied S e frames (s.2.replied op
      (op.copyOf s.2 frame.2.deviceIdx frame.2.slotIdx y.2)) :=
    (hinv.copied.frame rfl rfl (Nat.le_refl _) rfl : Copied S e frames s.2).append hok.chunk hturn
      hreads (hok.read hdone) hframe hreceived hremote
  generalize op.copyOf s.2 frame.2.deviceIdx frame.2.slotIdx y.2 = copy at hcopied
  have hlength : (s.2.copied ++ [copy]).length = s.2.copied.length + 1 := by
    rw [List.length_append, List.length_singleton]
  rw [hsame]
  refine ⟨hremotes, numbered_set hinv.numbered rfl, hinv.within, hinv.inTurn, ?_, ?_,
    ⟨hinv.known.heard, hinv.known.learnt, hinv.known.within, hinv.known.dchecks, hopened'⟩,
    hcopied.frame rfl rfl (Nat.le_refl _) rfl⟩
  · intro o ho
    rcases mem_replaced hinv.numbered ho with rfl | ⟨hold, hne⟩
    · refine ⟨hok.chunk, fun _ => RecvState.noConfusion,
        fun hle => ⟨RecvState.noConfusion, fun _ => ?_⟩, fun hno => absurd rfl hno,
        fun _ _ => ?_, hok.told, RecvState.noConfusion, hok.read⟩
      · exact absurd hstate (hok.above hle).1
      · show op.sequenceNumber < (s.2.copied ++ [copy]).length
        omega
    · have hne' : o.sequenceNumber ≠ op.sequenceNumber := hne
      have hoko := hinv.ops o hold
      refine ⟨hoko.chunk, hoko.below, hoko.above, fun hno => ?_, fun herror' hfin => ?_,
        hoko.told, hoko.asked, hoko.read⟩
      · have hle : s.2.copied.length ≤ o.sequenceNumber := hoko.uncopied hno
        show (s.2.copied ++ [copy]).length ≤ o.sequenceNumber
        omega
      · have hlt : o.sequenceNumber < s.2.copied.length := hoko.copied herror' hfin
        show o.sequenceNumber < (s.2.copied ++ [copy]).length
        omega
  · intro herror' n hn
    refine kept_set (hinv.kept herror' n hn) rfl ?_
    show s.2.copied.length ≤ (s.2.copied ++ [copy]).length
    omega

/-- A half at work, with the numbers of chunks begun and of tensors that it keeps to. -/
structure Recving (S : Setup) (e : Endpoint) (error : Bool) (frames : List (Tag × Descriptor))
    (chunks tensors : Nat) (s : Receiving) : Prop where
  inv : RecvInv S e error frames s
  counts : s.2.nextChunkBeingReceived = chunks ∧ s.2.nextTensorBeingReceived = tensors

/-- **Step lemma**: a transition that fires keeps the invariant. -/
theorem Recving.fire {self : Endpoint} {chunks tensors : Nat} (hframes : Frames S e frames)
    {s : Receiving} {pre post : List ChunkRecvOperation} {op op' : ChunkRecvOperation}
    {y : Receiving}
    (h : Recving S e error frames chunks tensors (s.1, s.2.withOps (pre ++ op :: post)))
    (hfire : RecvFires self error (lastState .FINISHED pre) s op y op') :
    Recving S e error frames chunks tensors (y.1, y.2.withOps (pre ++ op' :: post)) := by
  have hok : RecvOk S e error frames s.2 op :=
    (h.inv.ops op (List.mem_append_right _ (List.mem_cons_self ..))).frame rfl rfl rfl
  cases hfire with
  | skip herror hprev hstate => exact ⟨h.inv.move rfl rfl (hok.finish herror), h.counts⟩
  | drop herror hprev hstate hdone => exact ⟨h.inv.move rfl rfl (hok.finish herror), h.counts⟩
  | read herror hprev hstate => exact ⟨h.inv.read herror hprev hstate, h.counts⟩
  | copy remoteDeviceIdx remoteSlotIdx y herror hprev hstate hdone hdevice hslot hopened =>
      refine ⟨h.inv.copy hframes herror hprev hstate hdone hdevice hslot hopened self, ?_⟩
      rw [(openedOutbox_same hopened).2]
      exact h.counts

theorem recvRule {self : Endpoint} {chunks tensors : Nat} (hframes : Frames S e frames) :
    RecvRule self error (Recving S e error frames chunks tensors) where
  numbered := fun _ h => ⟨_, h.inv.numbered⟩
  ready := by
    intro s pre op post h herror hprev hstate hdone
    obtain ⟨frame, -, -, hdevice, hslot, hreceived⟩ := h.inv.due hframes herror hprev hstate hdone
    obtain ⟨y, hy⟩ := openedOutbox_isSome op.chunk.deviceIdx hreceived
    exact ⟨_, _, y, hdevice, hslot, hy⟩
  fire := fun s pre op post y op' h hfire => h.fire hframes hfire
  pop := by
    intro s op rest h hfin
    have hinv := h.inv
    refine ⟨⟨hinv.remotes, hinv.numbered.2, hinv.within, hinv.inTurn,
      fun o ho => (hinv.ops o (List.mem_cons_of_mem _ ho)).frame rfl rfl rfl, ?_,
      hinv.known.frame rfl rfl rfl rfl, hinv.copied.frame rfl rfl (Nat.le_refl _) rfl⟩, h.counts⟩
    intro herror n hn
    rcases hinv.kept herror n hn with hlt | ⟨o, ho, hon⟩
    · exact .inl hlt
    · rcases List.mem_cons.mp ho with rfl | hrest
      · exact .inl (hon ▸ (hinv.ops o (List.mem_cons_self ..)).copied herror hfin)
      · exact .inr ⟨o, hrest, hon⟩

end Fire

-- ── Tasks ────────────────────────────────────────────────────────────────────

section Tasks

variable {S : Setup} {e : Endpoint} {error : Bool} {frames : List (Tag × Descriptor)}
  {s : Receiving}

/-- The error is set. -/
theorem RecvInv.fail (hinv : RecvInv S e false frames s) : RecvInv S e true frames s where
  remotes := hinv.remotes
  numbered := hinv.numbered
  within := hinv.within
  inTurn := hinv.inTurn
  ops := fun op hop =>
    have hok := hinv.ops op hop
    ⟨hok.chunk, hok.below, fun hle => ⟨(hok.above hle).1, fun hno => absurd hno (by decide)⟩,
      hok.uncopied, fun hno => absurd hno (by decide), fun hno => absurd hno (by decide), hok.asked,
      hok.read⟩
  kept := fun hno => absurd hno (by decide)
  known := ⟨hinv.known.heard, fun hno => absurd hno (by decide), fun hno => absurd hno (by decide),
    hinv.known.dchecks, hinv.known.opened⟩
  copied := hinv.copied

/-- The other end writes more. -/
theorem RecvInv.mono (hinv : RecvInv S e error frames s) {frames' : List (Tag × Descriptor)}
    (hmore : frames <+: frames') : RecvInv S e error frames' s := by
  obtain ⟨more, rfl⟩ := hmore
  have hget : ∀ {i : Nat} {frame}, frames[i]? = some frame → (frames ++ more)[i]? = some frame := by
    intro i frame hi
    rw [List.getElem?_append_left (List.getElem?_eq_some_iff.mp hi).1]
    exact hi
  refine ⟨hinv.remotes, hinv.numbered, hinv.within, hinv.inTurn, fun op hop => ?_, hinv.kept,
    ⟨?_, ?_, ?_, hinv.known.dchecks, hinv.known.opened⟩, ?_⟩
  · have hok := hinv.ops op hop
    refine ⟨hok.chunk, hok.below, hok.above, hok.uncopied, hok.copied, fun herror hdone => ?_,
      hok.asked, hok.read⟩
    obtain ⟨frame, hframe, hrest⟩ := hok.told herror hdone
    exact ⟨frame, hget hframe, hrest⟩
  · intro d info hinfo
    obtain ⟨i, hi, frame, hframe, hrest⟩ := hinv.known.heard d info hinfo
    exact ⟨i, hi, frame, hget hframe, hrest⟩
  · intro herror i hi frame info hframe hinfo
    rw [List.getElem?_append_left (hinv.known.within herror i hi)] at hframe
    exact hinv.known.learnt herror i hi frame info hframe hinfo
  · intro herror i hi
    rw [List.length_append]
    exact Nat.lt_add_right _ (hinv.known.within herror i hi)
  · have hc := hinv.copied
    refine ⟨hc.inTurn, hc.replies, hc.reads, hc.read, fun i copy hi => ?_⟩
    obtain ⟨hreceived, hremote, frame, hframe, hnames⟩ := hc.outbox i copy hi
    exact ⟨hreceived, hremote, frame, hget hframe, hnames⟩

/-- The operation of the next chunk is stored. -/
theorem RecvInv.push (hinv : RecvInv S e error frames s) {chunk : Chunk} {callback : Bool}
    (hchunk : (chunk.tag s.2.nextChunkBeingReceived).IsOf (S.length e.other)) :
    RecvInv S e error frames (s.1, { s.2 with
      nextChunkBeingReceived := s.2.nextChunkBeingReceived + 1
      chunkRecvOps := s.2.chunkRecvOps
        ++ [{ sequenceNumber := s.2.nextChunkBeingReceived, chunk, callback }] }) := by
  refine ⟨hinv.remotes, numbered_snoc hinv.numbered rfl, Nat.le_succ_of_le hinv.within,
    hinv.inTurn, ?_, ?_, hinv.known.frame rfl rfl rfl rfl,
    hinv.copied.frame rfl rfl (Nat.le_refl _) rfl⟩
  · intro o ho
    rcases List.mem_append.mp ho with hold | hnew
    · exact (hinv.ops o hold).frame rfl rfl rfl
    · rw [List.mem_singleton.mp hnew]
      exact ⟨hchunk, fun hlt => absurd hlt (Nat.not_lt.mpr hinv.within),
        fun _ => ⟨RecvState.noConfusion, fun _ => RecvState.noConfusion⟩,
        fun _ => Nat.le_trans hinv.copied.reads hinv.within, fun _ => RecvState.noConfusion,
        fun _ => Bool.noConfusion, fun _ => rfl, Bool.noConfusion⟩
  · intro herror n hn
    rcases Nat.lt_succ_iff_lt_or_eq.mp hn with hlt | rfl
    · rcases hinv.kept herror n hlt with hbelow | ⟨o, ho, hon⟩
      · exact .inl hbelow
      · exact .inr ⟨o, List.mem_append_left _ ho, hon⟩
    · exact .inr ⟨_, List.mem_append_right _ (List.mem_singleton_self _), rfl⟩

/-- A descriptor was read, or the read failed: the operation is told, and what is known of the
    outboxes may change. -/
theorem RecvInv.tell (hinv : RecvInv S e error frames s) {n : Nat}
    {f : ChunkRecvOperation → ChunkRecvOperation} (received : List (Option OutboxInfo))
    (dchecks : Bool) (hseq : ∀ op, (f op).sequenceNumber = op.sequenceNumber)
    (hok : ∀ op ∈ s.2.chunkRecvOps, op.sequenceNumber = n → RecvOk S e error frames s.2 op →
      RecvOk S e error frames { s.2 with descriptorsRead := s.2.descriptorsRead ++ [n] } (f op))
    (hknown : Known S e error frames { s.2 with
      descriptorsRead := s.2.descriptorsRead ++ [n]
      remoteOutboxesReceived := received
      dchecks := dchecks }) :
    RecvInv S e error frames (s.1, { s.2 with
      descriptorsRead := s.2.descriptorsRead ++ [n]
      remoteOutboxesReceived := received
      dchecks := dchecks
      chunkRecvOps := modifyOperation n f s.2.chunkRecvOps }) := by
  refine ⟨hinv.remotes, numbered_modify hseq hinv.numbered, hinv.within, hinv.inTurn, ?_, ?_,
    hknown.frame rfl rfl rfl rfl, ?_⟩
  · intro o ho
    rcases mem_modify ho with ⟨op, hop, hn, rfl⟩ | ⟨hold, -⟩
    · exact (hok op hop hn (hinv.ops op hop)).frame rfl rfl rfl
    · have hoko := hinv.ops o hold
      exact ⟨hoko.chunk, hoko.below, hoko.above, hoko.uncopied, hoko.copied, hoko.told, hoko.asked,
        fun hdone => List.mem_append_left _ (hoko.read hdone)⟩
  · intro herror k hk
    rcases hinv.kept herror k hk with hlt | ⟨op, hop, hon⟩
    · exact .inl hlt
    · rcases modify_mem (n := n) (f := f) hop with ⟨-, hnew⟩ | ⟨-, hsame⟩
      · exact .inr ⟨f op, hnew, (hseq op).trans hon⟩
      · exact .inr ⟨op, hsame, hon⟩
  · have hc := hinv.copied
    exact ⟨hc.inTurn, hc.replies, hc.reads, fun i hi => List.mem_append_left _ (hc.read i hi),
      hc.outbox⟩

/-- **Introduction rule.**  A descriptor that was not read before does not tell about an outbox that
    is known. -/
theorem Known.introduce (hframes : Frames S e frames) {h : RecvHalf} (hk : Known S e error frames h)
    {n : Nat} {frame : Tag × Descriptor} (hframe : frames[n]? = some frame)
    (hnew : n ∉ h.descriptorsRead) : Known S e error frames
      (receiveOutbox frame.2 { h with descriptorsRead := h.descriptorsRead ++ [n] }) := by
  have hlt : n < frames.length := (List.getElem?_eq_some_iff.mp hframe).1
  have hwithin : error = false → ∀ i ∈ h.descriptorsRead ++ [n], i < frames.length := by
    intro herror i hi
    rcases List.mem_append.mp hi with hold | hlast
    · exact hk.within herror i hold
    · rw [List.mem_singleton.mp hlast]
      exact hlt
  rw [receiveOutbox]
  cases hinfo : frame.2.outboxInfo with
  | none =>
      refine ⟨fun d info hd => ?_, fun herror i hi frame' info hi' hinfo' => ?_, hwithin,
        hk.dchecks, hk.opened⟩
      · obtain ⟨i, hi, hrest⟩ := hk.heard d info hd
        exact ⟨i, List.mem_append_left _ hi, hrest⟩
      · rcases List.mem_append.mp hi with hold | hlast
        · exact hk.learnt herror i hold frame' info hi' hinfo'
        · rw [List.mem_singleton.mp hlast] at hi'
          rw [Option.some.inj (hi'.symm.trans hframe), hinfo] at hinfo'
          exact absurd hinfo' (by simp)
  | some info =>
      -- another descriptor of the device told nothing
      have hother : ∀ i ∈ h.descriptorsRead, ∀ frame', frames[i]? = some frame' →
          frame'.2.outboxInfo ≠ none → frame'.2.deviceIdx ≠ frame.2.deviceIdx := by
        intro i hi frame' hi' htold hdevice
        have hle := hframes.introduces.only hi' hframe hdevice htold
        have hge := hframes.introduces.only hframe hi' hdevice.symm (by rw [hinfo]; simp)
        exact hnew (Nat.le_antisymm hle hge ▸ hi)
      have hgrown : ∀ (d : Nat) told, (grow h.remoteOutboxesReceived frame.2.deviceIdx none)[d]?
          = some (some told) → h.remoteOutboxesReceived[d]? = some (some told) := by
        intro d told hd
        rw [grow_get] at hd
        split at hd
        · exact hd
        · split at hd
          · exact absurd hd (by simp)
          · exact absurd hd (by simp)
      refine ⟨fun d told hd => ?_, fun herror i hi frame' told hi' hinfo' => ?_, hwithin, ?_,
        hk.opened⟩
      · have hd' : ((grow h.remoteOutboxesReceived frame.2.deviceIdx none).set frame.2.deviceIdx
            (some info))[d]? = some (some told) := hd
        rw [grow_set_get] at hd'
        by_cases hdd : d = frame.2.deviceIdx
        · rw [if_pos hdd] at hd'
          refine ⟨n, List.mem_append_right _ (List.mem_singleton_self n), frame, hframe, hdd.symm,
            ?_⟩
          rw [hinfo]
          exact Option.some.inj hd'
        · rw [if_neg hdd] at hd'
          obtain ⟨i, hi, hrest⟩ := hk.heard d told (hgrown d told hd')
          exact ⟨i, List.mem_append_left _ hi, hrest⟩
      · show ((grow h.remoteOutboxesReceived frame.2.deviceIdx none).set frame.2.deviceIdx
            (some info))[frame'.2.deviceIdx]? = some (some told)
        rw [grow_set_get]
        rcases List.mem_append.mp hi with hold | hlast
        · rw [if_neg (hother i hold frame' hi' (by rw [hinfo']; simp)), grow_get]
          have hold' := hk.learnt herror i hold frame' told hi' hinfo'
          rw [if_pos (List.getElem?_eq_some_iff.mp hold').1]
          exact hold'
        · rw [List.mem_singleton.mp hlast] at hi'
          obtain rfl := Option.some.inj (hi'.symm.trans hframe)
          rw [if_pos rfl, ← hinfo, hinfo']
      · show (h.dchecks && (grow h.remoteOutboxesReceived frame.2.deviceIdx
          none)[frame.2.deviceIdx]?.join.isNone) = true
        rw [hk.dchecks, Bool.true_and, Option.isNone_iff_eq_none]
        by_contra hsome
        obtain ⟨told, htold⟩ := Option.ne_none_iff_exists'.mp hsome
        obtain ⟨i, hi, frame', hi', hdevice, hinfo'⟩ :=
          hk.heard _ told (hgrown _ told (Option.join_eq_some_iff.mp htold))
        exact hother i hi frame' hi' (by rw [hinfo']; simp) hdevice

/-- A receiving half between two tasks: every tensor was cut in all its chunks. -/
structure RecvSide (S : Setup) (e : Endpoint) (error : Bool) (frames : List (Tag × Descriptor))
    (s : Receiving) : Prop where
  inv : RecvInv S e error frames s
  cut : error = false →
    s.2.nextChunkBeingReceived = chunkStart (S.length e.other) s.2.nextTensorBeingReceived

variable {self : Endpoint}

theorem RecvSide.advance (self : Endpoint) (hframes : Frames S e frames)
    (h : RecvSide S e error frames s)
    (n : Nat) : RecvSide S e error frames (recvAdvance self error n s) := by
  obtain ⟨hinv, hcounts⟩ := (recvRule hframes).advance (s := s)
    ⟨h.inv, rfl, rfl⟩ n
  refine ⟨hinv, fun herror => ?_⟩
  rw [hcounts.1, hcounts.2]
  exact h.cut herror

/-- The error is set. -/
theorem RecvSide.fail (h : RecvSide S e false frames s) :
    RecvSide S e true frames s :=
  ⟨h.inv.fail, fun hno => absurd hno (by decide)⟩

theorem RecvSide.advanceAll (hframes : Frames S e frames)
    (h : RecvSide S e error frames s) :
    RecvSide S e error frames (recvAdvanceAll self error s) := by
  obtain ⟨hinv, hcounts⟩ := (recvRule hframes).advanceAll (s := s)
    ⟨h.inv, rfl, rfl⟩
  refine ⟨hinv, fun herror => ?_⟩
  rw [hcounts.1, hcounts.2]
  exact h.cut herror

/-- Of the context only the handles matter. -/
theorem RecvSide.context (h : RecvSide S e error frames s) {x : ContextImpl}
    (hx : Remotes S x) : RecvSide S e error frames (x, s.2) :=
  ⟨⟨hx, h.inv.numbered, h.inv.within, h.inv.inTurn, h.inv.ops, h.inv.kept, h.inv.known,
    h.inv.copied⟩, h.cut⟩

/-- The loop over the chunks of a tensor. -/
theorem recvChunks (buffer : Buffer) {n : Nat} (hframes : Frames S e frames)
    (h : Recving S e error frames (chunkStart (S.length e.other) n) (n + 1) s) :
    ∀ k ≤ ceilOfRatio (S.length e.other n) kSlotSize,
      Recving S e error frames (chunkStart (S.length e.other) n + k) (n + 1)
        ((List.range k).foldl (fun s chunkIdx =>
          emplaceRecv self error (buffer.chunk n (S.length e.other n) chunkIdx) s) s) := by
  intro k
  induction k with
  | zero => exact fun _ => h
  | succ k ih =>
      intro hk
      have hy := ih (Nat.le_of_succ_le hk)
      rw [List.range_succ, List.foldl_append, List.foldl_cons, List.foldl_nil]
      refine (recvRule hframes).advance ⟨hy.inv.push ?_, ?_, hy.counts.2⟩ _
      · rw [hy.counts.1]
        exact isOf_chunk buffer n k hk
      · exact congrArg (· + 1) hy.counts.1

theorem RecvSide.recv {buffer : Buffer} (hframes : Frames S e frames)
    (h : RecvSide S e error frames s) :
    RecvSide S e error frames
      (recvFromLoop self error buffer (S.length e.other s.2.nextTensorBeingReceived) s) := by
  have htold : ∀ callbacks : List (Nat × Bool), RecvInv S e error frames (s.1, { s.2 with
      nextTensorBeingReceived := s.2.nextTensorBeingReceived + 1, callbacks := callbacks }) :=
    fun _ => ⟨h.inv.remotes, h.inv.numbered, h.inv.within, h.inv.inTurn,
      fun o ho => (h.inv.ops o ho).frame rfl rfl rfl, h.inv.kept, h.inv.known.frame rfl rfl rfl rfl,
      h.inv.copied.frame rfl rfl (Nat.le_refl _) rfl⟩
  rw [recvFromLoop]
  cases error with
  | true => exact ⟨htold _, fun hno => absurd hno (by decide)⟩
  | false =>
      rw [if_neg Bool.false_ne_true, recvImplFromLoop]
      have hcut := h.cut rfl
      split
      · next hzero =>
          refine ⟨htold _, fun _ => ?_⟩
          show s.2.nextChunkBeingReceived
            = chunkStart (S.length e.other) (s.2.nextTensorBeingReceived + 1)
          rw [chunkStart_succ, hcut, hzero]
          rfl
      · next hlength =>
          obtain ⟨hinv, hcounts⟩ := recvChunks buffer hframes
            ⟨htold s.2.callbacks, hcut, rfl⟩ _ (Nat.le_refl _)
          refine ⟨hinv, fun _ => ?_⟩
          rw [hcounts.1, hcounts.2, chunkStart_succ]

/-- An operation is told that its descriptor was read. -/
theorem RecvOk.tell {h : RecvHalf} {n : Nat} {op : ChunkRecvOperation}
    (hreads : n < h.descriptorReads.length) (hn : op.sequenceNumber = n)
    (hok : RecvOk S e error frames h op) {remoteDeviceIdx remoteSlotIdx : Option Nat}
    (htold : error = false → ∃ frame, frames[n]? = some frame
      ∧ remoteDeviceIdx = some frame.2.deviceIdx ∧ remoteSlotIdx = some frame.2.slotIdx) :
    RecvOk S e error frames { h with descriptorsRead := h.descriptorsRead ++ [n] }
      { op with doneReadingDescriptor := true, remoteDeviceIdx, remoteSlotIdx } := by
  refine ⟨hok.chunk, hok.below, hok.above, hok.uncopied, hok.copied, fun herror _ => ?_,
    fun hno => absurd hno (hok.below (hn ▸ hreads)), fun _ => ?_⟩
  · rw [← hn] at htold
    exact htold herror
  · exact List.mem_append_right _ (hn ▸ List.mem_singleton_self _)

/-- A descriptor is read, unless it was too late. -/
theorem RecvSide.descriptorRead (hframes : Frames S e frames)
    (h : RecvSide S e error frames s)
    {n : Nat} (hreads : n < s.2.descriptorReads.length) (hnew : n ∉ s.2.descriptorsRead)
    {descriptor : Option Descriptor} (hdescriptor : error = false →
      ∃ frame, frames[n]? = some frame ∧ descriptor = some frame.2) :
    RecvSide S e error frames (descriptorRead self error n descriptor s) := by
  cases error with
  | true =>
      have htold := h.inv.tell (n := n) (f := fun op => { op with doneReadingDescriptor := true })
        s.2.remoteOutboxesReceived s.2.dchecks (fun _ => rfl)
        (fun op _ hn hok => hok.tell hreads hn (fun hno => absurd hno (by decide)))
        ⟨fun d info hd => by
            obtain ⟨i, hi, hrest⟩ := h.inv.known.heard d info hd
            exact ⟨i, List.mem_append_left _ hi, hrest⟩,
          fun hno => absurd hno (by decide), fun hno => absurd hno (by decide),
          h.inv.known.dchecks, h.inv.known.opened⟩
      have hside := RecvSide.advance self hframes
        ⟨htold, fun hno => absurd hno (by decide)⟩ n
      cases descriptor with
      | none => exact hside
      | some descriptor => exact hside
  | false =>
      obtain ⟨frame, hframe, rfl⟩ := hdescriptor rfl
      have hknown := h.inv.known.introduce hframes hframe hnew
      have hsame : receiveOutbox frame.2 { s.2 with descriptorsRead := s.2.descriptorsRead ++ [n] }
          = { s.2 with
              descriptorsRead := s.2.descriptorsRead ++ [n]
              remoteOutboxesReceived := (receiveOutbox frame.2
                { s.2 with descriptorsRead := s.2.descriptorsRead ++ [n] }).remoteOutboxesReceived
              dchecks := (receiveOutbox frame.2
                { s.2 with descriptorsRead := s.2.descriptorsRead ++ [n] }).dchecks } := by
        rw [receiveOutbox]
        cases frame.2.outboxInfo <;> rfl
      rw [hsame] at hknown
      have htold := h.inv.tell (n := n) (f := fun op => { op with
          doneReadingDescriptor := true
          remoteDeviceIdx := some frame.2.deviceIdx
          remoteSlotIdx := some frame.2.slotIdx }) _ _ (fun _ => rfl)
        (fun op _ hn hok => hok.tell hreads hn (fun _ => ⟨frame, hframe, rfl, rfl⟩)) hknown
      have hside := RecvSide.advance self hframes ⟨htold, h.cut⟩ n
      rw [TpCudaIpc.descriptorRead]
      dsimp only
      rw [hsame]
      exact hside

end Tasks

end TpCudaIpc
