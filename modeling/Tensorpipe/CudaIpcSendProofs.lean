import Mathlib.Tactic.Common
import Tensorpipe.CudaIpcChannelProofs

/-! # The sending half of the cuda_ipc channel

    Descriptors are written in the order of the chunks, because the transition that writes them
    waits for the previous operation to be that far, and no chunk is skipped as long as there is
    no error.  After an error none is written any more. -/

namespace TpCudaIpc

open TpStateMachine TpAllocator TpEventOrder

-- ── What a transition does ───────────────────────────────────────────────────

/-- The half after the callback of an operation, if that has one. -/
def SendHalf.called (h : SendHalf) (op : ChunkSendOperation) (error : Bool) : SendHalf :=
  { h with callbacks := h.callbacks
      ++ if op.callback then [(op.chunk.bufferSequenceNumber, error)] else [] }

/-- The slot of an operation goes back, if it has one. -/
def ContextImpl.released (x : ContextImpl) (op : ChunkSendOperation) : ContextImpl :=
  match op.stagingBuffer with
  | none => x
  | some slotIdx => x.releaseSlot op.chunk.deviceIdx slotIdx

/-- What is written for a chunk. -/
def SendHalf.descriptor (h : SendHalf) (x : ContextImpl) (op : ChunkSendOperation) :
    Descriptor where
  deviceIdx := op.chunk.deviceIdx
  slotIdx := op.slotIdx
  outboxInfo :=
    if (grow h.localOutboxesSent op.chunk.deviceIdx false)[op.chunk.deviceIdx]? = some true
    then none else some (x.getLocalOutboxInfo op.chunk.deviceIdx)

/-- A chunk was announced, and its reply is awaited. -/
def SendHalf.sent (h : SendHalf) (x : ContextImpl) (op : ChunkSendOperation) : SendHalf :=
  { h with
    localOutboxesSent :=
      (grow h.localOutboxesSent op.chunk.deviceIdx false).set op.chunk.deviceIdx true
    descriptors := h.descriptors ++ [(op.tag, h.descriptor x op)]
    replyReads := h.replyReads ++ [op.tag] }

/-- The copy of a chunk into its slot. -/
def ChunkSendOperation.transfer (op : ChunkSendOperation) (self : Endpoint) (x : ContextImpl)
    (slotIdx : Nat) : Transfer :=
  .stage self op.tag op.chunk.ptr (⟨x.name, op.chunk.deviceIdx⟩, slotIdx)

/-- The effect of each transition on the half and on the operation, behind `prev`. -/
inductive SendFires (self : Endpoint) (error : Bool) (prev : SendState) (s : Sending)
    (op : ChunkSendOperation) : Sending → ChunkSendOperation → Prop where
  | skip (herror : error = true) (hprev : prev = .FINISHED) (hstate : op.state = .UNINITIALIZED) :
      SendFires self error prev s op (s.1, s.2.called op error)
        { op with state := .FINISHED, callback := false }
  | ask (herror : error = false) (hprev : prev ≠ .UNINITIALIZED)
      (hstate : op.state = .UNINITIALIZED) :
      SendFires self error prev s op
        (s.1.allocateSlot op.chunk.deviceIdx (self, op.sequenceNumber), s.2)
        { op with state := .ALLOCATING_STAGING_BUFFER }
  | drop (herror : error = true) (hprev : prev = .FINISHED)
      (hstate : op.state = .ALLOCATING_STAGING_BUFFER)
      (hdone : op.doneAllocatingStagingBuffer = true) :
      SendFires self error prev s op (s.1.released op, s.2.called op error)
        { op with state := .FINISHED, callback := false, stagingBuffer := none }
  | stage (slotIdx : Nat) (herror : error = false) (hprev : SendState.READING_REPLY ≤ prev)
      (hstate : op.state = .ALLOCATING_STAGING_BUFFER)
      (hdone : op.doneAllocatingStagingBuffer = true) (hslot : op.stagingBuffer = some slotIdx) :
      SendFires self error prev s op
        (s.1.issue op.chunk.stream (op.transfer self s.1 slotIdx),
          (s.2.sent s.1 op).called op error)
        { op with state := .READING_REPLY, callback := false }
  | settle (hprev : prev = .FINISHED) (hstate : op.state = .READING_REPLY)
      (hdone : op.doneReadingReply = true) :
      SendFires self error prev s op (s.1.released op, s.2)
        { op with state := .FINISHED, stagingBuffer := none }

section Fires

variable {self : Endpoint} {error : Bool} {s : Sending} {op : ChunkSendOperation}

/-- What calling back does, in one piece. -/
theorem callSendCallback_eq (error : Bool) (s : Sending) (op : ChunkSendOperation) :
    callSendCallback error s op
      = .returns ((s.1, s.2.called op error), { op with callback := false }) := by
  cases hcallback : op.callback with
  | true => simp [callSendCallback, SendHalf.called, hcallback]
  | false =>
      have hsame : { op with callback := false } = op := by rw [← hcallback]
      simp [callSendCallback, SendHalf.called, hcallback, hsame]

/-- What giving back the slot does, in one piece. -/
theorem releaseStagingBuffer_eq (s : Sending) (op : ChunkSendOperation) :
    releaseStagingBuffer s op
      = .returns ((s.1.released op, s.2), { op with stagingBuffer := none }) := by
  cases hslot : op.stagingBuffer with
  | none =>
      have hsame : { op with stagingBuffer := none } = op := by rw [← hslot]
      simp [releaseStagingBuffer, ContextImpl.released, hslot, hsame]
  | some slotIdx => simp [releaseStagingBuffer, ContextImpl.released, hslot]

/-- What the copy to a slot does, when there is one. -/
theorem copyFromSourceToStaging_eq {slotIdx : Nat} (h : op.stagingBuffer = some slotIdx) :
    copyFromSourceToStaging self s op
      = .returns ((s.1.issue op.chunk.stream (op.transfer self s.1 slotIdx), s.2), op) := by
  rw [copyFromSourceToStaging, h]
  rfl

/-- No state is behind the last one. -/
theorem SendState.finished_le {st : SendState} : SendState.FINISHED ≤ st ↔ st = .FINISHED := by
  cases st <;> decide

/-- An operation that has begun has asked for its slot. -/
theorem SendState.allocating_le {st : SendState} :
    SendState.ALLOCATING_STAGING_BUFFER ≤ st ↔ st ≠ .UNINITIALIZED := by
  cases st <;> decide

/-- A transition that is enabled fires, unless it has no slot to copy to. -/
theorem send_fires {prev : SendState} {t : Transition Sending ChunkSendOperation SendState}
    (ht : t ∈ advanceChunkSendOperation self error) (hsource : op.state = t.source)
    (hcond : t.cond op prev = true)
    (hslot : error = false → op.state = .ALLOCATING_STAGING_BUFFER →
      op.doneAllocatingStagingBuffer = true → op.stagingBuffer ≠ none) :
    (runActions t.actions (s, op)).Post
      (fun y => SendFires self error prev s op y.1 (withState y.2 t.target)) (fun _ => False) := by
  simp only [advanceChunkSendOperation, List.mem_cons, List.not_mem_nil, or_false] at ht
  rcases ht with rfl | rfl | rfl | rfl | rfl
  · simp only [Bool.and_eq_true, decide_eq_true_eq, SendState.finished_le] at hcond
    rw [runActions_single, callSendCallback_eq]
    exact .skip hcond.1 hcond.2 hsource
  · simp only [Bool.and_eq_true, Bool.not_eq_true', decide_eq_true_eq,
      SendState.allocating_le] at hcond
    rw [runActions_single]
    exact .ask hcond.1 hcond.2 hsource
  · simp only [Bool.and_eq_true, decide_eq_true_eq, SendState.finished_le] at hcond
    rw [runActions, callSendCallback_eq, Outcome.bind_returns, runActions_single,
      releaseStagingBuffer_eq]
    exact .drop hcond.1.1 hcond.2 hsource hcond.1.2
  · simp only [Bool.and_eq_true, Bool.not_eq_true', decide_eq_true_eq] at hcond
    obtain ⟨slotIdx, hsome⟩ :=
      Option.ne_none_iff_exists'.mp (hslot hcond.1.1 hsource hcond.1.2)
    have hrun : runActions [copyFromSourceToStaging self, writeDescriptor, readReply,
        callSendCallback error] (s, op)
        = .returns ((s.1.issue op.chunk.stream (op.transfer self s.1 slotIdx),
            (s.2.sent s.1 op).called op error), { op with callback := false }) := by
      rw [runActions, copyFromSourceToStaging_eq hsome, Outcome.bind_returns, runActions,
        writeDescriptor, Outcome.bind_returns, runActions, readReply, Outcome.bind_returns,
        runActions_single, callSendCallback_eq]
      rfl
    rw [hrun]
    exact .stage slotIdx hcond.1.1 hcond.2 hsource hcond.1.2 hsome
  · simp only [Bool.and_eq_true, decide_eq_true_eq, SendState.finished_le] at hcond
    rw [runActions_single, releaseStagingBuffer_eq]
    exact .settle hcond.2 hsource hcond.1

end Fires

-- ── The invariant rule ───────────────────────────────────────────────────────

/-- The half with other operations. -/
def SendHalf.withOps (h : SendHalf) (ops : List ChunkSendOperation) : SendHalf :=
  { h with chunkSendOps := ops }

/-- What an invariant of a sending half owes its operations. -/
structure SendRule (e : Endpoint) (error : Bool) (Inv : Sending → Prop) : Prop where
  numbered : ∀ s, Inv s → ∃ next, Numbered next s.2.chunkSendOps
  granted : ∀ s, Inv s → error = false → ∀ op ∈ s.2.chunkSendOps,
    op.state = .ALLOCATING_STAGING_BUFFER → op.doneAllocatingStagingBuffer = true →
    op.stagingBuffer ≠ none
  fire : ∀ (s : Sending) pre op post y op', Inv (s.1, s.2.withOps (pre ++ op :: post)) →
    SendFires e error (lastState .FINISHED pre) s op y op' →
    Inv (y.1, y.2.withOps (pre ++ op' :: post))
  pop : ∀ (s : Sending) op rest, Inv (s.1, s.2.withOps (op :: rest)) → op.state = .FINISHED →
    Inv (s.1, s.2.withOps rest)

section Rule

variable {e : Endpoint} {error : Bool} {Inv : Sending → Prop}

/-- A walk preserves what the rule says. -/
theorem SendRule.preserves (h : SendRule e error Inv) :
    Preserves (advanceChunkSendOperation e error) (fun s ops => Inv (s.1, s.2.withOps ops))
      (fun _ _ => False) where
  numbered := fun _ _ hinv => h.numbered _ hinv
  fire := by
    intro s pre op post t hinv ht hsource hcond
    refine (send_fires ht hsource hcond (fun herror => ?_)).imp
      (fun y hy => h.fire s pre op post _ _ hinv hy) (fun _ hno => hno)
    exact h.granted _ hinv herror op (List.mem_append_right _ (List.mem_cons_self ..))
  pop := fun s op rest hinv hfin => h.pop s op rest hinv hfin

/-- Advancing one operation keeps what the rule says. -/
theorem SendRule.advance (h : SendRule e error Inv) {s : Sending} (hinv : Inv s) (n : Nat) :
    Inv (sendAdvance e error n s) := by
  have hpost : (advanceOperation (advanceChunkSendOperation e error) s s.2.chunkSendOps n).Post
      _ _ := advanceOperation_preserves h.preserves n hinv
  rw [sendAdvance]
  cases hadv : advanceOperation (advanceChunkSendOperation e error) s s.2.chunkSendOps n with
  | throws y => rw [hadv] at hpost; exact hpost.elim
  | returns y => rw [hadv] at hpost; exact hpost

/-- Advancing all operations keeps what the rule says. -/
theorem SendRule.advanceAll (h : SendRule e error Inv) {s : Sending} (hinv : Inv s) :
    Inv (sendAdvanceAll e error s) := by
  have hpost : (advanceAllOperations (advanceChunkSendOperation e error) s s.2.chunkSendOps).Post
      _ _ := advanceAllOperations_preserves h.preserves hinv
  rw [sendAdvanceAll]
  cases hadv : advanceAllOperations (advanceChunkSendOperation e error) s s.2.chunkSendOps with
  | throws y => rw [hadv] at hpost; exact hpost.elim
  | returns y => rw [hadv] at hpost; exact hpost

end Rule

-- ── Neighbours in a queue ────────────────────────────────────────────────────

section Neighbours

variable {Op State : Type} [Operation Op State]

/-- What is in the queue after one operation was replaced. -/
theorem mem_replaced {next : Nat} {pre post : List Op} {op op' : Op}
    (hnum : Numbered next (pre ++ op :: post)) {o : Op} (ho : o ∈ pre ++ op' :: post) :
    o = op' ∨ (o ∈ pre ++ op :: post ∧ sequenceNumber o ≠ sequenceNumber op) := by
  rcases List.mem_append.mp ho with hpre | hmid
  · exact .inr ⟨List.mem_append_left _ hpre, numbered_ne hnum (.inl hpre)⟩
  · rcases List.mem_cons.mp hmid with rfl | hpost
    · exact .inl rfl
    · exact .inr ⟨List.mem_append_right _ (List.mem_cons_of_mem _ hpost),
        numbered_ne hnum (.inr hpost)⟩

omit [Operation Op State] in
/-- The others stay in the queue. -/
theorem mem_kept {pre post : List Op} {op op' o : Op} (ho : o ∈ pre ++ op :: post) :
    o = op ∨ o ∈ pre ++ op' :: post := by
  rcases List.mem_append.mp ho with hpre | hmid
  · exact .inr (List.mem_append_left _ hpre)
  · rcases List.mem_cons.mp hmid with rfl | hpost
    · exact .inl rfl
    · exact .inr (List.mem_append_right _ (List.mem_cons_of_mem _ hpost))

/-- The operation of the number before is right before. -/
theorem lastState_before {next : Nat} {pre post : List Op} {op o : Op} {st : State}
    (hnum : Numbered next (pre ++ op :: post)) (ho : o ∈ pre ++ op :: post)
    (hbefore : sequenceNumber o + 1 = sequenceNumber op) :
    lastState st pre = Operation.state o := by
  have hpre : o ∈ pre := by
    rcases List.mem_append.mp ho with hpre | hmid
    · exact hpre
    · rcases List.mem_cons.mp hmid with rfl | hpost
      · omega
      · have hlt : sequenceNumber op < sequenceNumber o := numbered_post hnum hpost
        omega
  obtain ⟨init, rest, rfl⟩ := List.append_of_mem hpre
  have hlast : rest = [] := by
    cases rest with
    | nil => rfl
    | cons next' tail =>
        have hnum' : Numbered next (init ++ o :: (next' :: tail ++ op :: post)) := by
          rw [List.append_assoc] at hnum
          exact hnum
        have h1 : sequenceNumber o < sequenceNumber next' :=
          numbered_post hnum' (List.mem_cons_self ..)
        have h2 : sequenceNumber next' + (op :: post).length < next :=
          numbered_pre next' hnum (by simp)
        have h3 : sequenceNumber op + post.length + 1 = next := numbered_mid hnum
        rw [List.length_cons] at h2
        omega
  subst hlast
  rw [lastState_append]
  rfl

end Neighbours

-- ── Chunks by number ─────────────────────────────────────────────────────────

/-- The number of the first chunk of a tensor. -/
def chunkStart (length : Nat → Nat) : Nat → Nat
  | 0 => 0
  | n + 1 => chunkStart length n + ceilOfRatio (length n) kSlotSize

/-- A chunk of the tensors of these lengths. -/
structure Tag.IsOf (length : Nat → Nat) (t : Tag) : Prop where
  number : t.sequenceNumber = chunkStart length t.bufferSequenceNumber + t.chunkId
  inside : t.chunkId < ceilOfRatio (length t.bufferSequenceNumber) kSlotSize
  bytes : t.length = min (length t.bufferSequenceNumber - t.chunkId * kSlotSize) kSlotSize

section Numbers

variable {length : Nat → Nat}

/-- The chunks of the next tensor follow. -/
theorem chunkStart_succ (n : Nat) :
    chunkStart length (n + 1) = chunkStart length n + ceilOfRatio (length n) kSlotSize := rfl

/-- Later tensors start at later chunks. -/
theorem chunkStart_le {m n : Nat} (h : m ≤ n) : chunkStart length m ≤ chunkStart length n := by
  induction h with
  | refl => exact Nat.le_refl _
  | step _ ih => exact Nat.le_trans ih (by rw [chunkStart_succ]; exact Nat.le_add_right _ _)

/-- The number of a chunk tells the tensor. -/
theorem Tag.IsOf.before {t t' : Tag} (h : t.IsOf length) (h' : t'.IsOf length)
    (hlt : t.bufferSequenceNumber < t'.bufferSequenceNumber) :
    t.sequenceNumber < t'.sequenceNumber := by
  have hstart : chunkStart length (t.bufferSequenceNumber + 1)
      ≤ chunkStart length t'.bufferSequenceNumber := chunkStart_le hlt
  rw [chunkStart_succ] at hstart
  have hin := h.inside
  rw [h.number, h'.number]
  omega

/-- **A chunk is known by its number.** -/
theorem Tag.IsOf.unique {t t' : Tag} (h : t.IsOf length) (h' : t'.IsOf length)
    (hnumber : t.sequenceNumber = t'.sequenceNumber) : t = t' := by
  have hbuffer : t.bufferSequenceNumber = t'.bufferSequenceNumber := by
    rcases Nat.lt_trichotomy t.bufferSequenceNumber t'.bufferSequenceNumber with hlt | heq | hgt
    · exact absurd hnumber (Nat.ne_of_lt (h.before h' hlt))
    · exact heq
    · exact absurd hnumber (Nat.ne_of_gt (h'.before h hgt))
  have hchunk : t.chunkId = t'.chunkId := by
    have hadd := h.number.symm.trans (hnumber.trans h'.number)
    rw [hbuffer] at hadd
    exact Nat.add_left_cancel hadd
  have hbytes : t.length = t'.length := by
    rw [h.bytes, h'.bytes, hbuffer, hchunk]
  obtain ⟨a, b, c, d⟩ := t
  obtain ⟨a', b', c', d'⟩ := t'
  exact congr (congr (congr (congrArg Tag.mk hnumber) hbuffer) hchunk) hbytes

/-- No chunk is longer than a slot. -/
theorem Tag.IsOf.length_le {t : Tag} (h : t.IsOf length) : t.length ≤ kSlotSize :=
  h.bytes ▸ Nat.min_le_right _ _

/-- The chunks of a tensor are numbered from its first one. -/
theorem isOf_chunk (buffer : Buffer) (n chunkIdx : Nat)
    (hlt : chunkIdx < ceilOfRatio (length n) kSlotSize) :
    ((buffer.chunk n (length n) chunkIdx).tag (chunkStart length n + chunkIdx)).IsOf length :=
  ⟨rfl, hlt, rfl⟩

end Numbers

-- ── The frames ───────────────────────────────────────────────────────────────

/-- Numbered in order, from the first chunk on. -/
structure InTurn (length : Nat → Nat) (tags : List Tag) : Prop where
  numbers : tags.map Tag.sequenceNumber = List.range tags.length
  chunks : ∀ t ∈ tags, t.IsOf length

/-- No tags. -/
theorem inTurn_nil (length : Nat → Nat) : InTurn length [] := ⟨rfl, fun _ ht => absurd ht (by simp)⟩

/-- The tag of the next chunk follows. -/
theorem InTurn.append {length : Nat → Nat} {tags : List Tag} (h : InTurn length tags) {t : Tag}
    (ht : t.IsOf length) (hnumber : t.sequenceNumber = tags.length) :
    InTurn length (tags ++ [t]) := by
  constructor
  · rw [List.map_append, h.numbers, List.length_append, List.length_singleton, List.range_succ,
      ← hnumber]
    rfl
  · intro t' ht'
    rcases List.mem_append.mp ht' with hold | hnew
    · exact h.chunks t' hold
    · rw [List.mem_singleton.mp hnew]
      exact ht

/-- The tags are numbered by their place. -/
theorem InTurn.number {length : Nat → Nat} {tags : List Tag} (h : InTurn length tags) {i : Nat}
    {t : Tag} (ht : tags[i]? = some t) : t.sequenceNumber = i := by
  have hmap : (tags.map Tag.sequenceNumber)[i]? = some t.sequenceNumber := by
    rw [List.getElem?_map, ht]
    rfl
  rw [h.numbers] at hmap
  obtain ⟨hi, heq⟩ := List.getElem?_eq_some_iff.mp hmap
  rw [List.getElem_range] at heq
  exact heq.symm

/-- Two sequences of tags for the same lengths agree. -/
theorem InTurn.agree {length : Nat → Nat} {tags tags' : List Tag} (h : InTurn length tags)
    (h' : InTurn length tags') {i : Nat} {t t' : Tag} (ht : tags[i]? = some t)
    (ht' : tags'[i]? = some t') : t = t' :=
  (h.chunks t (List.mem_of_getElem? ht)).unique (h'.chunks t' (List.mem_of_getElem? ht'))
    ((h.number ht).trans (h'.number ht').symm)

/-- The first descriptor of each device, and no other, tells how to open the outbox. -/
def Introduces (info : Nat → OutboxInfo) (frames : List (Tag × Descriptor)) : Prop :=
  ∀ pre frame post, frames = pre ++ frame :: post →
    frame.2.outboxInfo = if ∃ f ∈ pre, f.2.deviceIdx = frame.2.deviceIdx then none
      else some (info frame.2.deviceIdx)

/-- No frames. -/
theorem introduces_nil (info : Nat → OutboxInfo) : Introduces info [] := by
  intro pre frame post hsplit
  exact absurd hsplit (by simp)

/-- A frame that introduces its outbox when it must follows. -/
theorem Introduces.append {info : Nat → OutboxInfo} {frames : List (Tag × Descriptor)}
    (h : Introduces info frames) {frame : Tag × Descriptor}
    (hframe : frame.2.outboxInfo = if ∃ f ∈ frames, f.2.deviceIdx = frame.2.deviceIdx then none
      else some (info frame.2.deviceIdx)) : Introduces info (frames ++ [frame]) := by
  intro pre frame' post hsplit
  rcases List.eq_nil_or_concat post with rfl | ⟨rest, last, rfl⟩
  · obtain ⟨rfl, hlast⟩ := List.append_inj' hsplit rfl
    obtain rfl := List.singleton_inj.mp hlast
    exact hframe
  · rw [List.concat_eq_append, ← List.cons_append, ← List.append_assoc] at hsplit
    obtain ⟨hfront, -⟩ := List.append_inj' hsplit rfl
    exact h pre frame' rest hfront

/-- What the frame at a place introduces. -/
theorem Introduces.at_index {info : Nat → OutboxInfo} {frames : List (Tag × Descriptor)}
    (h : Introduces info frames) {i : Nat} {frame : Tag × Descriptor}
    (hi : frames[i]? = some frame) :
    frame.2.outboxInfo = if ∃ f ∈ frames.take i, f.2.deviceIdx = frame.2.deviceIdx then none
      else some (info frame.2.deviceIdx) := by
  obtain ⟨hlt, heq⟩ := List.getElem?_eq_some_iff.mp hi
  refine h (frames.take i) frame (frames.drop (i + 1)) ?_
  rw [← heq, ← List.drop_eq_getElem_cons hlt, List.take_append_drop]

/-- What a descriptor tells about an outbox is right. -/
theorem Introduces.right {info : Nat → OutboxInfo} {frames : List (Tag × Descriptor)}
    (h : Introduces info frames) {i : Nat} {frame : Tag × Descriptor}
    (hi : frames[i]? = some frame) {told : OutboxInfo} (htold : frame.2.outboxInfo = some told) :
    told = info frame.2.deviceIdx := by
  rw [h.at_index hi] at htold
  split at htold
  · exact absurd htold (by simp)
  · exact (Option.some.inj htold).symm

/-- A descriptor that tells about an outbox is the first one of its device. -/
theorem Introduces.only {info : Nat → OutboxInfo} {frames : List (Tag × Descriptor)}
    (h : Introduces info frames) {i j : Nat} {frame frame' : Tag × Descriptor}
    (hi : frames[i]? = some frame) (hj : frames[j]? = some frame')
    (hdevice : frame.2.deviceIdx = frame'.2.deviceIdx) (htold : frame.2.outboxInfo ≠ none) :
    i ≤ j := by
  by_contra hlt
  have hmem : frame' ∈ frames.take i := by
    refine List.mem_of_getElem? (i := j) ?_
    rw [List.getElem?_take, if_pos (Nat.lt_of_not_le hlt)]
    exact hj
  rw [h.at_index hi, if_pos ⟨frame', hmem, hdevice.symm⟩] at htold
  exact htold rfl

/-- At or before every descriptor, one tells about the outbox. -/
theorem Introduces.exists_le {info : Nat → OutboxInfo} {frames : List (Tag × Descriptor)}
    (h : Introduces info frames) : ∀ (i : Nat) (frame : Tag × Descriptor), frames[i]? = some frame →
    ∃ j ≤ i, ∃ f, frames[j]? = some f ∧ f.2.deviceIdx = frame.2.deviceIdx
      ∧ f.2.outboxInfo = some (info frame.2.deviceIdx) := by
  intro i
  induction i using Nat.strongRecOn with
  | ind i ih =>
      intro frame hi
      have hinfo := h.at_index hi
      split at hinfo
      · next hbefore =>
          obtain ⟨f, hf, hdevice⟩ := hbefore
          obtain ⟨j, hj⟩ := List.mem_iff_getElem?.mp hf
          rw [List.getElem?_take] at hj
          split at hj
          · next hlt =>
              obtain ⟨k, hk, g, hg, hgd, hgi⟩ := ih j hlt f hj
              exact ⟨k, by omega, g, hg, hgd.trans hdevice, hdevice ▸ hgi⟩
          · exact absurd hj (by simp)
      · exact ⟨i, Nat.le_refl i, frame, hi, rfl, hinfo⟩

-- ── The invariant ────────────────────────────────────────────────────────────

/-- How the outbox of a device of the context of an end is opened. -/
def Setup.info (S : Setup) (e : Endpoint) (deviceIdx : Nat) : OutboxInfo where
  processIdentifier := S.processIdentifier (S.home e)
  memHandle := ⟨S.home e, deviceIdx⟩

/-- An operation, by what the half has written.  An operation whose chunk was announced has the
    slot that its descriptor names. -/
structure SendOk (S : Setup) (e : Endpoint) (error : Bool) (h : SendHalf)
    (op : ChunkSendOperation) : Prop where
  chunk : op.tag.IsOf (S.length e)
  below : op.sequenceNumber < h.replyReads.length → SendState.READING_REPLY ≤ op.state
  above : h.replyReads.length ≤ op.sequenceNumber →
    op.state ≠ .READING_REPLY ∧ (error = false → op.state ≠ .FINISHED)
  announced : op.state = .READING_REPLY → ∃ info, op.stagingBuffer = some op.slotIdx
    ∧ (op.tag, ⟨op.chunk.deviceIdx, op.slotIdx, info⟩) ∈ h.descriptors
  granted : error = false → op.state = .ALLOCATING_STAGING_BUFFER →
    op.doneAllocatingStagingBuffer = true → op.stagingBuffer = some op.slotIdx
  asked : op.state = .UNINITIALIZED → op.doneAllocatingStagingBuffer = false
  waiting : op.doneAllocatingStagingBuffer = false → op.stagingBuffer = none
  read : op.doneReadingReply = true → op.sequenceNumber ∈ h.repliesRead

/-- What the half has written. -/
structure Written (S : Setup) (e : Endpoint) (h : SendHalf) : Prop where
  descriptors : h.descriptors.map Prod.fst = h.replyReads
  inTurn : InTurn (S.length e) h.replyReads
  introduces : Introduces (S.info e) h.descriptors
  outboxes : ∀ d, h.localOutboxesSent[d]? = some true ↔ ∃ f ∈ h.descriptors, f.2.deviceIdx = d

/-- Chunks are copied into slots that are large enough. -/
def Sized (commands : List CudaCommand) : Prop :=
  ∀ c ∈ commands, ∀ e tag ptr slot, c.action = some (Transfer.stage e tag ptr slot) →
    tag.length ≤ kSlotSize

/-- Copies that fit, followed by copies that fit. -/
theorem Sized.append {commands more : List CudaCommand} (h : Sized commands) (hmore : Sized more) :
    Sized (commands ++ more) := by
  intro c hc
  rcases List.mem_append.mp hc with hold | hnew
  · exact h c hold
  · exact hmore c hnew

/-- The commands around a transfer that fits. -/
theorem sized_guarded {stream : Stream} {transfer : Transfer}
    (h : ∀ e tag ptr slot, transfer = .stage e tag ptr slot → tag.length ≤ kSlotSize) :
    Sized (guarded Transfer.slot stream transfer) := by
  intro c hc e tag ptr slot haction
  obtain ⟨s, rfl⟩ := Command.action_eq_some.mp haction
  have hc' : (Command.act s (Transfer.stage e tag ptr slot) : CudaCommand)
      = .act stream transfer := by
    simpa [guarded] using hc
  exact h e tag ptr slot (Command.act.inj hc').2.symm

/-- The invariant of a sending half.  No chunk is lost before there is an error, and an
    operation whose chunk was announced stays until its reply was read. -/
structure SendInv (S : Setup) (e : Endpoint) (error : Bool) (s : Sending) : Prop where
  home : s.1.name = S.home e ∧ s.1.processIdentifier = S.processIdentifier (S.home e)
  sized : Sized s.1.commands
  numbered : Numbered s.2.nextChunkBeingSent s.2.chunkSendOps
  within : s.2.replyReads.length ≤ s.2.nextChunkBeingSent
  written : Written S e s.2
  ops : ∀ op ∈ s.2.chunkSendOps, SendOk S e error s.2 op
  kept : error = false → ∀ n < s.2.nextChunkBeingSent, n < s.2.replyReads.length
    ∨ ∃ op ∈ s.2.chunkSendOps, op.sequenceNumber = n
  awaited : ∀ n < s.2.replyReads.length, n ∈ s.2.repliesRead
    ∨ ∃ op ∈ s.2.chunkSendOps, op.sequenceNumber = n ∧ op.state = .READING_REPLY
      ∧ op.doneReadingReply = false

section Fire

variable {S : Setup} {e : Endpoint} {error : Bool}

/-- What is in a list that was made longer. -/
theorem grow_get {α : Type} (l : List α) (i : Nat) (a : α) (j : Nat) :
    (grow l i a)[j]? = if j < l.length then l[j]? else if j ≤ i then some a else none := by
  rw [grow]
  split
  · next hlt => exact List.getElem?_append_left hlt
  · next hge =>
      rw [List.getElem?_append_right (Nat.le_of_not_lt hge), List.getElem?_replicate]
      by_cases hle : j ≤ i
      · rw [if_pos hle, if_pos (by omega)]
      · rw [if_neg hle, if_neg (by omega)]

/-- What the vector says of a device after it was made to say `a` of one. -/
theorem grow_set_get {α : Type} (l : List α) (i : Nat) (a b : α) (j : Nat) :
    ((grow l i a).set i b)[j]? = if j = i then some b else (grow l i a)[j]? := by
  have hlt : i < (grow l i a).length := by
    rw [grow, List.length_append, List.length_replicate]
    omega
  rw [List.getElem?_set]
  by_cases hij : i = j
  · rw [if_pos hij, if_pos hij.symm, if_pos hlt]
  · rw [if_neg hij, if_neg (Ne.symm hij)]

/-- What counts for an operation is what the half has written and read. -/
theorem SendOk.frame {h h' : SendHalf} {op : ChunkSendOperation} (hok : SendOk S e error h op)
    (hreads : h'.replyReads = h.replyReads) (hdescriptors : h'.descriptors = h.descriptors)
    (hread : h'.repliesRead = h.repliesRead) : SendOk S e error h' op := by
  refine ⟨hok.chunk, ?_, ?_, ?_, hok.granted, hok.asked, hok.waiting, ?_⟩
  · rw [hreads]
    exact hok.below
  · rw [hreads]
    exact hok.above
  · rw [hdescriptors]
    exact hok.announced
  · rw [hread]
    exact hok.read

/-- What was written depends on these fields only. -/
theorem Written.frame {h h' : SendHalf} (hw : Written S e h)
    (hreads : h'.replyReads = h.replyReads) (hdescriptors : h'.descriptors = h.descriptors)
    (hsent : h'.localOutboxesSent = h.localOutboxesSent) : Written S e h' := by
  refine ⟨?_, hreads ▸ hw.inTurn, hdescriptors ▸ hw.introduces, ?_⟩
  · rw [hdescriptors, hreads]
    exact hw.descriptors
  · rw [hsent, hdescriptors]
    exact hw.outboxes

/-- The announcement of one more chunk does not matter to the operations of the others. -/
theorem SendOk.announce {h : SendHalf} {o : ChunkSendOperation} (hok : SendOk S e error h o)
    {x : ContextImpl} {op : ChunkSendOperation}
    (hne : o.sequenceNumber ≠ op.sequenceNumber) (hturn : op.sequenceNumber = h.replyReads.length) :
    SendOk S e error (h.sent x op) o := by
  have hlength : (h.sent x op).replyReads.length = h.replyReads.length + 1 := by
    show (h.replyReads ++ [op.tag]).length = _
    rw [List.length_append, List.length_singleton]
  refine ⟨hok.chunk, ?_, ?_, ?_, hok.granted, hok.asked, hok.waiting, hok.read⟩
  · rw [hlength]
    intro hlt
    exact hok.below (by omega)
  · rw [hlength]
    intro hle
    exact hok.above (by omega)
  · intro hstate
    obtain ⟨info, hslot, hmem⟩ := hok.announced hstate
    exact ⟨info, hslot, List.mem_append_left _ hmem⟩

/-- The next descriptor, with the outbox if it is the first from its device. -/
theorem Written.announce {h : SendHalf} (hw : Written S e h) {x : ContextImpl}
    {op : ChunkSendOperation} (hchunk : op.tag.IsOf (S.length e))
    (hturn : op.sequenceNumber = h.replyReads.length)
    (hhome : x.name = S.home e ∧ x.processIdentifier = S.processIdentifier (S.home e)) :
    Written S e (h.sent x op) := by
  have hsent : (grow h.localOutboxesSent op.chunk.deviceIdx false)[op.chunk.deviceIdx]? = some true
      ↔ ∃ f ∈ h.descriptors, f.2.deviceIdx = op.chunk.deviceIdx := by
    rw [grow_get, ← hw.outboxes]
    split
    · exact Iff.rfl
    · next hge =>
        rw [if_pos (Nat.le_refl _), List.getElem?_eq_none (Nat.le_of_not_lt hge)]
        simp
  have hinfo : x.getLocalOutboxInfo op.chunk.deviceIdx = S.info e op.chunk.deviceIdx := by
    rw [ContextImpl.getLocalOutboxInfo, Setup.info, hhome.1, hhome.2]
  refine ⟨?_, hw.inTurn.append hchunk hturn, hw.introduces.append ?_, fun d => ?_⟩
  · show (h.descriptors ++ [(op.tag, h.descriptor x op)]).map Prod.fst = _
    rw [List.map_append, hw.descriptors]
    rfl
  · show (if _ then none else some _) = _
    rw [hinfo]
    exact if_congr hsent rfl rfl
  · show ((grow h.localOutboxesSent op.chunk.deviceIdx false).set op.chunk.deviceIdx true)[d]?
        = some true ↔ ∃ f ∈ h.descriptors ++ [(op.tag, h.descriptor x op)], f.2.deviceIdx = d
    rw [grow_set_get]
    by_cases hd : d = op.chunk.deviceIdx
    · rw [if_pos hd]
      exact iff_of_true rfl ⟨_, List.mem_append_right _ (List.mem_singleton_self _), hd.symm⟩
    · rw [if_neg hd]
      have hold : (grow h.localOutboxesSent op.chunk.deviceIdx false)[d]? = some true
          ↔ h.localOutboxesSent[d]? = some true := by
        rw [grow_get]
        split
        · exact Iff.rfl
        · next hge =>
            rw [List.getElem?_eq_none (Nat.le_of_not_lt hge)]
            split <;> simp
      rw [hold, hw.outboxes]
      constructor
      · rintro ⟨f, hf, hfd⟩
        exact ⟨f, List.mem_append_left _ hf, hfd⟩
      · rintro ⟨f, hf, hfd⟩
        rcases List.mem_append.mp hf with hmem | hnew
        · exact ⟨f, hmem, hfd⟩
        · rw [List.mem_singleton.mp hnew] at hfd
          exact absurd hfd.symm hd

/-- Giving a slot back is a matter of the outboxes alone. -/
theorem released_same (x : ContextImpl) (op : ChunkSendOperation) :
    (x.released op).name = x.name ∧ (x.released op).processIdentifier = x.processIdentifier
      ∧ (x.released op).commands = x.commands := by
  rw [ContextImpl.released]
  cases op.stagingBuffer with
  | none => exact ⟨rfl, rfl, rfl⟩
  | some slotIdx => exact ⟨rfl, rfl, rfl⟩

/-- One operation moves and writes nothing. -/
theorem SendInv.move {s : Sending} {x : ContextImpl} {h : SendHalf}
    {pre post : List ChunkSendOperation} {op op' : ChunkSendOperation}
    (hinv : SendInv S e error (s.1, s.2.withOps (pre ++ op :: post)))
    (hhome : x.name = s.1.name ∧ x.processIdentifier = s.1.processIdentifier
      ∧ x.commands = s.1.commands)
    (hsame : h = { s.2 with callbacks := h.callbacks })
    (hseq : op'.sequenceNumber = op.sequenceNumber)
    (hok : SendOk S e error s.2 op')
    (hread : op.state = .READING_REPLY → op'.state = .READING_REPLY
      ∨ op.doneReadingReply = true)
    (hdone : op'.doneReadingReply = op.doneReadingReply) :
    SendInv S e error (x, h.withOps (pre ++ op' :: post)) := by
  have hmem : op ∈ pre ++ op :: post := List.mem_append_right _ (List.mem_cons_self ..)
  have hmem' : op' ∈ pre ++ op' :: post := List.mem_append_right _ (List.mem_cons_self ..)
  rw [hsame]
  refine ⟨⟨hhome.1.trans hinv.home.1, hhome.2.1.trans hinv.home.2⟩, ?_,
    numbered_set hinv.numbered hseq,
    hinv.within, hinv.written.frame rfl rfl rfl, ?_, ?_, ?_⟩
  · exact hhome.2.2.symm ▸ hinv.sized
  · intro o ho
    rcases mem_replaced hinv.numbered ho with rfl | ⟨hold, -⟩
    · exact hok.frame rfl rfl rfl
    · exact (hinv.ops o hold).frame rfl rfl rfl
  · intro herror n hn
    rcases hinv.kept herror n hn with hlt | ⟨o, ho, hon⟩
    · exact .inl hlt
    · rcases mem_kept ho with rfl | hkept
      · exact .inr ⟨op', hmem', hseq.trans hon⟩
      · exact .inr ⟨o, hkept, hon⟩
  · intro n hn
    rcases hinv.awaited n hn with hdone' | ⟨o, ho, hon, hstate, hwaits⟩
    · exact .inl hdone'
    · rcases mem_kept ho with rfl | hkept
      · rcases hread hstate with hstate' | htrue
        · exact .inr ⟨op', hmem', hseq.trans hon, hstate', hdone.trans hwaits⟩
        · rw [hwaits] at htrue
          exact absurd htrue Bool.noConfusion
      · exact .inr ⟨o, hkept, hon, hstate, hwaits⟩

/-- The chunk whose turn it is to be announced. -/
theorem SendInv.turn {s : Sending} {pre post : List ChunkSendOperation} {op : ChunkSendOperation}
    (hinv : SendInv S e error (s.1, s.2.withOps (pre ++ op :: post))) (herror : error = false)
    (hprev : SendState.READING_REPLY ≤ lastState .FINISHED pre)
    (hstate : op.state = .ALLOCATING_STAGING_BUFFER) :
    op.sequenceNumber = s.2.replyReads.length := by
  have hmem : op ∈ pre ++ op :: post := List.mem_append_right _ (List.mem_cons_self ..)
  have hok := hinv.ops op hmem
  have hnum : Numbered s.2.nextChunkBeingSent (pre ++ op :: post) := hinv.numbered
  have hge : s.2.replyReads.length ≤ op.sequenceNumber := by
    by_contra hlt
    have hle := hok.below (Nat.lt_of_not_le hlt)
    rw [hstate] at hle
    exact absurd hle (by decide)
  by_contra hne
  have hgt : s.2.replyReads.length < op.sequenceNumber := Nat.lt_of_le_of_ne hge (Ne.symm hne)
  have hbelow : op.sequenceNumber - 1 < s.2.nextChunkBeingSent := by
    have hmid : op.sequenceNumber + post.length + 1 = s.2.nextChunkBeingSent := numbered_mid hnum
    omega
  -- the predecessor is stored, and was announced
  obtain ⟨o, ho, hon⟩ : ∃ o ∈ pre ++ op :: post, o.sequenceNumber = op.sequenceNumber - 1 := by
    rcases hinv.kept herror _ hbelow with hlt | hstored
    · have hlt' : op.sequenceNumber - 1 < s.2.replyReads.length := hlt
      omega
    · exact hstored
  have hlast : lastState SendState.FINISHED pre = o.state :=
    lastState_before hnum ho (show o.sequenceNumber + 1 = op.sequenceNumber by omega)
  have hprev' : SendState.READING_REPLY ≤ o.state := by
    rw [hlast] at hprev
    exact hprev
  have hover := (hinv.ops o ho).above (by show s.2.replyReads.length ≤ _; omega)
  cases ho' : o.state with
  | UNINITIALIZED => rw [ho'] at hprev'; exact absurd hprev' (by decide)
  | ALLOCATING_STAGING_BUFFER => rw [ho'] at hprev'; exact absurd hprev' (by decide)
  | READING_REPLY => exact hover.1 ho'
  | FINISHED => exact hover.2 herror ho'

/-- A finished operation. -/
theorem SendOk.finish {h : SendHalf} {op op' : ChunkSendOperation} (hok : SendOk S e error h op)
    (hstate : op'.state = .FINISHED) (hchunk : op'.chunk = op.chunk)
    (hseq : op'.sequenceNumber = op.sequenceNumber)
    (hread : op'.doneReadingReply = op.doneReadingReply)
    (hslot : op'.doneAllocatingStagingBuffer = false → op'.stagingBuffer = none)
    (hover : error = false → op.sequenceNumber < h.replyReads.length) :
    SendOk S e error h op' := by
  have htag : op'.tag = op.tag := by
    rw [ChunkSendOperation.tag, ChunkSendOperation.tag, hchunk, hseq]
  refine ⟨htag ▸ hok.chunk, fun _ => ?_, fun hle => ⟨?_, fun herror => ?_⟩, ?_, fun _ => ?_, ?_,
    hslot, ?_⟩
  · rw [hstate]
    decide
  · rw [hstate]
    decide
  · rw [hseq] at hle
    exact absurd (hover herror) (Nat.not_lt.mpr hle)
  · rw [hstate]
    exact SendState.noConfusion
  · rw [hstate]
    exact SendState.noConfusion
  · rw [hstate]
    exact SendState.noConfusion
  · rw [hread, hseq]
    exact hok.read

/-- **Step lemma**: a transition that fires keeps the invariant. -/
theorem SendInv.fire {s : Sending} {pre post : List ChunkSendOperation}
    {op op' : ChunkSendOperation} {y : Sending}
    (hinv : SendInv S e error (s.1, s.2.withOps (pre ++ op :: post)))
    (hfire : SendFires e error (lastState .FINISHED pre) s op y op') :
    SendInv S e error (y.1, y.2.withOps (pre ++ op' :: post)) := by
  have hmem : op ∈ pre ++ op :: post := List.mem_append_right _ (List.mem_cons_self ..)
  have hok : SendOk S e error s.2 op := (hinv.ops op hmem).frame rfl rfl rfl
  cases hfire with
  | skip herror hprev hstate =>
      refine hinv.move ⟨rfl, rfl, rfl⟩ rfl rfl (hok.finish rfl rfl rfl rfl hok.waiting ?_)
        (fun hno => absurd (hstate.symm.trans hno) (by decide)) rfl
      exact fun hno => absurd (herror.symm.trans hno) (by decide)
  | ask herror hprev hstate =>
      refine hinv.move ⟨rfl, rfl, rfl⟩ rfl rfl ⟨hok.chunk, fun hlt => ?_,
        fun _ => ⟨SendState.noConfusion, fun _ => SendState.noConfusion⟩, SendState.noConfusion,
        fun _ _ hdone => ?_, SendState.noConfusion, hok.waiting, hok.read⟩
        (fun hno => absurd (hstate.symm.trans hno) (by decide)) rfl
      · have hle := hok.below hlt
        rw [hstate] at hle
        exact absurd hle (by decide)
      · exact absurd ((hok.asked hstate).symm.trans hdone) (by decide)
  | drop herror hprev hstate hdone =>
      refine hinv.move (released_same s.1 op) rfl rfl (hok.finish rfl rfl rfl rfl (fun _ => rfl) ?_)
        (fun hno => absurd (hstate.symm.trans hno) (by decide)) rfl
      exact fun hno => absurd (herror.symm.trans hno) (by decide)
  | settle hprev hstate hdone =>
      refine hinv.move (released_same s.1 op) rfl rfl (hok.finish rfl rfl rfl rfl (fun _ => rfl) ?_)
        (fun _ => .inr hdone) rfl
      exact fun _ => Nat.lt_of_not_le (fun hle => (hok.above hle).1 hstate)
  | stage slotIdx herror hprev hstate hdone hslot =>
      have hturn := hinv.turn herror hprev hstate
      have hslot' : op.stagingBuffer = some op.slotIdx := hok.granted herror hstate hdone
      have hwithin : op.sequenceNumber < s.2.nextChunkBeingSent := by
        have hmid : op.sequenceNumber + post.length + 1 = s.2.nextChunkBeingSent :=
          numbered_mid hinv.numbered
        omega
      have hlength : (s.2.sent s.1 op).replyReads.length
          = s.2.replyReads.length + 1 := by
        show (s.2.replyReads ++ [op.tag]).length = _
        rw [List.length_append, List.length_singleton]
      have hwritten : Written S e s.2 := hinv.written.frame rfl rfl rfl
      have hannounced : Written S e (s.2.sent s.1 op) :=
        hwritten.announce hok.chunk hturn hinv.home
      refine ⟨hinv.home, hinv.sized.append ?_, numbered_set hinv.numbered rfl, ?_,
        hannounced.frame rfl rfl rfl, ?_,
        ?_, ?_⟩
      · refine sized_guarded (fun e' tag ptr slot heq => ?_)
        rw [← (Transfer.stage.inj heq).2.1]
        exact hok.chunk.length_le
      · show (s.2.sent s.1 op).replyReads.length ≤ s.2.nextChunkBeingSent
        rw [hlength]
        omega
      · intro o ho
        rcases mem_replaced hinv.numbered ho with rfl | ⟨hold, hne⟩
        · refine ⟨hok.chunk, fun _ => Nat.le_refl _, fun hle => ?_, fun _ => ?_,
            fun _ => SendState.noConfusion, SendState.noConfusion, hok.waiting, hok.read⟩
          · have hle' : (s.2.sent s.1 op).replyReads.length ≤ op.sequenceNumber :=
              hle
            rw [hlength] at hle'
            omega
          · exact ⟨_, hslot', List.mem_append_right _ (List.mem_singleton_self _)⟩
        · have hold' : SendOk S e error s.2 o := (hinv.ops o hold).frame rfl rfl rfl
          have hother : SendOk S e error (s.2.sent s.1 op) o :=
            hold'.announce hne hturn
          exact hother.frame rfl rfl rfl
      · intro _ n hn
        rcases hinv.kept herror n hn with hlt | ⟨o, ho, hon⟩
        · refine .inl ?_
          show n < (s.2.sent s.1 op).replyReads.length
          rw [hlength]
          exact Nat.lt_succ_of_lt hlt
        · rcases mem_kept ho with rfl | hkept
          · refine .inl ?_
            show n < (s.2.sent s.1 o).replyReads.length
            rw [hlength]
            omega
          · exact .inr ⟨o, hkept, hon⟩
      · intro n hn
        have hn' : n < (s.2.sent s.1 op).replyReads.length := hn
        rw [hlength] at hn'
        rcases Nat.lt_succ_iff_lt_or_eq.mp hn' with hlt | rfl
        · rcases hinv.awaited n hlt with hdone' | ⟨o, ho, hon, hstate', hwaits⟩
          · exact .inl hdone'
          · rcases mem_kept ho with rfl | hkept
            · exact absurd (hstate.symm.trans hstate') (by decide)
            · exact .inr ⟨o, hkept, hon, hstate', hwaits⟩
        · by_cases hread : op.doneReadingReply = true
          · refine .inl ?_
            rw [← hturn]
            exact hok.read hread
          · exact .inr ⟨_, List.mem_append_right _ (List.mem_cons_self ..), hturn, rfl,
              Bool.eq_false_iff.mpr hread⟩

end Fire

/-- The invariant of the sending half is kept by its operations. -/
theorem sendRule (S : Setup) (e : Endpoint) (error : Bool) :
    SendRule e error (SendInv S e error) where
  numbered := fun _ hinv => ⟨_, hinv.numbered⟩
  granted := by
    intro s hinv herror op hop hstate hdone
    rw [(hinv.ops op hop).granted herror hstate hdone]
    exact Option.some_ne_none _
  fire := fun s pre op post y op' hinv hfire => hinv.fire hfire
  pop := by
    intro s op rest hinv hfin
    refine ⟨hinv.home, hinv.sized, hinv.numbered.2, hinv.within, hinv.written.frame rfl rfl rfl,
      fun o ho => (hinv.ops o (List.mem_cons_of_mem _ ho)).frame rfl rfl rfl, ?_, ?_⟩
    · intro herror n hn
      rcases hinv.kept herror n hn with hlt | ⟨o, ho, hon⟩
      · exact .inl hlt
      · rcases List.mem_cons.mp ho with rfl | hrest
        · refine .inl (Nat.lt_of_not_le (fun hge => ?_))
          exact ((hinv.ops o (List.mem_cons_self ..)).above (hon ▸ hge)).2 herror hfin
        · exact .inr ⟨o, hrest, hon⟩
    · intro n hn
      rcases hinv.awaited n hn with hdone | ⟨o, ho, hon, hstate, hwaits⟩
      · exact .inl hdone
      · rcases List.mem_cons.mp ho with rfl | hrest
        · exact absurd (hfin.symm.trans hstate) (by decide)
        · exact .inr ⟨o, hrest, hon, hstate, hwaits⟩

-- ── Tasks ────────────────────────────────────────────────────────────────────

/-- A pointer into the deque changes no number. -/
theorem numbered_modify {Op State : Type} [Operation Op State] {next n : Nat} {f : Op → Op}
    {ops : List Op} (hseq : ∀ op, sequenceNumber (f op) = sequenceNumber op)
    (h : Numbered next ops) : Numbered next (modifyOperation n f ops) := by
  induction ops with
  | nil => trivial
  | cons op rest ih =>
      refine ⟨?_, ih h.2⟩
      rw [List.length_map]
      have hsame : sequenceNumber (if sequenceNumber op = n then f op else op)
          = sequenceNumber op := by
        split
        · exact hseq op
        · rfl
      rw [hsame]
      exact h.1

/-- The operations after one was modified. -/
theorem mem_modify {Op State : Type} [Operation Op State] {n : Nat} {f : Op → Op} {ops : List Op}
    {o : Op} (ho : o ∈ modifyOperation n f ops) :
    (∃ op ∈ ops, sequenceNumber op = n ∧ o = f op) ∨ (o ∈ ops ∧ sequenceNumber o ≠ n) := by
  obtain ⟨op, hop, rfl⟩ := List.mem_map.mp ho
  by_cases hn : sequenceNumber op = n
  · rw [if_pos hn]
    exact .inl ⟨op, hop, hn, rfl⟩
  · rw [if_neg hn]
    exact .inr ⟨hop, hn⟩

/-- Every operation is still there, as it was or as it was made. -/
theorem modify_mem {Op State : Type} [Operation Op State] {n : Nat} {f : Op → Op} {ops : List Op}
    {op : Op} (hop : op ∈ ops) :
    (sequenceNumber op = n ∧ f op ∈ modifyOperation n f ops)
      ∨ (sequenceNumber op ≠ n ∧ op ∈ modifyOperation n f ops) := by
  by_cases hn : sequenceNumber op = n
  · exact .inl ⟨hn, List.mem_map.mpr ⟨op, hop, if_pos hn⟩⟩
  · exact .inr ⟨hn, List.mem_map.mpr ⟨op, hop, if_neg hn⟩⟩

section Tasks

variable {S : Setup} {e : Endpoint} {error : Bool} {s : Sending}

/-- An operation is told something, and the reply to it may have been read. -/
theorem SendInv.tell (hinv : SendInv S e error s) {n : Nat}
    {f : ChunkSendOperation → ChunkSendOperation} {read : List Nat}
    (hseq : ∀ op, (f op).sequenceNumber = op.sequenceNumber)
    (hstate : ∀ op, (f op).state = op.state)
    (hok : ∀ op ∈ s.2.chunkSendOps, op.sequenceNumber = n → SendOk S e error s.2 op →
      SendOk S e error { s.2 with repliesRead := read } (f op))
    (hread : ∀ k ∈ s.2.repliesRead, k ∈ read)
    (hdone : (∀ op, (f op).doneReadingReply = op.doneReadingReply) ∨ n ∈ read) :
    SendInv S e error (s.1, { s.2 with
      repliesRead := read
      chunkSendOps := modifyOperation n f s.2.chunkSendOps }) := by
  have hother : ∀ o, SendOk S e error s.2 o →
      SendOk S e error { s.2 with repliesRead := read } o := fun o ho =>
    ⟨ho.chunk, ho.below, ho.above, ho.announced, ho.granted, ho.asked, ho.waiting,
      fun hr => hread _ (ho.read hr)⟩
  refine ⟨hinv.home, hinv.sized, numbered_modify hseq hinv.numbered, hinv.within,
    hinv.written.frame rfl rfl rfl, ?_, ?_, ?_⟩
  · intro o ho
    rcases mem_modify ho with ⟨op, hop, hn, rfl⟩ | ⟨hold, -⟩
    · exact (hok op hop hn (hinv.ops op hop)).frame rfl rfl rfl
    · exact (hother o (hinv.ops o hold)).frame rfl rfl rfl
  · intro herror k hk
    rcases hinv.kept herror k hk with hlt | ⟨op, hop, hon⟩
    · exact .inl hlt
    · rcases modify_mem (n := n) (f := f) hop with ⟨-, hnew⟩ | ⟨-, hsame⟩
      · exact .inr ⟨f op, hnew, (hseq op).trans hon⟩
      · exact .inr ⟨op, hsame, hon⟩
  · intro k hk
    rcases hinv.awaited k hk with hdone' | ⟨op, hop, hon, hst, hwaits⟩
    · exact .inl (hread k hdone')
    · rcases modify_mem (n := n) (f := f) hop with ⟨hn, hnew⟩ | ⟨-, hsame⟩
      · rcases hdone with hkeep | hin
        · exact .inr ⟨f op, hnew, (hseq op).trans hon, (hstate op).trans hst,
            (hkeep op).trans hwaits⟩
        · have hkn : k = n := hon.symm.trans hn
          exact .inl (hkn ▸ hin)
      · exact .inr ⟨op, hsame, hon, hst, hwaits⟩

/-- The error is set. -/
theorem SendInv.fail (hinv : SendInv S e false s) : SendInv S e true s where
  home := hinv.home
  sized := hinv.sized
  numbered := hinv.numbered
  within := hinv.within
  written := hinv.written
  ops := fun op hop =>
    have hok := hinv.ops op hop
    ⟨hok.chunk, hok.below, fun hle => ⟨(hok.above hle).1, fun hno => absurd hno (by decide)⟩,
      hok.announced, fun hno => absurd hno (by decide), hok.asked, hok.waiting, hok.read⟩
  kept := fun hno => absurd hno (by decide)
  awaited := hinv.awaited

/-- Only the context changed. -/
theorem SendInv.context (hinv : SendInv S e error s) {x : ContextImpl}
    (hx : x.name = s.1.name ∧ x.processIdentifier = s.1.processIdentifier)
    (hsized : Sized x.commands) : SendInv S e error (x, s.2) :=
  ⟨⟨hx.1.trans hinv.home.1, hx.2.trans hinv.home.2⟩, hsized, hinv.numbered, hinv.within,
    hinv.written,
    hinv.ops, hinv.kept, hinv.awaited⟩

/-- The operation of the next chunk is stored. -/
theorem SendInv.push (hinv : SendInv S e error s) {chunk : Chunk} {callback : Bool}
    (hchunk : (chunk.tag s.2.nextChunkBeingSent).IsOf (S.length e)) :
    SendInv S e error (s.1, { s.2 with
      nextChunkBeingSent := s.2.nextChunkBeingSent + 1
      chunkSendOps := s.2.chunkSendOps
        ++ [{ sequenceNumber := s.2.nextChunkBeingSent, chunk, callback }] }) := by
  refine ⟨hinv.home, hinv.sized, numbered_snoc hinv.numbered rfl, Nat.le_succ_of_le hinv.within,
    hinv.written.frame rfl rfl rfl, ?_, ?_, ?_⟩
  · intro o ho
    rcases List.mem_append.mp ho with hold | hnew
    · exact (hinv.ops o hold).frame rfl rfl rfl
    · rw [List.mem_singleton.mp hnew]
      refine ⟨hchunk, fun hlt => absurd hlt (Nat.not_lt.mpr hinv.within),
        fun _ => ⟨SendState.noConfusion, fun _ => SendState.noConfusion⟩, SendState.noConfusion,
        fun _ => SendState.noConfusion, fun _ => rfl, fun _ => rfl, Bool.noConfusion⟩
  · intro herror n hn
    rcases Nat.lt_succ_iff_lt_or_eq.mp hn with hlt | rfl
    · rcases hinv.kept herror n hlt with hbelow | ⟨o, ho, hon⟩
      · exact .inl hbelow
      · exact .inr ⟨o, List.mem_append_left _ ho, hon⟩
    · exact .inr ⟨_, List.mem_append_right _ (List.mem_singleton_self _), rfl⟩
  · intro n hn
    rcases hinv.awaited n hn with hdone | ⟨o, ho, hon, hstate, hwaits⟩
    · exact .inl hdone
    · exact .inr ⟨o, List.mem_append_left _ ho, hon, hstate, hwaits⟩

/-- The sequence numbers that a task leaves. -/
def Counts (chunks tensors : Nat) (s : Sending) : Prop :=
  s.2.nextChunkBeingSent = chunks ∧ s.2.nextTensorBeingSent = tensors

/-- A move of an operation keeps the count of the callbacks. -/
theorem SendFires.counts {prev : SendState} {op op' : ChunkSendOperation} {y : Sending}
    (h : SendFires e error prev s op y op') :
    Counts s.2.nextChunkBeingSent s.2.nextTensorBeingSent y := by
  cases h <;> exact ⟨rfl, rfl⟩

end Tasks

end TpCudaIpc
