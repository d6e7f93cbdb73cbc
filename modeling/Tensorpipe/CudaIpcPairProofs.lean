import Mathlib.Tactic.Common
import Tensorpipe.CudaIpcOutboxProofs
import Tensorpipe.CudaIpcRecvProofs

/-! # Connected cuda_ipc channels

    Any number of channels, any two of which can share a context, in any order of their tasks and
    of the events on their connections, with errors and closures at any time.

    * The two ends of a channel agree on which chunk each descriptor and each reply is about.
    * A slot is in one pair of hands.
    * The latest copy into a slot that was issued before a copy out of it is that of the same
      chunk, unless a sender stopped waiting for a reply that could still have come. -/

namespace TpCudaIpc

open TpStateMachine TpAllocator TpEventOrder

-- ── What a half leaves alone ─────────────────────────────────────────────────

/-- The copies into the outboxes of a context that an end issued. -/
structure Stages (e : Endpoint) (name : Nat) (new : List CudaCommand) : Prop where
  bracketed : Guarded Transfer.slot new
  own : ∀ c ∈ new, ∀ a, c.action = some a →
    ∃ tag ptr d slotIdx, a = .stage e tag ptr (⟨name, d⟩, slotIdx)

/-- The commands for copies out of slots. -/
def fetches (e : Endpoint) (name : Nat) (copies : List Copy) : List CudaCommand :=
  copies.flatMap (fun copy => guarded Transfer.slot (name, copy.stream) (copy.transfer e))

/-- Nothing that was written is taken back, and the replies that were read stay the same. -/
structure SendGrown (e : Endpoint) (error : Bool) (s₀ s : Sending) : Prop where
  name : s.1.name = s₀.1.name
  remotes : s.1.remoteOutboxes = s₀.1.remoteOutboxes
  descriptors : s₀.2.descriptors <+: s.2.descriptors
  replies : s.2.repliesRead = s₀.2.repliesRead
  commands : ∃ new, s.1.commands = s₀.1.commands ++ new ∧ Stages e s₀.1.name new
    ∧ (error = true → new = [])

/-- Of the context only the handles change, and there are commands for the copies. -/
structure RecvSame (e : Endpoint) (error : Bool) (s₀ s : Receiving) : Prop where
  name : s.1.name = s₀.1.name
  processIdentifier : s.1.processIdentifier = s₀.1.processIdentifier
  outboxes : s.1.outboxes = s₀.1.outboxes
  answers : s.1.answers = s₀.1.answers
  reads : s₀.2.descriptorReads.length ≤ s.2.descriptorReads.length
  read : s.2.descriptorsRead = s₀.2.descriptorsRead
  commands : ∃ copies, s.2.copied = s₀.2.copied ++ copies
    ∧ s.1.commands = s₀.1.commands ++ fetches e s₀.1.name copies ∧ (error = true → copies = [])

section Commands

variable {e : Endpoint} {name : Nat}

/-- No commands. -/
theorem stages_nil (e : Endpoint) (name : Nat) : Stages e name [] :=
  ⟨.nil, fun _ hc => absurd hc List.not_mem_nil⟩

/-- A copy to a slot, guarded by the slot's event, is one more of them. -/
theorem Stages.snoc {new : List CudaCommand} (h : Stages e name new) (stream : Stream) (tag : Tag)
    (ptr d slotIdx : Nat) :
    Stages e name (new ++ guarded Transfer.slot stream (.stage e tag ptr (⟨name, d⟩, slotIdx))) := by
  refine ⟨.snoc h.bracketed stream _, fun c hc a ha => ?_⟩
  rcases List.mem_append.mp hc with hold | hlast
  · exact h.own c hold a ha
  · simp only [guarded, List.mem_cons, List.not_mem_nil, or_false] at hlast
    rcases hlast with rfl | rfl | rfl
    · exact absurd ha (by simp [Command.action])
    · exact ⟨tag, ptr, d, slotIdx, (Option.some.inj ha).symm⟩
    · exact absurd ha (by simp [Command.action])

/-- The outboxes of other contexts are left alone. -/
theorem Stages.latest_eq_none {new : List CudaCommand} (h : Stages e name new) {slot : Slot}
    (hslot : slot.1.context ≠ name) : latest Transfer.target slot new = none := by
  cases hlatest : latest Transfer.target slot new with
  | none => rfl
  | some a =>
      obtain ⟨k, s, hk, htarget, -⟩ := exists_latest hlatest
      obtain ⟨tag, ptr, d, slotIdx, rfl⟩ := h.own _ (List.mem_of_getElem? hk) a rfl
      exact absurd (congrArg (fun o => o.1.context) (Option.some.inj htarget)).symm hslot

/-- One more copy adds its guarded command. -/
theorem fetches_snoc (copies : List Copy) (copy : Copy) :
    fetches e name (copies ++ [copy])
      = fetches e name copies ++ guarded Transfer.slot (name, copy.stream) (copy.transfer e) := by
  rw [fetches, List.flatMap_append, List.flatMap_singleton]
  rfl

/-- Every copy out of a slot waits for the slot's event and records it. -/
theorem guarded_fetches (e : Endpoint) (name : Nat) (copies : List Copy) :
    Guarded Transfer.slot (fetches e name copies) := by
  induction copies using List.reverseRecOn with
  | nil => exact .nil
  | append_singleton copies copy ih =>
      rw [fetches_snoc]
      exact .snoc ih _ _

/-- The transfers of the commands are those of the copies. -/
theorem mem_fetches {copies : List Copy} {c : CudaCommand} (hc : c ∈ fetches e name copies)
    {a : Transfer} (ha : c.action = some a) : ∃ copy ∈ copies, a = copy.transfer e := by
  obtain ⟨copy, hcopy, hmem⟩ := List.mem_flatMap.mp hc
  simp only [guarded, List.mem_cons, List.not_mem_nil, or_false] at hmem
  rcases hmem with rfl | rfl | rfl
  · exact absurd ha (by simp [Command.action])
  · exact ⟨copy, hcopy, (Option.some.inj ha).symm⟩
  · exact absurd ha (by simp [Command.action])

/-- Every copy has its command. -/
theorem transfer_mem_fetches {copies : List Copy} {copy : Copy} (h : copy ∈ copies) :
    .act (name, copy.stream) (copy.transfer e) ∈ fetches e name copies :=
  List.mem_flatMap.mpr ⟨copy, h, List.mem_cons_of_mem _ (List.mem_cons_self ..)⟩

/-- What is copied out of slots does not change them. -/
theorem latest_fetches (slot : Slot) (copies : List Copy) :
    latest Transfer.target slot (fetches e name copies) = none := by
  induction copies using List.reverseRecOn with
  | nil => rfl
  | append_singleton copies copy ih =>
      rw [fetches_snoc, latest_append, latest_guarded, ih]
      rfl

/-- The copies out of a slot fit the slot. -/
theorem sized_fetches (e : Endpoint) (name : Nat) (copies : List Copy) :
    Sized (fetches e name copies) := by
  induction copies using List.reverseRecOn with
  | nil => exact fun c hc => absurd hc List.not_mem_nil
  | append_singleton copies copy ih =>
      rw [fetches_snoc]
      refine ih.append (sized_guarded (fun _ _ _ _ heq => ?_))
      exact absurd heq (by simp [Copy.transfer])

end Commands

section Frame

variable {e : Endpoint} {error : Bool}

/-- A half has grown by nothing. -/
theorem SendGrown.refl (e : Endpoint) (error : Bool) (s : Sending) : SendGrown e error s s :=
  ⟨rfl, rfl, List.prefix_refl _, rfl, [], (List.append_nil _).symm, stages_nil .., fun _ => rfl⟩

/-- What the fields of the half show is all that growth depends on. -/
theorem SendGrown.frame {s₀ s s' : Sending} (h : SendGrown e error s₀ s)
    (hname : s'.1.name = s.1.name) (hremotes : s'.1.remoteOutboxes = s.1.remoteOutboxes)
    (hcommands : s'.1.commands = s.1.commands) (hdescriptors : s'.2.descriptors = s.2.descriptors)
    (hreplies : s'.2.repliesRead = s.2.repliesRead) : SendGrown e error s₀ s' :=
  ⟨hname.trans h.name, hremotes.trans h.remotes, hdescriptors ▸ h.descriptors,
    hreplies.trans h.replies, hcommands ▸ h.commands⟩

/-- Every action of a send only adds to what was said and enqueued. -/
theorem sendKeeps (s₀ : Sending) :
    KeepsLive (advanceChunkSendOperation e error) (SendGrown e error s₀) := by
  have hcall : ∀ (s : Sending) op, SendGrown e error s₀ s →
      SendGrown e error s₀ (callSendCallback error s op).state.1 := by
    intro s op hs
    rw [callSendCallback_eq]
    exact hs.frame rfl rfl rfl rfl rfl
  have hrelease : ∀ (s : Sending) op, SendGrown e error s₀ s →
      SendGrown e error s₀ (releaseStagingBuffer s op).state.1 := by
    intro s op hs
    rw [releaseStagingBuffer_eq]
    obtain ⟨hname, -, hcommands⟩ := released_same s.1 op
    refine hs.frame hname ?_ hcommands rfl rfl
    show (s.1.released op).remoteOutboxes = _
    rw [ContextImpl.released]
    cases op.stagingBuffer with
    | none => rfl
    | some slotIdx => rfl
  have hcopy : ∀ (s : Sending) op, error = false → SendGrown e error s₀ s →
      SendGrown e error s₀ (copyFromSourceToStaging e s op).state.1 := by
    intro s op herror hs
    rw [copyFromSourceToStaging]
    cases op.stagingBuffer with
    | none => exact hs
    | some slotIdx =>
        obtain ⟨new, hnew, hstages, -⟩ := hs.commands
        have hissued : (s.1.issue op.chunk.stream
            (.stage e op.tag op.chunk.ptr (⟨s.1.name, op.chunk.deviceIdx⟩, slotIdx))).commands
            = s₀.1.commands ++ (new ++ guarded Transfer.slot (s₀.1.name, op.chunk.stream)
              (.stage e op.tag op.chunk.ptr (⟨s₀.1.name, op.chunk.deviceIdx⟩, slotIdx))) := by
          rw [ContextImpl.issue, hs.name, hnew, List.append_assoc]
        exact ⟨hs.name, hs.remotes, hs.descriptors, hs.replies, _, hissued,
          hstages.snoc _ _ _ _ _, fun hno => absurd (herror.symm.trans hno) (by decide)⟩
  have hwrite : ∀ (s : Sending) op, SendGrown e error s₀ s →
      SendGrown e error s₀ (writeDescriptor s op).state.1 := fun s op hs =>
    ⟨hs.name, hs.remotes, hs.descriptors.trans (List.prefix_append ..), hs.replies, hs.commands⟩
  intro t ht hlive a ha s op hs
  simp only [advanceChunkSendOperation, List.mem_cons, List.not_mem_nil, or_false] at ht
  rcases ht with rfl | rfl | rfl | rfl | rfl <;>
    simp only [List.mem_cons, List.not_mem_nil, or_false] at ha
  · subst ha
    exact hcall s op hs
  · subst ha
    exact hs.frame rfl rfl rfl rfl rfl
  · rcases ha with rfl | rfl
    · exact hcall s op hs
    · exact hrelease s op hs
  · -- nothing is copied after an error
    obtain ⟨o, prev, hcond⟩ := hlive
    simp only [Bool.and_eq_true, Bool.not_eq_true'] at hcond
    rcases ha with rfl | rfl | rfl | rfl
    · exact hcopy s op hcond.1.1 hs
    · exact hwrite s op hs
    · exact hs.frame rfl rfl rfl rfl rfl
    · exact hcall s op hs
  · subst ha
    exact hrelease s op hs

/-- Advancing one send only adds. -/
theorem sendAdvance_grown {s₀ s : Sending} (h : SendGrown e error s₀ s) (n : Nat) :
    SendGrown e error s₀ (sendAdvance e error n s) := by
  have hkeeps : SendGrown e error s₀ (advanceOperation (advanceChunkSendOperation e error) s
      s.2.chunkSendOps n).state.1 := advanceOperation_keeps (sendKeeps s₀) h
  exact hkeeps.frame rfl rfl rfl rfl rfl

/-- Advancing all sends only adds. -/
theorem sendAdvanceAll_grown {s₀ s : Sending} (h : SendGrown e error s₀ s) :
    SendGrown e error s₀ (sendAdvanceAll e error s) := by
  have hkeeps : SendGrown e error s₀ (advanceAllOperations (advanceChunkSendOperation e error) s
      s.2.chunkSendOps).state.1 := advanceAllOperations_keeps (sendKeeps s₀) h
  exact hkeeps.frame rfl rfl rfl rfl rfl

/-- A call of `send` only adds. -/
theorem sendFromLoop_grown {buffer : Buffer} {length : Nat} (s : Sending) :
    SendGrown e error s (sendFromLoop e error buffer length s) := by
  have hstart : ∀ n callbacks, SendGrown e error s (s.1, { s.2 with
      nextTensorBeingSent := n, callbacks := callbacks }) := fun _ _ =>
    (SendGrown.refl _ _ s).frame rfl rfl rfl rfl rfl
  rw [sendFromLoop]
  split
  · exact hstart _ _
  · rw [sendImplFromLoop]
    split
    · exact hstart _ _
    · refine List.foldlRecOn _ _ (hstart _ s.2.callbacks) (fun y hy chunkIdx _ => ?_)
      refine sendAdvance_grown ?_ _
      exact hy.frame rfl rfl rfl rfl rfl

/-- The callback of the allocator only adds. -/
theorem allocated_grown {n deviceIdx : Nat} {slotIdx : Option Nat} (s : Sending) :
    SendGrown e error s (allocated e error n deviceIdx slotIdx s) := by
  have hadvance : ∀ ops, SendGrown e error s
      (sendAdvance e error n (s.1, { s.2 with chunkSendOps := ops })) := by
    intro ops
    refine sendAdvance_grown ?_ n
    exact (SendGrown.refl _ _ s).frame rfl rfl rfl rfl rfl
  cases slotIdx with
  | none => exact hadvance _
  | some slotIdx =>
      cases error with
      | true => exact (hadvance _).frame rfl rfl rfl rfl rfl
      | false => exact hadvance _

/-- The callback of a reply only adds. -/
theorem replyRead_grown {n : Nat} (s : Sending) :
    SendGrown e error (s.1, { s.2 with repliesRead := s.2.repliesRead ++ [n] })
      (replyRead e error n s) := by
  refine sendAdvance_grown ?_ n
  exact (SendGrown.refl _ _ _).frame rfl rfl rfl rfl rfl

/-- A half has received nothing more. -/
theorem RecvSame.refl (e : Endpoint) (error : Bool) (s : Receiving) : RecvSame e error s s :=
  ⟨rfl, rfl, rfl, rfl, Nat.le_refl _, rfl, [], (List.append_nil _).symm,
    (List.append_nil _).symm, fun _ => rfl⟩

/-- What the fields of the half show is all that receiving depends on. -/
theorem RecvSame.frame {s₀ s s' : Receiving} (h : RecvSame e error s₀ s) (hsame : s'.1 = s.1)
    (hreads : s'.2.descriptorReads = s.2.descriptorReads)
    (hread : s'.2.descriptorsRead = s.2.descriptorsRead) (hcopied : s'.2.copied = s.2.copied) :
    RecvSame e error s₀ s' := by
  refine ⟨?_, ?_, ?_, ?_, hreads ▸ h.reads, hread.trans h.read, ?_⟩
  · rw [hsame]
    exact h.name
  · rw [hsame]
    exact h.processIdentifier
  · rw [hsame]
    exact h.outboxes
  · rw [hsame]
    exact h.answers
  · rw [hsame, hcopied]
    exact h.commands

/-- Every action of a receive enqueues the commands of what it copies. -/
theorem recvKeeps (s₀ : Receiving) :
    KeepsLive (advanceChunkRecvOperation e error) (RecvSame e error s₀) := by
  have hcall : ∀ (s : Receiving) op, RecvSame e error s₀ s →
      RecvSame e error s₀ (callRecvCallback error s op).state.1 := by
    intro s op hs
    rw [callRecvCallback_eq]
    exact hs.frame rfl rfl rfl rfl
  have hcopy : ∀ (s : Receiving) op, error = false → RecvSame e error s₀ s →
      RecvSame e error s₀ (copyFromStagingToTarget e s op).state.1 := by
    intro s op herror hs
    rw [copyFromStagingToTarget]
    split
    · next remoteDeviceIdx remoteSlotIdx _ _ =>
      dsimp only
      split
      · exact hs
      · next y outbox hy =>
          obtain ⟨hcontext, hhalf⟩ := openedOutbox_same hy
          have hcontext' : y.1 = { s.1 with remoteOutboxes := y.1.remoteOutboxes } := hcontext
          have hhalf' : y.2 = { s.2 with remoteOutboxesOpened := y.2.remoteOutboxesOpened } := hhalf
          have hy' : RecvSame e error s₀ y := by
            rw [show y = (y.1, y.2) from rfl, hcontext', hhalf']
            exact ⟨hs.name, hs.processIdentifier, hs.outboxes, hs.answers, hs.reads, hs.read,
              hs.commands⟩
          obtain ⟨copies, hcopied, hcommands, -⟩ := hy'.commands
          refine ⟨hy'.name, hy'.processIdentifier, hy'.outboxes, hy'.answers, hy'.reads, hy'.read,
            copies ++ [op.copyOf s.2 remoteDeviceIdx remoteSlotIdx outbox], ?_, ?_,
            fun hno => absurd (herror.symm.trans hno) (by decide)⟩
          · rw [← List.append_assoc, ← hcopied]
            rfl
          · rw [fetches_snoc, ← List.append_assoc, ← hcommands, ← hy'.name]
            rfl
    · exact hs
  intro t ht hlive a ha s op hs
  simp only [advanceChunkRecvOperation, List.mem_cons, List.not_mem_nil, or_false] at ht
  rcases ht with rfl | rfl | rfl | rfl <;>
    simp only [List.mem_cons, List.not_mem_nil, or_false] at ha
  · subst ha
    exact hcall s op hs
  · subst ha
    refine ⟨hs.name, hs.processIdentifier, hs.outboxes, hs.answers, Nat.le_trans hs.reads ?_,
      hs.read, hs.commands⟩
    show _ ≤ (s.2.descriptorReads ++ [op.tag]).length
    rw [List.length_append]
    exact Nat.le_add_right ..
  · subst ha
    exact hcall s op hs
  · obtain ⟨o, prev, hcond⟩ := hlive
    simp only [Bool.and_eq_true, Bool.not_eq_true'] at hcond
    rcases ha with rfl | rfl | rfl
    · exact hcopy s op hcond.1.1 hs
    · exact hs.frame rfl rfl rfl rfl
    · exact hcall s op hs

/-- Advancing one receive enqueues what it copies. -/
theorem recvAdvance_same {s₀ s : Receiving} (h : RecvSame e error s₀ s) (n : Nat) :
    RecvSame e error s₀ (recvAdvance e error n s) := by
  have hkeeps : RecvSame e error s₀ (advanceOperation (advanceChunkRecvOperation e error) s
      s.2.chunkRecvOps n).state.1 := advanceOperation_keeps (recvKeeps s₀) h
  exact hkeeps.frame rfl rfl rfl rfl

/-- Advancing all receives enqueues what they copy. -/
theorem recvAdvanceAll_same {s₀ s : Receiving} (h : RecvSame e error s₀ s) :
    RecvSame e error s₀ (recvAdvanceAll e error s) := by
  have hkeeps : RecvSame e error s₀ (advanceAllOperations (advanceChunkRecvOperation e error) s
      s.2.chunkRecvOps).state.1 := advanceAllOperations_keeps (recvKeeps s₀) h
  exact hkeeps.frame rfl rfl rfl rfl

/-- A call of `recv` enqueues what it copies. -/
theorem recvFromLoop_same {buffer : Buffer} {length : Nat} (s : Receiving) :
    RecvSame e error s (recvFromLoop e error buffer length s) := by
  rw [recvFromLoop]
  split
  · exact (RecvSame.refl _ _ s).frame rfl rfl rfl rfl
  · rw [recvImplFromLoop]
    split
    · exact (RecvSame.refl _ _ s).frame rfl rfl rfl rfl
    · refine List.foldlRecOn (motive := fun y => RecvSame e error s y) _ _
        ((RecvSame.refl _ _ s).frame rfl rfl rfl rfl)
        (fun y hy chunkIdx _ => ?_)
      refine recvAdvance_same ?_ _
      exact hy.frame rfl rfl rfl rfl

/-- The callback of a descriptor enqueues what it copies. -/
theorem descriptorRead_same {n : Nat} {descriptor : Option Descriptor} (s : Receiving) :
    RecvSame e error (s.1, { s.2 with descriptorsRead := s.2.descriptorsRead ++ [n] })
      (descriptorRead e error n descriptor s) := by
  have hadvance : ∀ h : RecvHalf, h.descriptorReads = s.2.descriptorReads →
      h.descriptorsRead = s.2.descriptorsRead ++ [n] → h.copied = s.2.copied →
      RecvSame e error (s.1, { s.2 with descriptorsRead := s.2.descriptorsRead ++ [n] })
        (recvAdvance e error n (s.1, h)) := by
    intro h hreads hread hcopied
    refine recvAdvance_same ?_ n
    exact (RecvSame.refl _ _ _).frame rfl hreads hread hcopied
  cases descriptor with
  | none => exact hadvance _ rfl rfl rfl
  | some descriptor =>
      cases error with
      | true => exact hadvance _ rfl rfl rfl
      | false =>
          refine hadvance _ ?_ ?_ ?_
          · show (receiveOutbox descriptor _).descriptorReads = _
            rw [receiveOutbox]
            cases descriptor.outboxInfo <;> rfl
          · show (receiveOutbox descriptor _).descriptorsRead = _
            rw [receiveOutbox]
            cases descriptor.outboxInfo <;> rfl
          · show (receiveOutbox descriptor _).copied = _
            rw [receiveOutbox]
            cases descriptor.outboxInfo <;> rfl

end Frame

-- ── The invariant of the world ───────────────────────────────────────────────

/-- The sending half of an endpoint. -/
def World.half (w : World) (e : Endpoint) : SendHalf := (w.channel e).send

/-- What all the contexts issued.  The slots of a context are written by its own copies alone, and
    whoever copies out of a slot does it, as long as `Careful` holds, behind the copy into it that
    the descriptor was about. -/
structure IssuedInv (Careful : Prop) (w : World) : Prop where
  bracketed : Guarded Transfer.slot w.issued
  sized : Sized w.issued
  own : ∀ slot, latest Transfer.target slot w.issued
    = latest Transfer.target slot (w.context slot.1.context).commands
  fetched : Careful → ∀ (k : Nat) stream e tag ptr slot,
    w.issued[k]? = some (.act stream (.fetch e tag ptr slot)) →
    Staged (w.issued.take k) slot e.other tag
  copied : ∀ e, ∀ copy ∈ (w.channel e).recv.copied, ∃ stream,
    .act stream (copy.transfer e) ∈ w.issued

/-- The invariant of all channels and contexts.  `settled` is what patience is for: a reply that
    was read, or was given up, is one that was written or will never be. -/
structure WorldInv (S : Setup) (Careful : Prop) (w : World) : Prop where
  name : ∀ name, (w.context name).name = name
  outboxes : ∀ name, Outboxes S (w.context name) w.half (fun _ => [])
  send : ∀ e, SendInv S e (w.channel e).error (w.context (S.home e), w.half e)
  cut : ∀ e, (w.channel e).error = false →
    (w.half e).nextChunkBeingSent = chunkStart (S.length e) (w.half e).nextTensorBeingSent
  recv : ∀ e, RecvSide S e (w.channel e).error (w.half e.other).descriptors
    (w.context (S.home e), (w.channel e).recv)
  settled : Careful → ∀ e, ∀ k ∈ (w.half e).repliesRead,
    k < (w.channel e.other).recv.copied.length ∨ (w.channel e.other).error = true
  issued : IssuedInv Careful w

/-- A channel that was at work while the rest of the world stood still. -/
structure LocalInv (S : Setup) (Careful : Prop) (w : World) (e : Endpoint) (x : Local) : Prop where
  send : SendSide S e x.channel.error w.half (x.context, x.channel.send)
  recv : RecvSide S e x.channel.error (w.half e.other).descriptors (x.context, x.channel.recv)
  error : (w.channel e).error = true → x.channel.error = true
  descriptors : (w.half e).descriptors <+: x.channel.send.descriptors
  settled : Careful → ∀ k ∈ x.channel.send.repliesRead,
    k < (w.channel e.other).recv.copied.length ∨ (w.channel e.other).error = true

/-- What the channel issued meanwhile: copies into slots, or copies out of slots while it was not
    in error. -/
inductive Issues (S : Setup) (w : World) (e : Endpoint) (x : Local) : Prop where
  | stages (new : List CudaCommand) (hnew : Stages e (S.home e) new)
      (hcommands : x.context.commands = (w.context (S.home e)).commands ++ new)
      (hcopied : x.channel.recv.copied = (w.channel e).recv.copied)
  | fetches (copies : List Copy)
      (hcommands : x.context.commands
        = (w.context (S.home e)).commands ++ fetches e (S.home e) copies)
      (hcopied : x.channel.recv.copied = (w.channel e).recv.copied ++ copies)
      (herror : copies ≠ [] → (w.channel e).error = false)

/-- Nothing was issued. -/
structure Still (S : Setup) (w : World) (e : Endpoint) (x : Local) : Prop where
  commands : x.context.commands = (w.context (S.home e)).commands
  copied : x.channel.recv.copied = (w.channel e).recv.copied

/-- The world after a task at an endpoint. -/
def World.put (S : Setup) (w : World) (e : Endpoint) (x : Local) : World where
  context := Function.update w.context (S.home e) x.context
  channel := Function.update w.channel e x.channel
  issued := w.issued ++ x.context.commands.drop (w.context (S.home e)).commands.length

/-- Contexts of one process are one context. -/
def Setup.Distinct (S : Setup) : Prop :=
  ∀ e e', S.processIdentifier (S.home e) = S.processIdentifier (S.home e') → S.home e = S.home e'

/-- The peer of the peer. -/
theorem Endpoint.other_other (e : Endpoint) : e.other.other = e := by
  simp [Endpoint.other]

/-- No endpoint is its own peer. -/
theorem Endpoint.other_ne (e : Endpoint) : e.other ≠ e := by
  intro h
  have hside := congrArg Endpoint.side h
  cases hs : e.side with
  | true =>
      rw [Endpoint.other, hs] at hside
      exact Bool.noConfusion hside
  | false =>
      rw [Endpoint.other, hs] at hside
      exact Bool.noConfusion hside

section World

variable {S : Setup} {Careful : Prop} {w : World} {e : Endpoint} {x : Local}

/-- The endpoint of the task has its new channel. -/
theorem World.put_channel_self (w : World) (e : Endpoint) (x : Local) :
    (w.put S e x).channel e = x.channel := Function.update_self ..

/-- The other endpoints keep their channel. -/
theorem World.put_channel_ne (w : World) {e e' : Endpoint} (x : Local) (h : e' ≠ e) :
    (w.put S e x).channel e' = w.channel e' := Function.update_of_ne h ..

/-- Only the endpoint of the task has a new sending half. -/
theorem World.put_half (w : World) (e : Endpoint) (x : Local) :
    (w.put S e x).half = halves w.half e x.channel.send := by
  funext e'
  by_cases he : e' = e
  · subst he
    rw [halves_self, World.half, World.put_channel_self]
  · rw [halves_ne _ _ he, World.half, World.put_channel_ne w x he]
    rfl

/-- The context of the endpoint is the new one. -/
theorem World.put_context_self (w : World) {e : Endpoint} {name : Nat} (x : Local)
    (h : S.home e = name) : (w.put S e x).context name = x.context := by
  rw [← h]
  exact Function.update_self ..

/-- The other contexts are as they were. -/
theorem World.put_context_ne (w : World) {e : Endpoint} {name : Nat} (x : Local)
    (h : S.home e ≠ name) : (w.put S e x).context name = w.context name :=
  Function.update_of_ne (Ne.symm h) ..

/-- What the task enqueued is what was issued last. -/
theorem World.put_issued (w : World) {new : List CudaCommand}
    (h : x.context.commands = (w.context (S.home e)).commands ++ new) :
    (w.put S e x).issued = w.issued ++ new := by
  rw [World.put, h, List.drop_left]

/-- The descriptors of an endpoint introduce its outboxes in time. -/
theorem WorldInv.frames (hw : WorldInv S Careful w) (e : Endpoint) :
    Frames S e (w.half e.other).descriptors := by
  have hwritten := (hw.send e.other).written
  refine ⟨?_, hwritten.introduces⟩
  rw [hwritten.descriptors]
  exact hwritten.inTurn

/-- **Slot lemma.**  As long as nobody gives up, a chunk that was not copied out yet is the latest
    one that was copied into the slot of its descriptor. -/
theorem WorldInv.honest (hw : WorldInv S Careful w) (hcareful : Careful) (hdistinct : S.Distinct)
    (herror : (w.channel e).error = false) {i : Nat} (hi : (w.channel e).recv.copied.length ≤ i)
    {frame : Tag × Descriptor} (hframe : (w.half e.other).descriptors[i]? = some frame)
    {outbox : MemHandle} (hremote : RemoteOf S e.other frame.2.deviceIdx outbox) :
    Staged w.issued (outbox, frame.2.slotIdx) e.other frame.1 := by
  have hinv := hw.send e.other
  have htags : ∀ {j : Nat} {f}, (w.half e.other).descriptors[j]? = some f →
      (w.half e.other).replyReads[j]? = some f.1 := by
    intro j f hj
    rw [← hinv.written.descriptors, List.getElem?_map, hj]
    rfl
  have hlt : i < (w.half e.other).replyReads.length :=
    (List.getElem?_eq_some_iff.mp (htags hframe)).1
  -- its reply was not read
  have hunread : i ∉ (w.half e.other).repliesRead := by
    intro hread
    rcases hw.settled hcareful e.other i hread with hcopied | hfailed
    · rw [Endpoint.other_other] at hcopied
      omega
    · rw [Endpoint.other_other, herror] at hfailed
      exact Bool.noConfusion hfailed
  obtain ⟨op, hop, hn, hstate, -⟩ := (hinv.awaited i hlt).resolve_left hunread
  obtain ⟨info, hslot, hmem⟩ := (hinv.ops op hop).announced hstate
  have hframe' : frame = (op.tag, ⟨op.chunk.deviceIdx, op.slotIdx, info⟩) := by
    obtain ⟨j, hj⟩ := List.mem_iff_getElem?.mp hmem
    have hjn : op.tag.sequenceNumber = j := hinv.written.inTurn.number (htags hj)
    have hij : j = i := hjn.symm.trans hn
    rw [hij] at hj
    exact Option.some.inj (hframe.symm.trans hj)
  subst hframe'
  obtain ⟨e', rfl, hprocess⟩ := hremote
  rw [hdistinct e' e.other hprocess]
  obtain ⟨hands, hout⟩ := hw.outboxes (S.home e.other) op.chunk.deviceIdx
  have hintact := hout.intact e.other (hw.name _).symm op hop rfl hstate op.slotIdx hslot
  rw [hw.name] at hintact
  obtain ⟨ptr, hlatest⟩ := hintact
  exact ⟨ptr, (hw.issued.own _).trans hlatest⟩

/-- The copies out of slots that a channel issued are behind the copies into them. -/
theorem LocalInv.fetched (hw : WorldInv S Careful w) (hcareful : Careful) (hdistinct : S.Distinct)
    (hx : LocalInv S Careful w e x) {copies : List Copy}
    (hcopied : x.channel.recv.copied = (w.channel e).recv.copied ++ copies)
    (herror : (w.channel e).error = false) {copy : Copy} (hcopy : copy ∈ copies) :
    Staged w.issued copy.slot e.other copy.tag := by
  obtain ⟨j, hj⟩ := List.mem_iff_getElem?.mp hcopy
  have hi : x.channel.recv.copied[(w.channel e).recv.copied.length + j]? = some copy := by
    rw [hcopied, List.getElem?_append_right (Nat.le_add_right ..), Nat.add_sub_cancel_left, hj]
  have hinv := hx.recv.inv.copied
  obtain ⟨-, hremote, frame, hframe, hdevice, hslot⟩ := hinv.outbox _ copy hi
  rw [← hdevice] at hremote
  have hframetag : ((w.half e.other).descriptors.map Prod.fst)[
      (w.channel e).recv.copied.length + j]? = some frame.1 := by
    rw [List.getElem?_map, hframe]
    rfl
  have hcopytag : (x.channel.recv.copied.map Copy.tag)[
      (w.channel e).recv.copied.length + j]? = some copy.tag := by
    rw [List.getElem?_map, hi]
    rfl
  have htag : frame.1 = copy.tag := (hw.frames e).inTurn.agree hinv.inTurn hframetag hcopytag
  have hstaged := hw.honest hcareful hdistinct herror (Nat.le_add_right ..) hframe hremote
  rw [hslot, htag] at hstaged
  exact hstaged

/-- What stays true of the commands when some are issued: it is enough to look at those. -/
theorem IssuedInv.append (h : IssuedInv Careful w) {new : List CudaCommand}
    (hissues : x.context.commands = (w.context (S.home e)).commands ++ new)
    (hbracketed : Guarded Transfer.slot new) (hsized : Sized x.context.commands)
    (hown : ∀ slot : Slot, slot.1.context ≠ S.home e → latest Transfer.target slot new = none)
    (hfetched : Careful → ∀ (k : Nat) stream e' tag ptr slot,
      new[k]? = some (.act stream (.fetch e' tag ptr slot)) →
      Staged (w.issued ++ new.take k) slot e'.other tag)
    (hcopied : ∀ copy ∈ x.channel.recv.copied, copy ∈ (w.channel e).recv.copied
      ∨ ∃ stream, .act stream (copy.transfer e) ∈ new) :
    IssuedInv Careful (w.put S e x) := by
  have hput := World.put_issued w hissues
  refine ⟨?_, ?_, fun slot => ?_, fun hcareful k stream e' tag ptr slot hk => ?_,
    fun e' copy hcopy => ?_⟩
  · rw [hput]
    exact h.bracketed.append hbracketed
  · rw [hput]
    rw [hissues] at hsized
    exact h.sized.append (fun c hc => hsized c (List.mem_append_right _ hc))
  · rw [hput, latest_append, h.own slot]
    by_cases hname : S.home e = slot.1.context
    · rw [World.put_context_self w x hname, hissues, latest_append, hname]
    · rw [World.put_context_ne w x hname, hown slot (Ne.symm hname), Option.none_or]
  · rw [hput] at hk ⊢
    rcases Nat.lt_or_ge k w.issued.length with hold | hnew
    · rw [List.getElem?_append_left hold] at hk
      rw [List.take_append_of_le_length (Nat.le_of_lt hold)]
      exact h.fetched hcareful k stream e' tag ptr slot hk
    · rw [List.getElem?_append_right hnew] at hk
      rw [List.take_append, List.take_of_length_le hnew]
      exact hfetched hcareful _ stream e' tag ptr slot hk
  · rw [hput]
    have hold : copy ∈ (w.channel e').recv.copied →
        ∃ stream, .act stream (copy.transfer e') ∈ w.issued ++ new := fun hmem => by
      obtain ⟨stream, hissued⟩ := h.copied e' copy hmem
      exact ⟨stream, List.mem_append_left _ hissued⟩
    by_cases he : e' = e
    · subst he
      rw [World.put_channel_self] at hcopy
      rcases hcopied copy hcopy with hmem | ⟨stream, hnew⟩
      · exact hold hmem
      · exact ⟨stream, List.mem_append_right _ hnew⟩
    · rw [World.put_channel_ne w x he] at hcopy
      exact hold hcopy

/-- What a task issues keeps the order of the copies on each slot. -/
theorem Issues.issued (hw : WorldInv S Careful w) (hdistinct : Careful → S.Distinct)
    (hx : LocalInv S Careful w e x) (hissues : Issues S w e x) :
    IssuedInv Careful (w.put S e x) := by
  cases hissues with
  | stages new hnew hcommands hcopied =>
      refine hw.issued.append hcommands hnew.bracketed hx.send.inv.sized
        (fun slot hslot => hnew.latest_eq_none hslot) (fun _ k stream e' tag ptr slot hk => ?_)
        (fun copy hcopy => .inl (hcopied ▸ hcopy))
      obtain ⟨_, _, _, _, hno⟩ := hnew.own _ (List.mem_of_getElem? hk) _ rfl
      exact absurd hno (by simp)
  | fetches copies hcommands hcopied herror =>
      refine hw.issued.append hcommands (guarded_fetches ..) hx.send.inv.sized
        (fun slot _ => latest_fetches slot copies) (fun hcareful k stream e' tag ptr slot hk => ?_)
        (fun copy hcopy => ?_)
      · obtain ⟨copy, hcopy, heq⟩ := mem_fetches (List.mem_of_getElem? hk) rfl
        obtain ⟨rfl, rfl, -, rfl⟩ := Transfer.fetch.inj heq
        obtain ⟨ptr', hstaged⟩ := hx.fetched hw hcareful (hdistinct hcareful) hcopied
          (herror (List.ne_nil_of_mem hcopy)) hcopy
        refine ⟨ptr', ?_⟩
        rw [latest_append, latest_take_eq_none (latest_fetches _ copies), Option.none_or]
        exact hstaged
      · rw [hcopied] at hcopy
        exact (List.mem_append.mp hcopy).imp_right (fun hnew => ⟨_, transfer_mem_fetches hnew⟩)

/-- A copy that was made stays made. -/
theorem Issues.copied_le (hissues : Issues S w e x) :
    (w.channel e).recv.copied.length ≤ x.channel.recv.copied.length := by
  cases hissues with
  | stages new hnew hcommands hcopied => exact Nat.le_of_eq (congrArg List.length hcopied).symm
  | fetches copies hcommands hcopied herror =>
      rw [hcopied, List.length_append]
      exact Nat.le_add_right ..

/-- **Composition rule.**  The rest of the world does not mind. -/
theorem LocalInv.put (hw : WorldInv S Careful w) (hdistinct : Careful → S.Distinct)
    (hx : LocalInv S Careful w e x) (hissues : Issues S w e x) :
    WorldInv S Careful (w.put S e x) := by
  have hself : (w.put S e x).half e = x.channel.send := by
    rw [World.put_half, halves_self]
  have hother : ∀ {e'}, e' ≠ e → (w.put S e x).half e' = w.half e' := by
    intro e' he
    rw [World.put_half, halves_ne _ _ he]
  refine ⟨fun name => ?_, fun name => ?_, fun e' => ?_, fun e' => ?_, fun e' => ?_,
    fun hcareful e' => ?_, hissues.issued hw hdistinct hx⟩
  · by_cases hname : S.home e = name
    · rw [World.put_context_self w x hname]
      exact hx.send.inv.home.1.trans hname
    · rw [World.put_context_ne w x hname]
      exact hw.name name
  · by_cases hname : S.home e = name
    · rw [World.put_context_self w x hname, World.put_half]
      exact hx.send.outboxes
    · rw [World.put_context_ne w x hname]
      refine (hw.outboxes name).others (fun e' he => hother ?_)
      rintro rfl
      exact hname (he.trans (hw.name name))
  · by_cases he : e' = e
    · subst he
      rw [hself, World.put_channel_self, World.put_context_self w x rfl]
      exact hx.send.inv
    · rw [hother he, World.put_channel_ne w x he]
      by_cases hname : S.home e = S.home e'
      · rw [World.put_context_self w x hname]
        have hhome := hx.send.inv.home
        rw [hname] at hhome
        refine (hw.send e').context ⟨hhome.1.trans (hw.send e').home.1.symm, ?_⟩
          hx.send.inv.sized
        exact hhome.2.trans (hw.send e').home.2.symm
      · rw [World.put_context_ne w x hname]
        exact hw.send e'
  · by_cases he : e' = e
    · subst he
      rw [hself, World.put_channel_self]
      exact hx.send.cut
    · rw [hother he, World.put_channel_ne w x he]
      exact hw.cut e'
  · by_cases he : e' = e
    · subst he
      rw [World.put_channel_self, World.put_context_self w x rfl, hother (Endpoint.other_ne e')]
      exact hx.recv
    · rw [World.put_channel_ne w x he]
      have hmore : (w.half e'.other).descriptors <+: ((w.put S e x).half e'.other).descriptors := by
        by_cases heo : e'.other = e
        · rw [heo, hself]
          exact hx.descriptors
        · exact (congrArg SendHalf.descriptors (hother heo)).symm ▸ List.prefix_refl _
      have hmono : RecvSide S e' (w.channel e').error ((w.put S e x).half e'.other).descriptors
          (w.context (S.home e'), (w.channel e').recv) :=
        ⟨(hw.recv e').inv.mono hmore, (hw.recv e').cut⟩
      by_cases hname : S.home e = S.home e'
      · rw [World.put_context_self w x hname]
        exact hmono.context hx.recv.inv.remotes
      · rw [World.put_context_ne w x hname]
        exact hmono
  · by_cases he : e' = e
    · subst he
      rw [hself, World.put_channel_ne w x (Endpoint.other_ne e')]
      exact hx.settled hcareful
    · rw [hother he]
      intro k hk
      by_cases heo : e'.other = e
      · rw [heo, World.put_channel_self]
        rcases hw.settled hcareful e' k hk with hlt | herror
        · rw [heo] at hlt
          exact .inl (Nat.lt_of_lt_of_le hlt hissues.copied_le)
        · rw [heo] at herror
          exact .inr (hx.error herror)
      · rw [World.put_channel_ne w x heo]
        exact hw.settled hcareful e' k hk

/-- Before a task an endpoint satisfies its part of the invariant. -/
theorem WorldInv.start (hw : WorldInv S Careful w) (e : Endpoint) :
    LocalInv S Careful w e ⟨w.context (S.home e), w.channel e⟩ := by
  refine ⟨⟨hw.send e, hw.cut e, ?_⟩, hw.recv e, id, List.prefix_refl _,
    fun hcareful => hw.settled hcareful e⟩
  have hsame : halves w.half e (w.channel e).send = w.half := Function.update_eq_self ..
  show Outboxes S (w.context (S.home e)) (halves w.half e (w.channel e).send) (fun _ => [])
  rw [hsame]
  exact hw.outboxes _

-- ── One half at work ─────────────────────────────────────────────────────────

/-- A function of the sending half keeps the endpoint's part of the invariant. -/
theorem LocalInv.onSend (hx : LocalInv S Careful w e x) {f : Bool → Sending → Sending}
    {read : List Nat}
    (hside : SendSide S e x.channel.error w.half (f x.channel.error (x.context, x.channel.send)))
    (hgrown : SendGrown e x.channel.error (x.context, { x.channel.send with repliesRead := read })
      (f x.channel.error (x.context, x.channel.send)))
    (hread : Careful → ∀ k ∈ read,
      k < (w.channel e.other).recv.copied.length ∨ (w.channel e.other).error = true) :
    LocalInv S Careful w e (x.onSend f) := by
  refine ⟨hside, hx.recv.context ?_, hx.error, hx.descriptors.trans hgrown.descriptors,
    fun hcareful k hk => hread hcareful k ?_⟩
  · show Remotes S (f x.channel.error (x.context, x.channel.send)).1
    rw [Remotes, hgrown.remotes]
    exact hx.recv.inv.remotes
  · have hk' : k ∈ (f x.channel.error (x.context, x.channel.send)).2.repliesRead := hk
    rw [hgrown.replies] at hk'
    exact hk'

/-- A function of the sending half adds its copies to what was issued. -/
theorem Still.onSend (h : Still S w e x) (hname : x.context.name = S.home e)
    {f : Bool → Sending → Sending} {half : SendHalf}
    (hgrown : SendGrown e x.channel.error (x.context, half)
      (f x.channel.error (x.context, x.channel.send))) : Issues S w e (x.onSend f) := by
  obtain ⟨new, hnew, hstages, -⟩ := hgrown.commands
  refine .stages new ?_ ?_ h.copied
  · rw [← hname]
    exact hstages
  · rw [← h.commands]
    exact hnew

/-- The sending half was at work. -/
theorem LocalInv.putSend (hw : WorldInv S Careful w) (hdistinct : Careful → S.Distinct)
    (hx : LocalInv S Careful w e x) (hstill : Still S w e x) {f : Bool → Sending → Sending}
    {read : List Nat}
    (hside : SendSide S e x.channel.error w.half (f x.channel.error (x.context, x.channel.send)))
    (hgrown : SendGrown e x.channel.error (x.context, { x.channel.send with repliesRead := read })
      (f x.channel.error (x.context, x.channel.send)))
    (hread : Careful → ∀ k ∈ read,
      k < (w.channel e.other).recv.copied.length ∨ (w.channel e.other).error = true) :
    WorldInv S Careful (w.put S e (x.onSend f)) :=
  (hx.onSend hside hgrown hread).put hw hdistinct (hstill.onSend hx.send.inv.home.1 hgrown)

/-- A function of the receiving half keeps the endpoint's part of the invariant. -/
theorem LocalInv.onRecv (hx : LocalInv S Careful w e x) {f : Bool → Receiving → Receiving}
    {h : RecvHalf}
    (hside : RecvSide S e x.channel.error (w.half e.other).descriptors
      (f x.channel.error (x.context, x.channel.recv)))
    (hsame : RecvSame e x.channel.error (x.context, h)
      (f x.channel.error (x.context, x.channel.recv))) :
    LocalInv S Careful w e (x.onRecv f) := by
  obtain ⟨copies, -, hissued, -⟩ := hsame.commands
  have hcommands : (x.onRecv f).context.commands
      = x.context.commands ++ fetches e x.context.name copies := hissued
  refine ⟨hx.send.context hsame.name hsame.processIdentifier hsame.outboxes hsame.answers
    (fun d slotIdx => ?_) ?_, hside, hx.error, hx.descriptors, hx.settled⟩
  · rw [hcommands, latest_append, latest_fetches, Option.none_or]
  · rw [hcommands]
    exact hx.send.inv.sized.append (sized_fetches _ _ _)

/-- A function of the receiving half adds its copies to what was issued. -/
theorem Still.onRecv (h : Still S w e x) (hx : LocalInv S Careful w e x)
    {f : Bool → Receiving → Receiving} {read : List Nat}
    (hsame : RecvSame e x.channel.error (x.context, { x.channel.recv with descriptorsRead := read })
      (f x.channel.error (x.context, x.channel.recv))) : Issues S w e (x.onRecv f) := by
  obtain ⟨copies, hcopied, hcommands, herror⟩ := hsame.commands
  refine .fetches copies ?_ ?_ (fun hne => ?_)
  · rw [← h.commands, ← hx.send.inv.home.1]
    exact hcommands
  · rw [← h.copied]
    exact hcopied
  · cases hfailed : (w.channel e).error with
    | false => rfl
    | true => exact absurd (herror (hx.error hfailed)) hne

/-- The receiving half was at work. -/
theorem LocalInv.putRecv (hw : WorldInv S Careful w) (hdistinct : Careful → S.Distinct)
    (hx : LocalInv S Careful w e x) (hstill : Still S w e x) {f : Bool → Receiving → Receiving}
    {read : List Nat}
    (hside : RecvSide S e x.channel.error (w.half e.other).descriptors
      (f x.channel.error (x.context, x.channel.recv)))
    (hsame : RecvSame e x.channel.error (x.context, { x.channel.recv with descriptorsRead := read })
      (f x.channel.error (x.context, x.channel.recv))) :
    WorldInv S Careful (w.put S e (x.onRecv f)) :=
  (hx.onRecv hside hsame).put hw hdistinct (hstill.onRecv hx hsame)

/-- Setting the error reads nothing and issues nothing. -/
theorem LocalInv.setError (hw : WorldInv S Careful w) (hx : LocalInv S Careful w e x)
    (hstill : Still S w e x) (error : Bool) :
    LocalInv S Careful w e (x.setError e error) ∧ Still S w e (x.setError e error)
      ∧ (error = true → (x.setError e error).channel.error = true)
      ∧ x.channel.recv.descriptorReads.length
        ≤ (x.setError e error).channel.recv.descriptorReads.length
      ∧ (x.setError e error).channel.recv.descriptorsRead = x.channel.recv.descriptorsRead
      ∧ (x.setError e error).channel.send.repliesRead = x.channel.send.repliesRead := by
  rw [Local.setError]
  split
  · next hskip =>
      refine ⟨hx, hstill, fun herror => ?_, Nat.le_refl _, rfl, rfl⟩
      rw [herror, Bool.not_true, Bool.or_false] at hskip
      exact hskip
  · next hset =>
      have hfalse : x.channel.error = false := by
        cases herror : x.channel.error with
        | false => rfl
        | true =>
            rw [herror, Bool.true_or] at hset
            exact absurd rfl hset
      have hsend := hx.send
      have hrecv := hx.recv
      rw [hfalse] at hsend hrecv
      have hfailed : LocalInv S Careful w e
          { x with channel := { x.channel with error := true } } :=
        ⟨hsend.fail, hrecv.fail, fun _ => rfl, hx.descriptors, hx.settled⟩
      have hgrown : SendGrown e true (x.context, x.channel.send)
          (sendAdvanceAll e true (x.context, x.channel.send)) :=
        sendAdvanceAll_grown (SendGrown.refl ..)
      have hsent := hfailed.onSend (f := sendAdvanceAll e) hsend.fail.advanceAll hgrown hx.settled
      have hsame : ∀ context, RecvSame e true (context, x.channel.recv)
          (recvAdvanceAll e true (context, x.channel.recv)) := fun _ =>
        recvAdvanceAll_same (RecvSame.refl ..)
      have hreceived := hsent.onRecv (f := recvAdvanceAll e)
        (hsent.recv.advanceAll (hw.frames e)) (hsame _)
      refine ⟨hreceived, ⟨?_, ?_⟩, fun _ => rfl, (hsame _).reads, (hsame _).read, hgrown.replies⟩
      · obtain ⟨new, hnew, -, hnone⟩ := hgrown.commands
        obtain ⟨copies, -, hcommands, hempty⟩ :=
          (hsame (sendAdvanceAll e true (x.context, x.channel.send)).1).commands
        refine hcommands.trans ?_
        rw [hempty rfl, hnew, hnone rfl, List.append_nil]
        exact (List.append_nil _).trans hstill.commands
      · obtain ⟨copies, hcopied, -, hempty⟩ :=
          (hsame (sendAdvanceAll e true (x.context, x.channel.send)).1).commands
        refine hcopied.trans ?_
        rw [hempty rfl, List.append_nil]
        exact hstill.copied

/-- A task that enqueued nothing issues nothing. -/
theorem Still.issues (h : Still S w e x) : Issues S w e x :=
  .stages [] (stages_nil ..) (h.commands.trans (List.append_nil _).symm) h.copied

end World

-- ── Events ───────────────────────────────────────────────────────────────────

/-- A sender does not stop to wait for a reply that could still come. -/
def Event.Patient (w : World) : Event → Prop
  | .replyFailed e i => i < (w.channel e.other).recv.copied.length
      ∨ (w.channel e.other).error = true
  | _ => True

section Steps

variable {S : Setup} {Careful : Prop} {w w' : World}

/-- Before a task nothing was enqueued by it. -/
theorem still_start (e : Endpoint) : Still S w e ⟨w.context (S.home e), w.channel e⟩ := ⟨rfl, rfl⟩

/-- Closing an endpoint keeps the invariant. -/
theorem WorldInv.close (hw : WorldInv S Careful w) (hdistinct : Careful → S.Distinct)
    (e : Endpoint) : WorldInv S Careful (w.act S e .close) := by
  obtain ⟨hx, hstill, -⟩ := (hw.start e).setError hw (still_start e) true
  exact hx.put hw hdistinct hstill.issues

/-- Reading a reply keeps the invariant. -/
theorem WorldInv.replyRead (hw : WorldInv S Careful w) (hdistinct : Careful → S.Distinct)
    {e : Endpoint} {n : Nat} {error : Bool}
    (hreply : Careful → n < (w.channel e.other).recv.copied.length
      ∨ (w.channel e.other).error = true) :
    WorldInv S Careful (w.act S e (.replyRead n error)) := by
  obtain ⟨hx, hstill, -, -, -, hread⟩ := (hw.start e).setError hw (still_start e) error
  have hput := hx.putSend hw hdistinct hstill (f := fun error => TpCudaIpc.replyRead e error n)
    (hx.send.replyRead n) (replyRead_grown (_, _)) (fun hcareful k hk => ?_)
  · exact hput
  rcases List.mem_append.mp hk with hold | hnew
  · rw [hread] at hold
    exact hw.settled hcareful e k hold
  · rw [List.mem_singleton.mp hnew]
    exact hreply hcareful

/-- Reading a descriptor keeps the invariant. -/
theorem WorldInv.descriptorRead (hw : WorldInv S Careful w) (hdistinct : Careful → S.Distinct)
    {e : Endpoint} {n : Nat} (hreads : n < (w.channel e).recv.descriptorReads.length)
    (hnew : n ∉ (w.channel e).recv.descriptorsRead) {descriptor : Option Descriptor}
    (hdescriptor : descriptor = none ∨ ∃ frame, (w.half e.other).descriptors[n]? = some frame
      ∧ descriptor = some frame.2) :
    WorldInv S Careful (w.act S e (.descriptorRead n descriptor)) := by
  obtain ⟨hx, hstill, hfailed, hlength, hread, -⟩ :=
    (hw.start e).setError hw (still_start e) descriptor.isNone
  have hput := hx.putRecv hw hdistinct hstill
    (f := fun error => TpCudaIpc.descriptorRead e error n descriptor)
    (hx.recv.descriptorRead (hw.frames e) (Nat.lt_of_lt_of_le hreads hlength) (hread ▸ hnew)
      (fun herror => ?_)) (descriptorRead_same (_, _))
  · exact hput
  rcases hdescriptor with rfl | hframe
  · exact absurd ((hfailed rfl).symm.trans herror) (by decide)
  · exact hframe

/-- An answer of the allocator keeps the invariant. -/
theorem WorldInv.allocated (hw : WorldInv S Careful w) (hdistinct : Careful → S.Distinct)
    {name deviceIdx n : Nat} {e : Endpoint}
    {slotIdx : Option Nat} {before after : List (Nat × Answer Owner)}
    (hanswers : (w.context name).answers = before ++ (deviceIdx, (e, n), slotIdx) :: after) :
    WorldInv S Careful ((w.setContext name
      { w.context name with answers := before ++ after }).act S e
      (.allocated n deviceIdx slotIdx)) := by
  -- the owner is at home here, and was given a slot
  obtain ⟨hands, hout⟩ := hw.outboxes name deviceIdx
  have hmine : ((e, n), slotIdx) ∈ (w.context name).answersOf deviceIdx := by
    rw [ContextImpl.answersOf, hanswers]
    exact List.mem_map.mpr ⟨_, List.mem_filter.mpr
      ⟨List.mem_append_right _ (List.mem_cons_self ..), beq_self_eq_true _⟩, rfl⟩
  obtain ⟨slot, hslot, -⟩ := hout.granted _ hmine
  have hslot' : slotIdx = some slot := hslot
  subst hslot'
  have hhome : S.home e = name :=
    (hout.asking (e, n) (List.mem_append_right _ (List.mem_map.mpr ⟨_, hmine, rfl⟩))).1.trans
      (hw.name name)
  subst hhome
  generalize hcontext : ({ w.context (S.home e) with answers := before ++ after } : ContextImpl)
    = context
  have hstart := hw.start e
  have hsend := SendSide.allocated (s := (context, (w.channel e).send)) hstart.send
    hanswers hcontext.symm
  have hgrown : SendGrown e (w.channel e).error (context, (w.channel e).send)
      (TpCudaIpc.allocated e (w.channel e).error n deviceIdx (some slot)
        (context, (w.channel e).send)) := allocated_grown _
  have hx : LocalInv S Careful w e ((⟨context, w.channel e⟩ : Local).onSend
      (fun error => TpCudaIpc.allocated e error n deviceIdx (some slot))) := by
    refine ⟨hsend, hstart.recv.context ?_, hstart.error, hgrown.descriptors,
      fun hcareful k hk => hw.settled hcareful e k ?_⟩
    · show Remotes S (TpCudaIpc.allocated e (w.channel e).error n deviceIdx (some slot)
        (context, (w.channel e).send)).1
      rw [Remotes, hgrown.remotes, ← hcontext]
      exact hstart.recv.inv.remotes
    · have hk' : k ∈ (TpCudaIpc.allocated e (w.channel e).error n deviceIdx (some slot)
          (context, (w.channel e).send)).2.repliesRead := hk
      rw [hgrown.replies] at hk'
      exact hk'
  have hsame : context.name = S.home e ∧ context.commands = (w.context (S.home e)).commands := by
    rw [← hcontext]
    exact ⟨(hw.send e).home.1, rfl⟩
  have hstill : Still S w e ⟨context, w.channel e⟩ := ⟨hsame.2, rfl⟩
  have hput := hx.put hw hdistinct (hstill.onSend hsame.1 hgrown)
  have hact : (w.setContext (S.home e) context).act S e (.allocated n deviceIdx (some slot))
      = w.put S e ((⟨context, w.channel e⟩ : Local).onSend
        (fun error => TpCudaIpc.allocated e error n deviceIdx (some slot))) := by
    have hlocal : (w.setContext (S.home e) context).context (S.home e) = context :=
      Function.update_self ..
    have hskip : Local.step e ⟨context, (w.setContext (S.home e) context).channel e⟩
        (.allocated n deviceIdx (some slot)) = (⟨context, w.channel e⟩ : Local).onSend
          (fun error => TpCudaIpc.allocated e error n deviceIdx (some slot)) :=
      congrArg (fun x : Local => x.onSend (fun error => TpCudaIpc.allocated e error n deviceIdx
        (some slot))) (if_pos (Bool.or_true _))
    rw [World.act, hlocal, hskip, hsame.2]
    exact congrArg (fun c => World.mk c _ _) (Function.update_idem ..)
  rw [hact]
  exact hput

/-- **Step lemma.** -/
theorem WorldInv.step (hw : WorldInv S Careful w) (hdistinct : Careful → S.Distinct) {event : Event}
    (hpatient : Careful → event.Patient w) (hstep : w.step S event = some w') :
    WorldInv S Careful w' := by
  cases event with
  | send e =>
      obtain rfl := Option.some.inj hstep
      have hstart := hw.start e
      have hput := hstart.putSend hw hdistinct (still_start e)
        (f := fun error => sendFromLoop e error (S.sendBuffer e (w.half e).nextTensorBeingSent)
          (S.length e (w.half e).nextTensorBeingSent))
        hstart.send.send (sendFromLoop_grown (_, _)) (fun hcareful => hw.settled hcareful e)
      exact hput
  | recv e =>
      obtain rfl := Option.some.inj hstep
      have hstart := hw.start e
      have hput := hstart.putRecv hw hdistinct (still_start e)
        (f := fun error => recvFromLoop e error
          (S.recvBuffer e (w.channel e).recv.nextTensorBeingReceived)
          (S.length e.other (w.channel e).recv.nextTensorBeingReceived))
        (hstart.recv.recv (hw.frames e)) (recvFromLoop_same (_, _))
      exact hput
  | close e =>
      obtain rfl := Option.some.inj hstep
      exact hw.close hdistinct e
  | allocated name i =>
      simp only [World.step] at hstep
      split at hstep
      · next deviceIdx e n slotIdx hi =>
          obtain rfl := Option.some.inj hstep
          obtain ⟨hlt, hget⟩ := List.getElem?_eq_some_iff.mp hi
          have hsplit : (w.context name).answers = (w.context name).answers.take i
              ++ (deviceIdx, (e, n), slotIdx) :: (w.context name).answers.drop (i + 1) := by
            rw [← hget, ← List.drop_eq_getElem_cons hlt, List.take_append_drop]
          rw [List.eraseIdx_eq_take_drop_succ]
          exact hw.allocated hdistinct hsplit
      · exact absurd hstep (by simp)
  | descriptorRead e i =>
      simp only [World.step] at hstep
      split at hstep
      · next tag frameTag descriptor htag hframe =>
          split at hstep
          · exact absurd hstep (by simp)
          · next hnew =>
              obtain rfl := Option.some.inj hstep
              have hn : tag.sequenceNumber = i := (hw.recv e).inv.inTurn.number htag
              rw [hn] at hnew ⊢
              exact hw.descriptorRead hdistinct (List.getElem?_eq_some_iff.mp htag).1 hnew
                (.inr ⟨_, hframe, rfl⟩)
      · exact absurd hstep (by simp)
  | descriptorFailed e i =>
      simp only [World.step] at hstep
      split at hstep
      · next tag htag =>
          split at hstep
          · exact absurd hstep (by simp)
          · next hnew =>
              obtain rfl := Option.some.inj hstep
              have hn : tag.sequenceNumber = i := (hw.recv e).inv.inTurn.number htag
              rw [hn] at hnew ⊢
              exact hw.descriptorRead hdistinct (List.getElem?_eq_some_iff.mp htag).1 hnew
                (.inl rfl)
      · exact absurd hstep (by simp)
  | replyRead e i =>
      simp only [World.step] at hstep
      split at hstep
      · next tag reply htag hreply =>
          split at hstep
          · exact absurd hstep (by simp)
          · obtain rfl := Option.some.inj hstep
            have hn : tag.sequenceNumber = i := (hw.send e).written.inTurn.number htag
            refine hw.replyRead hdistinct (fun _ => .inl ?_)
            have hlt := (List.getElem?_eq_some_iff.mp hreply).1
            rw [(hw.recv e.other).inv.copied.replies, List.length_map] at hlt
            rw [hn]
            exact hlt
      · exact absurd hstep (by simp)
  | replyFailed e i =>
      simp only [World.step] at hstep
      split at hstep
      · next tag htag =>
          split at hstep
          · exact absurd hstep (by simp)
          · obtain rfl := Option.some.inj hstep
            have hn : tag.sequenceNumber = i := (hw.send e).written.inTurn.number htag
            refine hw.replyRead hdistinct (fun hcareful => ?_)
            rw [hn]
            exact hpatient hcareful
      · exact absurd hstep (by simp)

end Steps

-- ── Runs ─────────────────────────────────────────────────────────────────────

/-- Runs events one after the other, as far as each can happen. -/
def World.run (S : Setup) : World → List Event → Option World
  | w, [] => some w
  | w, event :: rest => (w.step S event).bind (fun w' => World.run S w' rest)

/-- A run of permitted events leads to a state that can be reached. -/
theorem World.Reachable.run {S : Setup} {permitted : World → Event → Prop} {events : List Event} :
    ∀ {w w' : World}, World.Reachable S permitted w →
      (∀ event ∈ events, ∀ w, permitted w event) → World.run S w events = some w' →
      World.Reachable S permitted w' := by
  induction events with
  | nil =>
      intro w w' h _ hrun
      rw [← Option.some.inj hrun]
      exact h
  | cons event rest ih =>
      intro w w' h hpermitted hrun
      obtain ⟨w₁, hstep, hrest⟩ := Option.bind_eq_some_iff.mp hrun
      exact ih (h.step event (hpermitted event (List.mem_cons_self ..) w) hstep)
        (fun event' hmem => hpermitted event' (List.mem_cons_of_mem _ hmem)) hrest

/-- Two processes, and tensors of two chunks, each with a stream of its own. -/
def twoProcesses : Setup where
  home e := if e.side then 1 else 0
  processIdentifier name := if name = 0 then "first" else "second"
  length _ _ := kSlotSize + 1
  sendBuffer _ n := ⟨0, n, 0⟩
  recvBuffer _ n := ⟨8, n, 0⟩

/-- The reply to the first chunk is read before the second one is copied, and the next tensor
    begins with the slot that came free. -/
def twoTensors : List Event :=
  [.send ⟨0, false⟩, .allocated 0 0, .allocated 0 0, .recv ⟨0, true⟩, .descriptorRead ⟨0, true⟩ 0,
    .replyRead ⟨0, false⟩ 0, .descriptorRead ⟨0, true⟩ 1, .send ⟨0, false⟩, .allocated 0 0,
    .recv ⟨0, true⟩, .descriptorRead ⟨0, true⟩ 2]

/-- The n-th chunk of an end. -/
def chunkTag (n : Nat) : Tag :=
  ⟨n, n / 2, n % 2, if n % 2 = 0 then kSlotSize else 1⟩

/-- The copy of the n-th chunk out of a slot of the outbox of the other process. -/
def chunkCopy (n slotIdx : Nat) : Copy where
  tag := chunkTag n
  remoteDeviceIdx := 0
  received := some (some ⟨"first", ⟨0, 0⟩⟩)
  ptr := 8 + n % 2 * kSlotSize
  stream := n / 2
  slot := (⟨0, 0⟩, slotIdx)

/-- Two chunks into their slots and out again, then a third one by the slot of the first. -/
def issuedTwoTensors : List CudaCommand :=
  let chunk (n slotIdx : Nat) : List CudaCommand := guarded Transfer.slot (0, n / 2)
    (.stage ⟨0, false⟩ (chunkTag n) (n % 2 * kSlotSize) (⟨0, 0⟩, slotIdx))
  let copy (n slotIdx : Nat) : List CudaCommand := guarded Transfer.slot (1, n / 2)
    ((chunkCopy n slotIdx).transfer ⟨0, true⟩)
  chunk 0 0 ++ chunk 1 1 ++ copy 0 0 ++ copy 1 1 ++ chunk 2 0 ++ copy 2 0

/-- Where this run leads. -/
theorem twoTensors_run : ∃ w ∈ World.run twoProcesses (World.init twoProcesses) twoTensors,
    (w.channel ⟨0, false⟩).send.chunkSendOps.map
        (fun op => (op.tag, op.state, op.stagingBuffer))
      = [(chunkTag 1, .READING_REPLY, some 1), (chunkTag 2, .READING_REPLY, some 0),
        (chunkTag 3, .ALLOCATING_STAGING_BUFFER, none)]
    ∧ (∀ op ∈ (w.channel ⟨0, false⟩).send.chunkSendOps, op.chunk.deviceIdx = 0)
    ∧ (w.channel ⟨0, false⟩).send.descriptors
      = [(chunkTag 0, ⟨0, 0, some ⟨"first", ⟨0, 0⟩⟩⟩), (chunkTag 1, ⟨0, 1, none⟩),
        (chunkTag 2, ⟨0, 0, none⟩)]
    ∧ (w.channel ⟨0, false⟩).send.replyReads = [chunkTag 0, chunkTag 1, chunkTag 2]
    ∧ (w.channel ⟨0, false⟩).send.repliesRead = [0]
    ∧ (w.channel ⟨0, true⟩).recv.descriptorReads
      = [chunkTag 0, chunkTag 1, chunkTag 2, chunkTag 3]
    ∧ (w.channel ⟨0, true⟩).recv.replies = [chunkTag 0, chunkTag 1, chunkTag 2]
    ∧ (w.channel ⟨0, true⟩).recv.copied = [chunkCopy 0 0, chunkCopy 1 1, chunkCopy 2 0]
    ∧ w.issued = issuedTwoTensors := by decide +kernel

/-- The state after this run can be reached. -/
theorem reachable_twoTensors {w : World}
    (h : w ∈ World.run twoProcesses (World.init twoProcesses) twoTensors) :
    World.Reachable twoProcesses (fun w event => event.Patient w) w := by
  refine World.Reachable.init.run (fun event hevent w => ?_) h
  simp only [twoTensors, List.mem_cons, List.not_mem_nil, or_false] at hevent
  rcases hevent with rfl | rfl | rfl | rfl | rfl | rfl | rfl | rfl | rfl | rfl | rfl <;> trivial

-- ── All runs ─────────────────────────────────────────────────────────────────

section Runs

variable {S : Setup} {Careful : Prop} {permitted : World → Event → Prop} {w : World}

/-- The invariant holds before the first call. -/
theorem worldInv_init (S : Setup) (Careful : Prop) : WorldInv S Careful (World.init S) := by
  refine ⟨fun _ => rfl, fun name d => ⟨[], ?_⟩, fun e => ?_, fun e _ => rfl, fun e => ?_,
    fun _ e k hk => absurd hk (by simp [World.half, World.init]), ?_⟩
  · have hanswers : ((World.init S).context name).answersOf d = [] := rfl
    refine ⟨rfl, Allocator.held_make _, List.nodup_nil, ?_, ?_, ?_, ?_, ?_, ?_, ?_⟩
    · rw [hanswers]
      exact fun _ ha => absurd ha (by simp)
    · rw [hanswers]
      exact List.nodup_nil
    · rw [hanswers]
      exact fun _ ho => absurd ho (by simp [ContextImpl.allocator, World.init, Allocator.make])
    · exact fun _ ho => absurd ho (by simp [ContextImpl.allocator, World.init, Allocator.make])
    · exact fun e _ op hop => absurd hop (by simp [World.half, World.init])
    · exact fun e _ op hop => absurd hop (by simp [World.half, World.init])
    · exact fun _ hp => absurd hp (by simp)
  · refine ⟨⟨rfl, rfl⟩, fun c hc => absurd hc (by simp [World.init]), trivial, Nat.le_refl _,
      ⟨rfl, inTurn_nil _, introduces_nil _, ?_⟩, ?_, ?_, ?_⟩
    · exact fun d => by simp [World.half, World.init]
    · exact fun op hop => absurd hop (by simp [World.half, World.init])
    · exact fun _ n hn => absurd hn (Nat.not_lt_zero n)
    · exact fun n hn => absurd hn (Nat.not_lt_zero n)
  · refine ⟨⟨?_, trivial, Nat.le_refl _, inTurn_nil _, ?_, ?_, ⟨?_, ?_, ?_, rfl, ?_⟩,
      ⟨inTurn_nil _, rfl, Nat.le_refl _, ?_, ?_⟩⟩, fun _ => rfl⟩
    · exact fun p hp => absurd hp (by simp [World.init])
    · exact fun op hop => absurd hop (by simp [World.init])
    · exact fun _ n hn => absurd hn (Nat.not_lt_zero n)
    · exact fun d info hinfo => absurd hinfo (by simp [World.init])
    · exact fun _ i hi => absurd hi (by simp [World.init])
    · exact fun _ i hi => absurd hi (by simp [World.init])
    · exact fun d row l outbox hrow => absurd hrow (by simp [World.init])
    · exact fun i hi => absurd hi (Nat.not_lt_zero i)
    · exact fun i copy hi => absurd hi (by simp [World.init])
  · exact ⟨.nil, fun c hc => absurd hc (by simp [World.init]), fun slot => rfl,
      fun _ k _ _ _ _ _ hk => absurd hk (by simp [World.init]),
      fun e copy hcopy => absurd hcopy (by simp [World.init])⟩

/-- **Run lemma.** -/
theorem worldInv_of_reachable (hdistinct : Careful → S.Distinct)
    (hpatient : Careful → ∀ w event, permitted w event → event.Patient w)
    (h : World.Reachable S permitted w) : WorldInv S Careful w := by
  induction h with
  | init => exact worldInv_init S Careful
  | step _ event hpermitted hstep ih =>
      exact ih.step hdistinct (fun hcareful => hpatient hcareful _ _ hpermitted) hstep

/-- Every state that can be reached satisfies the invariant without its careful part. -/
theorem worldInv_of_any (h : World.Reachable S permitted w) : WorldInv S False w :=
  worldInv_of_reachable (fun hno => hno.elim) (fun hno => hno.elim) h

/-- **The two ends agree on the chunks.**  The i-th descriptor read of one end and the i-th
    descriptor that the other end wrote are about its i-th chunk, and so are the i-th reply read and
    the i-th reply written, in whatever state the ends are. -/
theorem descriptors_and_replies_agree (h : World.Reachable S permitted w) (e : Endpoint) (i : Nat) :
    (∀ tag frame, (w.channel e).recv.descriptorReads[i]? = some tag →
      (w.channel e.other).send.descriptors[i]? = some frame →
      frame.1 = tag ∧ tag.sequenceNumber = i ∧ tag.IsOf (S.length e.other))
    ∧ ∀ tag tag', (w.channel e).send.replyReads[i]? = some tag →
      (w.channel e.other).recv.replies[i]? = some tag' →
      tag' = tag ∧ tag.sequenceNumber = i ∧ tag.IsOf (S.length e) := by
  have hw := worldInv_of_any h
  constructor
  · intro tag frame htag hframe
    have hread := (hw.recv e).inv.inTurn
    have hframetag : ((w.half e.other).descriptors.map Prod.fst)[i]? = some frame.1 := by
      rw [List.getElem?_map, show (w.half e.other).descriptors[i]? = _ from hframe]
      rfl
    exact ⟨(hw.frames e).inTurn.agree hread hframetag htag, hread.number htag,
      hread.chunks tag (List.mem_of_getElem? htag)⟩
  · intro tag tag' htag htag'
    have hread : InTurn (S.length e) (w.half e).replyReads := (hw.send e).written.inTurn
    have hcopied := (hw.recv e.other).inv.copied
    have hwritten := hcopied.inTurn
    rw [← hcopied.replies, Endpoint.other_other] at hwritten
    exact ⟨hwritten.agree hread htag' htag, hread.number htag,
      hread.chunks tag (List.mem_of_getElem? htag)⟩

theorem descriptors_and_replies_agree_twoTensors : ∃ w frame reply,
    World.Reachable twoProcesses (fun w event => event.Patient w) w
    ∧ (w.channel ⟨0, false⟩).send.descriptors[1]? = some frame ∧ frame.1 = chunkTag 1
    ∧ (chunkTag 1).IsOf (twoProcesses.length ⟨0, false⟩)
    ∧ (w.channel ⟨0, false⟩).send.repliesRead = [0]
    ∧ (w.channel ⟨0, true⟩).recv.replies[0]? = some reply ∧ reply = chunkTag 0 := by
  obtain ⟨w, hrun, -, -, hdescriptors, hreplyReads, hrepliesRead, hreads, hreplies, -, -⟩ :=
    twoTensors_run
  have h := reachable_twoTensors hrun
  have hframe : (w.channel ⟨0, false⟩).send.descriptors[1]?
      = some (chunkTag 1, ⟨0, 1, none⟩) := by rw [hdescriptors]; rfl
  have htag : (w.channel ⟨0, true⟩).recv.descriptorReads[1]? = some (chunkTag 1) := by
    rw [hreads]
    rfl
  have hasked : (w.channel ⟨0, false⟩).send.replyReads[0]? = some (chunkTag 0) := by
    rw [hreplyReads]
    rfl
  have hreply : (w.channel ⟨0, true⟩).recv.replies[0]? = some (chunkTag 0) := by
    rw [hreplies]
    rfl
  obtain ⟨hsame, -, hchunk⟩ := (descriptors_and_replies_agree h ⟨0, true⟩ 1).1 _ _ htag hframe
  obtain ⟨hsame', -⟩ := (descriptors_and_replies_agree h ⟨0, false⟩ 0).2 _ _ hasked hreply
  exact ⟨w, _, _, h, hframe, hsame, hchunk, hrepliesRead, hreply, hsame'⟩

/-- **How to open an outbox is told once, and in time.**  It is in the first descriptor of each
    device and in no other, it is never received twice, and it has been received whenever a chunk is
    copied out of that outbox. -/
theorem outbox_introduced_once_in_time (h : World.Reachable S permitted w) (e : Endpoint) :
    Introduces (S.info e) (w.channel e).send.descriptors ∧ (w.channel e).recv.dchecks = true
    ∧ ∀ (i : Nat) (copy : Copy), (w.channel e).recv.copied[i]? = some copy →
      copy.received = some (some (S.info e.other copy.remoteDeviceIdx))
      ∧ ∃ frame, (w.channel e.other).send.descriptors[i]? = some frame
        ∧ frame.1 = copy.tag ∧ frame.2.deviceIdx = copy.remoteDeviceIdx := by
  have hw := worldInv_of_any h
  have hinv := (hw.recv e).inv
  refine ⟨(hw.send e).written.introduces, hinv.known.dchecks, fun i copy hi => ?_⟩
  obtain ⟨hreceived, -, frame, hframe, hdevice, -⟩ := hinv.copied.outbox i copy hi
  have hframetag : ((w.half e.other).descriptors.map Prod.fst)[i]? = some frame.1 := by
    rw [List.getElem?_map, hframe]
    rfl
  have hcopytag : ((w.channel e).recv.copied.map Copy.tag)[i]? = some copy.tag := by
    rw [List.getElem?_map, hi]
    rfl
  exact ⟨hreceived, frame, hframe,
    (hw.frames e).inTurn.agree hinv.copied.inTurn hframetag hcopytag, hdevice⟩

theorem outbox_introduced_once_in_time_twoTensors : ∃ w frame,
    World.Reachable twoProcesses (fun w event => event.Patient w) w
    ∧ (w.channel ⟨0, true⟩).recv.dchecks = true
    ∧ (w.channel ⟨0, true⟩).recv.copied[1]? = some (chunkCopy 1 1)
    ∧ (w.channel ⟨0, false⟩).send.descriptors[1]? = some frame
    ∧ frame.1 = chunkTag 1 ∧ frame.2.deviceIdx = 0 := by
  obtain ⟨w, hrun, -, -, -, -, -, -, -, hcopied, -⟩ := twoTensors_run
  have h := reachable_twoTensors hrun
  have hcopy : (w.channel ⟨0, true⟩).recv.copied[1]? = some (chunkCopy 1 1) := by
    rw [hcopied]
    rfl
  obtain ⟨-, hdchecks, hcopies⟩ := outbox_introduced_once_in_time h ⟨0, true⟩
  obtain ⟨-, frame, hframe, htag, hdevice⟩ := hcopies 1 _ hcopy
  exact ⟨w, frame, h, hdchecks, hcopy, hframe, htag, hdevice⟩

end Runs

end TpCudaIpc
