import Mathlib.Data.List.Nodup
import Mathlib.Tactic.Common
import Tensorpipe.CudaIpcSendProofs

/-! # The outboxes of a cuda_ipc context

    A slot is in one pair of hands: of an operation, or of an allocation callback that is still
    deferred.  So nobody issues a copy into the slot of a chunk that waits for its reply: the
    latest one that was issued is its own. -/

namespace TpCudaIpc

open TpStateMachine TpAllocator TpEventOrder

-- ── Who asks and who holds ───────────────────────────────────────────────────

/-- The deferred answers about the slots of a device. -/
def ContextImpl.answersOf (x : ContextImpl) (deviceIdx : Nat) : List (Answer Owner) :=
  (x.answers.filter (fun answer => answer.1 == deviceIdx)).map Prod.snd

/-- The allocator of the outbox of a device. -/
def ContextImpl.allocator (x : ContextImpl) (deviceIdx : Nat) : Allocator Owner :=
  (x.outboxes deviceIdx).allocator

/-- The halves of the ends, with one that is at work. -/
def halves (half : Endpoint → SendHalf) (e : Endpoint) (h : SendHalf) : Endpoint → SendHalf :=
  Function.update half e h

/-- The chunk waits for a slot of a device. -/
def Asking (S : Setup) (name : Nat) (half : Endpoint → SendHalf) (deviceIdx : Nat) (o : Owner) :
    Prop :=
  S.home o.1 = name ∧ ∃ op ∈ (half o.1).chunkSendOps, op.sequenceNumber = o.2
    ∧ op.chunk.deviceIdx = deviceIdx ∧ op.state = .ALLOCATING_STAGING_BUFFER
    ∧ op.doneAllocatingStagingBuffer = false

/-- The chunk has asked for a slot. -/
def Asked (half : Endpoint → SendHalf) (o : Owner) : Prop :=
  o.2 < (half o.1).nextChunkBeingSent
    ∧ ∀ op ∈ (half o.1).chunkSendOps, op.sequenceNumber = o.2 → op.state ≠ .UNINITIALIZED

/-- The latest copy into a slot is the one of the chunk with a tag at an end. -/
def Staged (commands : List CudaCommand) (slot : Slot) (e : Endpoint) (tag : Tag) : Prop :=
  ∃ ptr, latest Transfer.target slot commands = some (.stage e tag ptr slot)

/-- The outbox of a device; `hands` are the slots that are out, with those who have them.  The
    `loose` ones are with a callback that runs and will not store them. -/
structure OutboxInv (S : Setup) (x : ContextImpl) (half : Endpoint → SendHalf) (deviceIdx : Nat)
    (loose hands : List (Owner × Nat)) : Prop where
  opened : (x.allocator deviceIdx).closed = false
  held : Allocator.Held (x.allocator deviceIdx) (hands.map Prod.snd)
  unique : (hands.map Prod.fst ++ (x.allocator deviceIdx).pendingAllocations).Nodup
  granted : ∀ answer ∈ x.answersOf deviceIdx, ∃ slotIdx, answer.2 = some slotIdx
    ∧ (answer.1, slotIdx) ∈ hands
  once : ((x.answersOf deviceIdx).map Prod.fst).Nodup
  asking : ∀ o ∈ (x.allocator deviceIdx).pendingAllocations ++ (x.answersOf deviceIdx).map Prod.fst,
    Asking S x.name half deviceIdx o
  asked : ∀ o ∈ hands.map Prod.fst ++ (x.allocator deviceIdx).pendingAllocations,
    S.home o.1 = x.name ∧ Asked half o
  stored : ∀ e, S.home e = x.name → ∀ op ∈ (half e).chunkSendOps, op.chunk.deviceIdx = deviceIdx →
    ∀ slotIdx, op.stagingBuffer = some slotIdx → ((e, op.sequenceNumber), slotIdx) ∈ hands
  intact : ∀ e, S.home e = x.name → ∀ op ∈ (half e).chunkSendOps, op.chunk.deviceIdx = deviceIdx →
    op.state = .READING_REPLY → ∀ slotIdx, op.stagingBuffer = some slotIdx →
    Staged x.commands (⟨x.name, deviceIdx⟩, slotIdx) e op.tag
  carried : ∀ p ∈ loose, p ∈ hands ∧ p.1 ∉ (x.answersOf deviceIdx).map Prod.fst
    ∧ ∀ op ∈ (half p.1.1).chunkSendOps, op.sequenceNumber = p.1.2 → op.stagingBuffer = none

/-- All the outboxes of a context. -/
def Outboxes (S : Setup) (x : ContextImpl) (half : Endpoint → SendHalf)
    (loose : Nat → List (Owner × Nat)) : Prop :=
  ∀ deviceIdx, ∃ hands, OutboxInv S x half deviceIdx (loose deviceIdx) hands

-- ── The allocator answers ────────────────────────────────────────────────────

section Answers

variable {S : Setup} {x : ContextImpl} {half : Endpoint → SendHalf} {deviceIdx : Nat}
  {loose hands : List (Owner × Nat)}

/-- The context with another allocator for a device. -/
def ContextImpl.withAllocator (x : ContextImpl) (deviceIdx : Nat) (a : Allocator Owner) :
    ContextImpl :=
  { x with
    outboxes := Function.update x.outboxes deviceIdx { allocator := a } }

/-- The allocator that was replaced. -/
@[simp] theorem withAllocator_allocator (x : ContextImpl) (deviceIdx : Nat) (a : Allocator Owner) :
    (x.withAllocator deviceIdx a).allocator deviceIdx = a := by
  simp [ContextImpl.withAllocator, ContextImpl.allocator]

/-- The other allocators are as they were. -/
theorem withAllocator_allocator_ne (x : ContextImpl) {deviceIdx d : Nat} (a : Allocator Owner)
    (h : d ≠ deviceIdx) : (x.withAllocator deviceIdx a).allocator d = x.allocator d := by
  simp [ContextImpl.withAllocator, ContextImpl.allocator, h]

/-- What the answers of an allocator do, in one piece. -/
theorem answered_eq (x : ContextImpl) (deviceIdx : Nat)
    (y : Allocator Owner × List (Answer Owner)) :
    x.answered deviceIdx y = { x.withAllocator deviceIdx y.1 with
      answers := x.answers ++ y.2.map (fun answer => (deviceIdx, answer)) } := rfl

/-- The allocator that answered. -/
theorem answered_allocator (x : ContextImpl) (deviceIdx : Nat)
    (y : Allocator Owner × List (Answer Owner)) :
    (x.answered deviceIdx y).allocator deviceIdx = y.1 := withAllocator_allocator ..

/-- The other allocators are as they were. -/
theorem answered_allocator_ne (x : ContextImpl) {deviceIdx d : Nat}
    (y : Allocator Owner × List (Answer Owner)) (h : d ≠ deviceIdx) :
    (x.answered deviceIdx y).allocator d = x.allocator d := withAllocator_allocator_ne x y.1 h

/-- The answers of the outbox follow those before. -/
theorem answered_answersOf (x : ContextImpl) (deviceIdx : Nat)
    (y : Allocator Owner × List (Answer Owner)) :
    (x.answered deviceIdx y).answersOf deviceIdx = x.answersOf deviceIdx ++ y.2 := by
  have hall : (y.2.map (fun answer => (deviceIdx, answer))).filter
      (fun answer => answer.1 == deviceIdx) = y.2.map (fun answer => (deviceIdx, answer)) := by
    refine List.filter_eq_self.mpr (fun p hp => ?_)
    obtain ⟨answer, -, rfl⟩ := List.mem_map.mp hp
    exact beq_self_eq_true deviceIdx
  rw [ContextImpl.answersOf, answered_eq, List.filter_append, hall, List.map_append, List.map_map]
  exact congrArg (x.answersOf deviceIdx ++ ·) (List.map_id _)

/-- The answers of the other outboxes are as they were. -/
theorem answered_answersOf_ne (x : ContextImpl) {deviceIdx d : Nat}
    (y : Allocator Owner × List (Answer Owner)) (h : d ≠ deviceIdx) :
    (x.answered deviceIdx y).answersOf d = x.answersOf d := by
  have hnone : (y.2.map (fun answer => (deviceIdx, answer))).filter
      (fun answer => answer.1 == d) = [] := by
    refine List.filter_eq_nil_iff.mpr (fun p hp heq => ?_)
    obtain ⟨answer, -, rfl⟩ := List.mem_map.mp hp
    exact h (beq_iff_eq.mp heq).symm
  rw [ContextImpl.answersOf, answered_eq, List.filter_append, hnone, List.append_nil]
  rfl

/-- Another device is not concerned. -/
theorem OutboxInv.elsewhere {x' : ContextImpl} (h : OutboxInv S x half deviceIdx loose hands)
    (hname : x'.name = x.name) (hallocator : x'.allocator deviceIdx = x.allocator deviceIdx)
    (hanswers : x'.answersOf deviceIdx = x.answersOf deviceIdx)
    (hcommands : ∀ slotIdx, latest Transfer.target (⟨x.name, deviceIdx⟩, slotIdx) x'.commands
      = latest Transfer.target (⟨x.name, deviceIdx⟩, slotIdx) x.commands) :
    OutboxInv S x' half deviceIdx loose hands := by
  refine ⟨?_, ?_, ?_, ?_, ?_, ?_, ?_, ?_, ?_, ?_⟩
  · rw [hallocator]; exact h.opened
  · rw [hallocator]; exact h.held
  · rw [hallocator]; exact h.unique
  · rw [hanswers]; exact h.granted
  · rw [hanswers]; exact h.once
  · rw [hallocator, hanswers, hname]; exact h.asking
  · rw [hallocator, hname]; exact h.asked
  · rw [hname]; exact h.stored
  · intro e he op hop hd hstate slotIdx hslot
    rw [hname] at he ⊢
    rw [Staged, hcommands]
    exact h.intact e he op hop hd hstate slotIdx hslot
  · rw [hanswers]; exact h.carried

/-- **Answer rule.**  The allocator hands out slots to those who wait, first come, first
    served. -/
theorem OutboxInv.answer (h : OutboxInv S x half deviceIdx loose hands) :
    ∃ hands', OutboxInv S (x.answered deviceIdx (x.allocator deviceIdx).processAllocations) half
      deviceIdx loose hands' := by
  have hclosed := (Allocator.processAllocationsLoop_closed
    (x.allocator deviceIdx).pendingAllocations (x.allocator deviceIdx)).1
  have hslots := (Allocator.processAllocationsLoop_closed
    (x.allocator deviceIdx).pendingAllocations (x.allocator deviceIdx)).2
  have hfifo := Allocator.processAllocationsLoop_fifo
    (x.allocator deviceIdx).pendingAllocations (x.allocator deviceIdx)
  have hheld := Allocator.held_processAllocationsLoop
    (x.allocator deviceIdx).pendingAllocations h.held
  rw [Allocator.processAllocations]
  generalize Allocator.processAllocationsLoop (x.allocator deviceIdx).pendingAllocations
    (x.allocator deviceIdx) = y at hclosed hslots hfifo hheld
  have hsome : ∀ answer ∈ y.2, ∃ slotIdx, answer.2 = some slotIdx := by
    intro answer hanswer
    refine Option.ne_none_iff_exists'.mp (fun hnone => ?_)
    have := (hslots answer hanswer).mp hnone
    rw [h.opened] at this
    exact absurd this Bool.noConfusion
  -- those who were answered now hold
  have hgrants : ∀ answers : List (Answer Owner), (∀ answer ∈ answers, ∃ slotIdx,
      answer.2 = some slotIdx) → ∃ new : List (Owner × Nat), new.map Prod.fst
        = answers.map Prod.fst ∧ new.map Prod.snd = Allocator.granted answers
        ∧ ∀ answer ∈ answers, ∃ slotIdx, answer.2 = some slotIdx ∧ (answer.1, slotIdx) ∈ new := by
    intro answers
    induction answers with
    | nil => exact fun _ => ⟨[], rfl, rfl, fun _ hno => absurd hno (by simp)⟩
    | cons answer rest ih =>
        intro hall
        obtain ⟨slotIdx, hslot⟩ := hall answer (List.mem_cons_self ..)
        obtain ⟨new, hfst, hsnd, hmem⟩ := ih (fun a ha => hall a (List.mem_cons_of_mem _ ha))
        refine ⟨(answer.1, slotIdx) :: new, congrArg (answer.1 :: ·) hfst, ?_, fun a ha => ?_⟩
        · rw [List.map_cons, hsnd, Allocator.granted, Allocator.granted,
            List.filterMap_cons_some hslot]
        · rcases List.mem_cons.mp ha with rfl | hrest
          · exact ⟨slotIdx, hslot, List.mem_cons_self ..⟩
          · obtain ⟨s, hs, hin⟩ := hmem a hrest
            exact ⟨s, hs, List.mem_cons_of_mem _ hin⟩
  obtain ⟨new, hfst, hsnd, hmem⟩ := hgrants y.2 hsome
  have hwaiting : ∀ o ∈ y.2.map Prod.fst, o ∈ (x.allocator deviceIdx).pendingAllocations := by
    intro o ho
    rw [← hfifo]
    exact List.mem_append_left _ ho
  refine ⟨hands ++ new, ?_, ?_, ?_, ?_, ?_, ?_, ?_, ?_, ?_, ?_⟩
  · rw [answered_allocator, hclosed]
    exact h.opened
  · rw [answered_allocator, List.map_append, hsnd]
    exact hheld
  · rw [answered_allocator, List.map_append, hfst, List.append_assoc, hfifo]
    exact h.unique
  · rw [answered_answersOf]
    intro answer hanswer
    rcases List.mem_append.mp hanswer with hold | hnew
    · obtain ⟨slotIdx, hslot, hin⟩ := h.granted answer hold
      exact ⟨slotIdx, hslot, List.mem_append_left _ hin⟩
    · obtain ⟨slotIdx, hslot, hin⟩ := hmem answer hnew
      exact ⟨slotIdx, hslot, List.mem_append_right _ hin⟩
  · rw [answered_answersOf, List.map_append]
    have hpending := (List.nodup_append.mp h.unique).2.1
    rw [← hfifo] at hpending
    refine List.nodup_append.mpr ⟨h.once, (List.nodup_append.mp hpending).1, ?_⟩
    rintro o hold o' hnew rfl
    obtain ⟨answer, hanswer, rfl⟩ := List.mem_map.mp hold
    obtain ⟨slotIdx, -, hin⟩ := h.granted answer hanswer
    exact (List.nodup_append.mp h.unique).2.2 _ (List.mem_map.mpr ⟨_, hin, rfl⟩) _
      (hwaiting _ hnew) rfl
  · rw [answered_allocator, answered_answersOf]
    intro o ho
    refine h.asking o ?_
    rcases List.mem_append.mp ho with hpending | hanswer
    · refine List.mem_append_left _ ?_
      rw [← hfifo]
      exact List.mem_append_right _ hpending
    · rw [List.map_append] at hanswer
      rcases List.mem_append.mp hanswer with hold | hnew
      · exact List.mem_append_right _ hold
      · exact List.mem_append_left _ (hwaiting o hnew)
  · rw [answered_allocator, List.map_append, hfst, List.append_assoc, hfifo]
    exact h.asked
  · intro e he op hop hd slotIdx hslot
    exact List.mem_append_left _ (h.stored e he op hop hd slotIdx hslot)
  · exact h.intact
  · rw [answered_answersOf, List.map_append]
    intro p hp
    obtain ⟨hin, hno, hnone⟩ := h.carried p hp
    refine ⟨List.mem_append_left _ hin, fun hmem => ?_, hnone⟩
    rcases List.mem_append.mp hmem with hold | hnew
    · exact hno hold
    · exact (List.nodup_append.mp h.unique).2.2 _ (List.mem_map.mpr ⟨p, hin, rfl⟩) _
        (hwaiting _ hnew) rfl

/-- Only the last state of an allocator counts. -/
theorem withAllocator_answered (x : ContextImpl) (deviceIdx : Nat) (a : Allocator Owner)
    (y : Allocator Owner × List (Answer Owner)) :
    (x.withAllocator deviceIdx a).answered deviceIdx y = x.answered deviceIdx y := by
  simp [ContextImpl.answered, ContextImpl.withAllocator]

/-- **Request rule.** -/
theorem OutboxInv.request (h : OutboxInv S x half deviceIdx loose hands) {o : Owner}
    (hnew : o ∉ hands.map Prod.fst ++ (x.allocator deviceIdx).pendingAllocations)
    (hasking : Asking S x.name half deviceIdx o) (hasked : Asked half o) :
    ∃ hands', OutboxInv S (x.allocateSlot deviceIdx o) half deviceIdx loose hands' := by
  have hready : OutboxInv S (x.withAllocator deviceIdx { x.allocator deviceIdx with
      pendingAllocations := (x.allocator deviceIdx).pendingAllocations ++ [o] }) half deviceIdx
      loose hands := by
    refine ⟨?_, ?_, ?_, h.granted, h.once, ?_, ?_, h.stored, h.intact, h.carried⟩
    · rw [withAllocator_allocator]
      exact h.opened
    · rw [withAllocator_allocator]
      exact ⟨h.held.nodup, h.held.taken⟩
    · rw [withAllocator_allocator, ← List.append_assoc]
      refine List.nodup_append.mpr ⟨h.unique, List.nodup_singleton _, ?_⟩
      rintro o' ho' o'' ho'' rfl
      rw [List.mem_singleton.mp ho''] at ho'
      exact hnew ho'
    · rw [withAllocator_allocator]
      intro o' ho'
      rcases List.mem_append.mp ho' with hpending | hanswer
      · rcases List.mem_append.mp hpending with hold | hlast
        · exact h.asking o' (List.mem_append_left _ hold)
        · rw [List.mem_singleton.mp hlast]
          exact hasking
      · exact h.asking o' (List.mem_append_right _ hanswer)
    · rw [withAllocator_allocator, ← List.append_assoc]
      intro o' ho'
      rcases List.mem_append.mp ho' with hold | hlast
      · exact h.asked o' hold
      · rw [List.mem_singleton.mp hlast]
        exact ⟨hasking.1, hasked⟩
  have hanswered := hready.answer
  rw [withAllocator_allocator, withAllocator_answered] at hanswered
  exact hanswered

/-- **Return rule.**  The slot goes back from one who has it and uses it no more. -/
theorem OutboxInv.giveBack (h : OutboxInv S x half deviceIdx loose hands) {o : Owner}
    {slotIdx : Nat}
    (hmem : (o, slotIdx) ∈ hands) (hanswer : o ∉ (x.answersOf deviceIdx).map Prod.fst)
    {loose' : List (Owner × Nat)} (hloose : ∀ p ∈ loose', p ∈ loose ∧ p.1 ≠ o)
    (hstored : S.home o.1 = x.name → ∀ op ∈ (half o.1).chunkSendOps, op.sequenceNumber = o.2 →
      op.chunk.deviceIdx = deviceIdx → op.stagingBuffer = none) :
    ∃ hands', OutboxInv S (x.releaseSlot deviceIdx slotIdx) half deviceIdx loose' hands' := by
  have hready : OutboxInv S (x.withAllocator deviceIdx { x.allocator deviceIdx with
      chunkAvailable := (x.allocator deviceIdx).chunkAvailable.set slotIdx true }) half deviceIdx
      loose' (hands.filter (fun p => p.1 != o)) := by
    have hsub : (hands.filter (fun p => p.1 != o)).Sublist hands := List.filter_sublist
    refine ⟨?_, ?_, ?_, ?_, h.once, ?_, ?_, ?_, h.intact, fun p hp => ?_⟩
    · rw [withAllocator_allocator]
      exact h.opened
    · rw [withAllocator_allocator]
      refine ⟨h.held.nodup.sublist (hsub.map _), fun c hc => ?_⟩
      obtain ⟨p, hp, rfl⟩ := List.mem_map.mp hc
      obtain ⟨hin, hne⟩ := List.mem_filter.mp hp
      have hother : slotIdx ≠ p.2 := by
        rintro rfl
        have hsame : p = (o, p.2) := List.inj_on_of_nodup_map h.held.nodup hin hmem rfl
        rw [hsame] at hne
        simp at hne
      show ((x.allocator deviceIdx).chunkAvailable.set slotIdx true)[p.2]? = some false
      rw [List.getElem?_set_ne hother]
      exact h.held.taken _ (List.mem_map.mpr ⟨p, hin, rfl⟩)
    · rw [withAllocator_allocator]
      exact h.unique.sublist (List.Sublist.append (hsub.map _) (List.Sublist.refl _))
    · intro answer ha
      obtain ⟨slot, hslot, hin⟩ := h.granted answer ha
      refine ⟨slot, hslot, List.mem_filter.mpr ⟨hin, ?_⟩⟩
      refine bne_iff_ne.mpr (fun heq => hanswer ?_)
      exact List.mem_map.mpr ⟨answer, ha, heq⟩
    · rw [withAllocator_allocator]
      exact h.asking
    · rw [withAllocator_allocator]
      intro o' ho'
      refine h.asked o' ?_
      rcases List.mem_append.mp ho' with hin | hpending
      · exact List.mem_append_left _ ((hsub.map Prod.fst).mem hin)
      · exact List.mem_append_right _ hpending
    · intro e he op hop hd slot hslot
      refine List.mem_filter.mpr ⟨h.stored e he op hop hd slot hslot, bne_iff_ne.mpr ?_⟩
      rintro rfl
      rw [hstored he op hop rfl hd] at hslot
      exact absurd hslot (by simp)
    · obtain ⟨hp', hne⟩ := hloose p hp
      obtain ⟨hin, hrest⟩ := h.carried p hp'
      exact ⟨List.mem_filter.mpr ⟨hin, bne_iff_ne.mpr hne⟩, hrest⟩
  have hanswered := hready.answer
  rw [withAllocator_allocator, withAllocator_answered] at hanswered
  exact hanswered

end Answers

-- ── The operations move ──────────────────────────────────────────────────────

section Moves

variable {S : Setup} {x : ContextImpl} {half half' : Endpoint → SendHalf} {deviceIdx : Nat}
  {loose hands : List (Owner × Nat)}

/-- The halves change, and nobody who waits, has asked or holds is forgotten. -/
theorem OutboxInv.change (h : OutboxInv S x half deviceIdx loose hands)
    (hasking : ∀ o ∈ (x.allocator deviceIdx).pendingAllocations
      ++ (x.answersOf deviceIdx).map Prod.fst,
      Asking S x.name half deviceIdx o → Asking S x.name half' deviceIdx o)
    (hasked : ∀ o, Asked half o → Asked half' o)
    (hstored : ∀ e, S.home e = x.name → ∀ op ∈ (half' e).chunkSendOps,
      op.chunk.deviceIdx = deviceIdx → ∀ slotIdx, op.stagingBuffer = some slotIdx →
      ((e, op.sequenceNumber), slotIdx) ∈ hands)
    (hintact : ∀ e, S.home e = x.name → ∀ op ∈ (half' e).chunkSendOps,
      op.chunk.deviceIdx = deviceIdx → op.state = .READING_REPLY → ∀ slotIdx,
      op.stagingBuffer = some slotIdx → Staged x.commands (⟨x.name, deviceIdx⟩, slotIdx) e op.tag)
    (hslots : ∀ e, ∀ op ∈ (half' e).chunkSendOps, op.stagingBuffer ≠ none →
      ∃ o ∈ (half e).chunkSendOps, o.sequenceNumber = op.sequenceNumber ∧ o.stagingBuffer ≠ none) :
    OutboxInv S x half' deviceIdx loose hands := by
  refine ⟨h.opened, h.held, h.unique, h.granted, h.once, fun o ho => hasking o ho (h.asking o ho),
    fun o ho => ⟨(h.asked o ho).1, hasked o (h.asked o ho).2⟩, hstored, hintact, fun p hp => ?_⟩
  obtain ⟨hin, hno, hnone⟩ := h.carried p hp
  refine ⟨hin, hno, fun op hop hn => by_contra (fun hsome => ?_)⟩
  obtain ⟨o, ho, hon, hslot⟩ := hslots _ op hop hsome
  exact hslot (hnone o ho (hon.trans hn))

/-- An end in the middle of its work: its half is `h`, and one operation is to be replaced. -/
structure Replaces (half : Endpoint → SendHalf) (e : Endpoint) (pre post : List ChunkSendOperation)
    (op op' : ChunkSendOperation) (half' : Endpoint → SendHalf) : Prop where
  before : (half e).chunkSendOps = pre ++ op :: post
  after : (half' e).chunkSendOps = pre ++ op' :: post
  next : (half' e).nextChunkBeingSent = (half e).nextChunkBeingSent
  numbered : Numbered (half e).nextChunkBeingSent (pre ++ op :: post)
  number : op'.sequenceNumber = op.sequenceNumber
  chunk : op'.chunk = op.chunk
  others : ∀ e', e' ≠ e → half' e' = half e'

variable {e : Endpoint} {pre post : List ChunkSendOperation} {op op' : ChunkSendOperation}

/-- The operation that is replaced. -/
theorem Replaces.mem (h : Replaces half e pre post op op' half') :
    op ∈ (half e).chunkSendOps := by
  rw [h.before]
  exact List.mem_append_right _ (List.mem_cons_self ..)

/-- The operation that takes its place. -/
theorem Replaces.mem' (h : Replaces half e pre post op op' half') :
    op' ∈ (half' e).chunkSendOps := by
  rw [h.after]
  exact List.mem_append_right _ (List.mem_cons_self ..)

/-- Who is in a queue now: the new operation, or one that was there. -/
theorem Replaces.back (h : Replaces half e pre post op op' half') {e' : Endpoint}
    {o : ChunkSendOperation} (ho : o ∈ (half' e').chunkSendOps) :
    (e' = e ∧ o = op') ∨ (o ∈ (half e').chunkSendOps
      ∧ (e' = e → o.sequenceNumber ≠ op.sequenceNumber)) := by
  by_cases he : e' = e
  · subst he
    rw [h.after] at ho
    rcases mem_replaced h.numbered ho with rfl | ⟨hold, hne⟩
    · exact .inl ⟨rfl, rfl⟩
    · rw [← h.before] at hold
      exact .inr ⟨hold, fun _ => hne⟩
  · rw [h.others e' he] at ho
    exact .inr ⟨ho, fun hno => absurd hno he⟩

/-- Who was in a queue: the old operation, or one that is there still. -/
theorem Replaces.forth (h : Replaces half e pre post op op' half') {e' : Endpoint}
    {o : ChunkSendOperation} (ho : o ∈ (half e').chunkSendOps) :
    (e' = e ∧ o = op) ∨ o ∈ (half' e').chunkSendOps := by
  by_cases he : e' = e
  · subst he
    rw [h.before] at ho
    rcases (mem_kept ho : _ = op ∨ _ ∈ pre ++ op' :: post) with rfl | hkept
    · exact .inl ⟨rfl, rfl⟩
    · rw [← h.after] at hkept
      exact .inr hkept
  · rw [h.others e' he]
    exact .inr ho

/-- No chunk is added. -/
theorem Replaces.next_eq (h : Replaces half e pre post op op' half') (e' : Endpoint) :
    (half' e').nextChunkBeingSent = (half e').nextChunkBeingSent := by
  by_cases he : e' = e
  · rw [he, h.next]
  · rw [h.others e' he]

/-- Who had asked for a slot has asked for it. -/
theorem Replaces.asked (h : Replaces half e pre post op op' half')
    (hstate : op'.state ≠ .UNINITIALIZED) {o : Owner} (ho : Asked half o) : Asked half' o := by
  refine ⟨(h.next_eq o.1).symm ▸ ho.1, fun q hq hn => ?_⟩
  rcases h.back hq with ⟨-, rfl⟩ | ⟨hold, -⟩
  · exact hstate
  · exact ho.2 q hold hn

/-- No operation gets a slot. -/
theorem Replaces.slots (h : Replaces half e pre post op op' half')
    (hslot : op'.stagingBuffer = none ∨ op'.stagingBuffer = op.stagingBuffer) (e' : Endpoint) :
    ∀ q ∈ (half' e').chunkSendOps, q.stagingBuffer ≠ none →
      ∃ o ∈ (half e').chunkSendOps, o.sequenceNumber = q.sequenceNumber
        ∧ o.stagingBuffer ≠ none := by
  intro q hq hsome
  rcases h.back hq with ⟨rfl, rfl⟩ | ⟨hold, -⟩
  · rcases hslot with hnone | hsame
    · exact absurd hnone hsome
    · exact ⟨op, h.mem, h.number.symm, hsame ▸ hsome⟩
  · exact ⟨q, hold, rfl, hsome⟩

/-- Who waits is another operation, or the one that goes on waiting. -/
theorem Replaces.asking (h : Replaces half e pre post op op' half')
    (hwaits : (op.state = .ALLOCATING_STAGING_BUFFER ∧ op.doneAllocatingStagingBuffer = false) →
      op'.state = .ALLOCATING_STAGING_BUFFER ∧ op'.doneAllocatingStagingBuffer = false)
    {name d : Nat} {o : Owner} (ho : Asking S name half d o) : Asking S name half' d o := by
  obtain ⟨hhome, q, hq, hn, hd, hstate, hdone⟩ := ho
  refine ⟨hhome, ?_⟩
  rcases h.forth hq with ⟨he, rfl⟩ | hkept
  · obtain ⟨hstate', hdone'⟩ := hwaits ⟨hstate, hdone⟩
    refine ⟨op', ?_, h.number.trans hn, ?_, hstate', hdone'⟩
    · rw [he]
      exact h.mem'
    · rw [h.chunk]
      exact hd
  · exact ⟨q, hkept, hn, hd, hstate, hdone⟩

/-- An operation that goes on, and does not get a slot or begin to await a reply. -/
theorem OutboxInv.move (h : OutboxInv S x half deviceIdx loose hands)
    (hr : Replaces half e pre post op op' half') (hstate : op'.state ≠ .UNINITIALIZED)
    (hwaits : (op.state = .ALLOCATING_STAGING_BUFFER ∧ op.doneAllocatingStagingBuffer = false) →
      op'.state = .ALLOCATING_STAGING_BUFFER ∧ op'.doneAllocatingStagingBuffer = false)
    (hslot : op'.stagingBuffer = none ∨ op'.stagingBuffer = op.stagingBuffer)
    (hreply : op'.state ≠ .READING_REPLY) : OutboxInv S x half' deviceIdx loose hands := by
  refine h.change (fun o _ ho => hr.asking hwaits ho) (fun o ho => hr.asked hstate ho) ?_ ?_
    (hr.slots hslot)
  · intro e' he o ho hd slotIdx hs
    rcases hr.back ho with ⟨rfl, rfl⟩ | ⟨hold, -⟩
    · rcases hslot with hnone | hsame
      · rw [hnone] at hs
        exact absurd hs (by simp)
      · rw [hr.number]
        rw [hsame] at hs
        rw [hr.chunk] at hd
        exact h.stored e' he op hr.mem hd slotIdx hs
    · exact h.stored e' he o hold hd slotIdx hs
  · intro e' he o ho hd hst slotIdx hs
    rcases hr.back ho with ⟨rfl, rfl⟩ | ⟨hold, -⟩
    · exact absurd hst hreply
    · exact h.intact e' he o hold hd hst slotIdx hs

/-- The copy of a chunk into its slot is issued; the slot is in no other hands. -/
theorem OutboxInv.stage (h : OutboxInv S x half deviceIdx loose hands)
    (hr : Replaces half e pre post op op' half') (hhome : S.home e = x.name)
    (hdone : op.doneAllocatingStagingBuffer = true) (hstate' : op'.state = .READING_REPLY)
    (hsame : op'.stagingBuffer = op.stagingBuffer) {slotIdx : Nat}
    (hslot : op.stagingBuffer = some slotIdx) :
    OutboxInv S (x.issue op.chunk.stream (op.transfer e x slotIdx)) half' deviceIdx loose
      hands := by
  have hopen : op'.state ≠ .UNINITIALIZED := by
    rw [hstate']
    exact SendState.noConfusion
  have htag : op'.tag = op.tag := by
    rw [ChunkSendOperation.tag, ChunkSendOperation.tag, hr.chunk, hr.number]
  have hlatest : ∀ slot : Slot, latest Transfer.target slot
      (x.issue op.chunk.stream (op.transfer e x slotIdx)).commands
      = if (⟨x.name, op.chunk.deviceIdx⟩, slotIdx) = slot then some (op.transfer e x slotIdx)
        else latest Transfer.target slot x.commands := by
    intro slot
    have htarget : (op.transfer e x slotIdx).target
        = some (⟨x.name, op.chunk.deviceIdx⟩, slotIdx) := rfl
    rw [ContextImpl.issue, latest_append, latest_guarded, htarget]
    simp only [Option.some.injEq]
    split <;> rfl
  refine ⟨h.opened, h.held, h.unique, h.granted, h.once, fun o ho => ?_,
    fun o ho => ⟨(h.asked o ho).1, hr.asked hopen (h.asked o ho).2⟩, ?_, ?_, fun p hp => ?_⟩
  · refine hr.asking (fun hno => ?_) (h.asking o ho)
    exact absurd (hdone.symm.trans hno.2) (by decide)
  · intro e' he o ho hd slot hs
    rcases hr.back ho with ⟨rfl, rfl⟩ | ⟨hold, -⟩
    · rw [hr.number]
      rw [hsame] at hs
      rw [hr.chunk] at hd
      exact h.stored e' he op hr.mem hd slot hs
    · exact h.stored e' he o hold hd slot hs
  · intro e' he o ho hd hst slot hs
    show ∃ ptr, latest Transfer.target (⟨x.name, deviceIdx⟩, slot) _
      = some (.stage e' o.tag ptr (⟨x.name, deviceIdx⟩, slot))
    rw [hlatest]
    rcases hr.back ho with ⟨rfl, rfl⟩ | ⟨hold, hother⟩
    · rw [hsame, hslot] at hs
      obtain rfl := Option.some.inj hs
      rw [hr.chunk] at hd
      rw [hd, if_pos rfl, htag]
      exact ⟨op.chunk.ptr, by rw [ChunkSendOperation.transfer, hd]⟩
    · rw [if_neg]
      · exact h.intact e' he o hold hd hst slot hs
      · -- the other one would have to hold the same slot
        intro hsl
        obtain ⟨hhandle, rfl⟩ := Prod.mk.inj hsl
        have hdevice : op.chunk.deviceIdx = deviceIdx := (MemHandle.mk.inj hhandle).2
        have hmine := h.stored e hhome op hr.mem hdevice slotIdx hslot
        have hpair := List.inj_on_of_nodup_map h.held.nodup (h.stored e' he o hold hd slotIdx hs)
          hmine rfl
        obtain ⟨hee, hnn⟩ := Prod.mk.inj (Prod.mk.inj hpair).1
        exact hother hee hnn
  · obtain ⟨hin, hno, hnone⟩ := h.carried p hp
    refine ⟨hin, hno, fun o ho hn => by_contra (fun hsome => ?_)⟩
    obtain ⟨o', ho', hon, hslot'⟩ := hr.slots (.inr hsame) _ o ho hsome
    exact hslot' (hnone o' ho' (hon.trans hn))

/-- The operation of a number is the only one. -/
theorem Replaces.only (h : Replaces half e pre post op op' half') {o : ChunkSendOperation}
    (ho : o ∈ (half e).chunkSendOps) (hn : o.sequenceNumber = op.sequenceNumber) : o = op := by
  rw [h.before] at ho
  rcases List.mem_append.mp ho with hpre | hmid
  · exact absurd hn (numbered_ne h.numbered (.inl hpre))
  · rcases List.mem_cons.mp hmid with rfl | hpost
    · rfl
    · exact absurd hn (numbered_ne h.numbered (.inr hpost))

/-- An operation that does not wait for a slot has no answer outstanding. -/
theorem OutboxInv.no_answer (h : OutboxInv S x half deviceIdx loose hands)
    (hr : Replaces half e pre post op op' half')
    (hwaits : op.state ≠ .ALLOCATING_STAGING_BUFFER ∨ op.doneAllocatingStagingBuffer = true) :
    (e, op.sequenceNumber) ∉ (x.answersOf deviceIdx).map Prod.fst := by
  intro hmem
  obtain ⟨-, o, ho, hn, -, hstate, hdone⟩ := h.asking _ (List.mem_append_right _ hmem)
  obtain rfl := hr.only ho hn
  rcases hwaits with hno | hyes
  · exact hno hstate
  · exact absurd (hyes.symm.trans hdone) (by decide)

/-- The slot of an operation goes back. -/
theorem OutboxInv.release (h : OutboxInv S x half deviceIdx loose hands)
    (hr : Replaces half e pre post op op' half') (hhome : S.home e = x.name)
    (hwaits : op.state ≠ .ALLOCATING_STAGING_BUFFER ∨ op.doneAllocatingStagingBuffer = true)
    (hstate' : op'.state = .FINISHED) (hnone : op'.stagingBuffer = none) :
    ∃ hands', OutboxInv S (x.released op) half' deviceIdx loose hands' := by
  have hmoved : OutboxInv S x half' deviceIdx loose hands := by
    refine h.move hr ?_ (fun hasks => ?_) (.inl hnone) ?_
    · rw [hstate']
      exact SendState.noConfusion
    · rcases hwaits with hno | hyes
      · exact absurd hasks.1 hno
      · exact absurd (hyes.symm.trans hasks.2) (by decide)
    · rw [hstate']
      exact SendState.noConfusion
  rw [ContextImpl.released]
  cases hslot : op.stagingBuffer with
  | none => exact ⟨hands, hmoved⟩
  | some slotIdx =>
      by_cases hd : op.chunk.deviceIdx = deviceIdx
      · subst hd
        refine hmoved.giveBack (h.stored e hhome op hr.mem rfl slotIdx hslot)
          (h.no_answer hr hwaits) (fun p hp => ⟨hp, ?_⟩) (fun _ o ho hn _ => ?_)
        · intro heq
          have hno := (h.carried p hp).2.2
          rw [heq] at hno
          exact absurd (hslot.symm.trans (hno op hr.mem rfl)) (by simp)
        · rcases hr.back ho with ⟨-, rfl⟩ | ⟨-, hne⟩
          · exact hnone
          · exact absurd hn (hne rfl)
      · exact ⟨hands, hmoved.elsewhere rfl (answered_allocator_ne x _ (Ne.symm hd))
          (answered_answersOf_ne x _ (Ne.symm hd)) (fun _ => rfl)⟩

end Moves

-- ── A sending half at work ───────────────────────────────────────────────────

/-- A sending half at work, with the outboxes of its context. -/
structure Working (S : Setup) (e : Endpoint) (error : Bool) (half : Endpoint → SendHalf)
    (loose : Nat → List (Owner × Nat)) (chunks tensors : Nat) (s : Sending) : Prop where
  inv : SendInv S e error s
  counts : Counts chunks tensors s
  outboxes : Outboxes S s.1 (halves half e s.2) loose

section Working

variable {S : Setup} {e : Endpoint} {error : Bool} {half : Endpoint → SendHalf}
  {loose : Nat → List (Owner × Nat)} {chunks tensors : Nat}

/-- The half of the endpoint is the new one. -/
theorem halves_self (half : Endpoint → SendHalf) (e : Endpoint) (h : SendHalf) :
    halves half e h e = h := Function.update_self ..

/-- The other halves are as they were. -/
theorem halves_ne (half : Endpoint → SendHalf) {e e' : Endpoint} (h : SendHalf) (he : e' ≠ e) :
    halves half e h e' = half e' := Function.update_of_ne he ..

/-- A move keeps the chunk and its number. -/
theorem SendFires.same {self : Endpoint} {prev : SendState} {s y : Sending}
    {op op' : ChunkSendOperation} (h : SendFires self error prev s op y op') :
    op'.sequenceNumber = op.sequenceNumber ∧ op'.chunk = op.chunk := by
  cases h <;> exact ⟨rfl, rfl⟩

/-- A move replaces one operation of its half. -/
theorem replaces_of_fires {s y : Sending} {pre post : List ChunkSendOperation}
    {op op' : ChunkSendOperation} {prev : SendState}
    (hnum : Numbered s.2.nextChunkBeingSent (pre ++ op :: post))
    (h : SendFires e error prev s op y op') :
    Replaces (halves half e (s.2.withOps (pre ++ op :: post))) e pre post op op'
      (halves half e (y.2.withOps (pre ++ op' :: post))) where
  before := by rw [halves_self]; rfl
  after := by rw [halves_self]; rfl
  next := by rw [halves_self, halves_self]; exact h.counts.1
  numbered := by rw [halves_self]; exact hnum
  number := h.same.1
  chunk := h.same.2
  others := fun e' he => by rw [halves_ne _ _ he, halves_ne _ _ he]

/-- **Step lemma**: what a transition does to the outboxes. -/
theorem Outboxes.fire {s y : Sending} {pre post : List ChunkSendOperation}
    {op op' : ChunkSendOperation}
    (hinv : SendInv S e error (s.1, s.2.withOps (pre ++ op :: post)))
    (h : Outboxes S s.1 (halves half e (s.2.withOps (pre ++ op :: post))) loose)
    (hfire : SendFires e error (lastState .FINISHED pre) s op y op') :
    Outboxes S y.1 (halves half e (y.2.withOps (pre ++ op' :: post))) loose := by
  have hnum : Numbered s.2.nextChunkBeingSent (pre ++ op :: post) := hinv.numbered
  have hr : Replaces (halves half e (s.2.withOps (pre ++ op :: post))) e pre post op op'
      (halves half e (y.2.withOps (pre ++ op' :: post))) := replaces_of_fires hnum hfire
  have hhome : S.home e = s.1.name := hinv.home.1.symm
  have hok : SendOk S e error s.2 op :=
    (hinv.ops op (List.mem_append_right _ (List.mem_cons_self ..))).frame rfl rfl rfl
  intro deviceIdx
  obtain ⟨hands, hout⟩ := h deviceIdx
  cases hfire with
  | skip herror hprev hstate =>
      refine ⟨hands, hout.move hr SendState.noConfusion (fun hno => ?_) (.inr rfl)
        SendState.noConfusion⟩
      exact absurd (hstate.symm.trans hno.1) (by decide)
  | ask herror hprev hstate =>
      have hmoved := hout.move hr SendState.noConfusion
        (fun hno => absurd (hstate.symm.trans hno.1) (by decide)) (.inr rfl) SendState.noConfusion
      by_cases hd : deviceIdx = op.chunk.deviceIdx
      · subst hd
        refine hmoved.request (fun hold => ?_)
          ⟨hhome, _, hr.mem', rfl, rfl, rfl, hok.asked hstate⟩ ?_
        · exact (hout.asked _ hold).2.2 op hr.mem rfl hstate
        · constructor
          · show op.sequenceNumber < (halves half e _ e).nextChunkBeingSent
            rw [halves_self]
            have hmid : op.sequenceNumber + post.length + 1 = s.2.nextChunkBeingSent :=
              numbered_mid hinv.numbered
            show op.sequenceNumber < s.2.nextChunkBeingSent
            omega
          · intro o ho hn
            rcases hr.back ho with ⟨-, rfl⟩ | ⟨-, hne⟩
            · exact SendState.noConfusion
            · exact absurd hn (hne rfl)
      · exact ⟨hands, hmoved.elsewhere rfl (answered_allocator_ne _ _ hd)
          (answered_answersOf_ne _ _ hd) (fun _ => rfl)⟩
  | drop herror hprev hstate hdone =>
      exact hout.release hr hhome (.inr hdone) rfl rfl
  | settle hprev hstate hdone =>
      refine hout.release hr hhome (.inl ?_) rfl rfl
      rw [hstate]
      exact SendState.noConfusion
  | stage slotIdx herror hprev hstate hdone hslot =>
      exact ⟨hands, hout.stage hr hhome hdone rfl rfl hslot⟩

/-- What holds while the sending half works is kept by its operations. -/
theorem workingRule :
    SendRule e error (Working S e error half loose chunks tensors) where
  numbered := fun s hinv => (sendRule S e error).numbered s hinv.inv
  granted := fun s hinv => (sendRule S e error).granted s hinv.inv
  fire := by
    intro s pre op post y op' hinv hfire
    have hout : Outboxes S y.1 (halves half e (y.2.withOps (pre ++ op' :: post))) loose :=
      hinv.outboxes.fire hinv.inv hfire
    exact ⟨hinv.inv.fire hfire,
      ⟨hfire.counts.1.trans hinv.counts.1, hfire.counts.2.trans hinv.counts.2⟩, hout⟩
  pop := by
    intro s op rest hinv hfin
    refine ⟨(sendRule S e error).pop s op rest hinv.inv hfin, hinv.counts, fun deviceIdx => ?_⟩
    obtain ⟨hands, hout⟩ := hinv.outboxes deviceIdx
    have hback : ∀ e' o, o ∈ (halves half e (s.2.withOps rest) e').chunkSendOps →
        o ∈ (halves half e (s.2.withOps (op :: rest)) e').chunkSendOps := by
      intro e' o ho
      by_cases he : e' = e
      · subst he
        rw [halves_self] at ho ⊢
        exact List.mem_cons_of_mem _ ho
      · rw [halves_ne _ _ he] at ho ⊢
        exact ho
    have hnext : ∀ e', (halves half e (s.2.withOps rest) e').nextChunkBeingSent
        = (halves half e (s.2.withOps (op :: rest)) e').nextChunkBeingSent := by
      intro e'
      by_cases he : e' = e
      · subst he
        rw [halves_self, halves_self]
        rfl
      · rw [halves_ne _ _ he, halves_ne _ _ he]
    refine ⟨hands, hout.change ?_ ?_ (fun e' he o ho => hout.stored e' he o (hback e' o ho)) ?_
      (fun e' o ho hsome => ⟨o, hback e' o ho, rfl, hsome⟩)⟩
    · rintro ⟨e', n⟩ - ⟨hhome, o, ho, hn, hd, hstate, hdone⟩
      refine ⟨hhome, o, ?_, hn, hd, hstate, hdone⟩
      by_cases he : e' = e
      · subst he
        rw [halves_self] at ho ⊢
        rcases List.mem_cons.mp ho with rfl | hrest
        · exact absurd (hfin.symm.trans hstate) (by decide)
        · exact hrest
      · rw [halves_ne _ _ he] at ho ⊢
        exact ho
    · rintro ⟨e', n⟩ hasked
      exact ⟨(hnext e').symm ▸ hasked.1, fun o ho => hasked.2 o (hback e' o ho)⟩
    · intro e' he o ho hd hst slot hs
      exact hout.intact e' he o (hback e' o ho) hd hst slot hs

/-- The half changes in what the outboxes do not see. -/
theorem Outboxes.same {x : ContextImpl} {h h' : SendHalf}
    (hout : Outboxes S x (halves half e h) loose)
    (hops : h'.chunkSendOps = h.chunkSendOps)
    (hnext : h'.nextChunkBeingSent = h.nextChunkBeingSent) :
    Outboxes S x (halves half e h') loose := by
  have hsame : ∀ e', (halves half e h' e').chunkSendOps = (halves half e h e').chunkSendOps
      ∧ (halves half e h' e').nextChunkBeingSent = (halves half e h e').nextChunkBeingSent := by
    intro e'
    by_cases he : e' = e
    · subst he
      rw [halves_self, halves_self]
      exact ⟨hops, hnext⟩
    · rw [halves_ne _ _ he, halves_ne _ _ he]
      exact ⟨rfl, rfl⟩
  intro deviceIdx
  obtain ⟨hands, hinv⟩ := hout deviceIdx
  refine ⟨hands, hinv.change ?_ ?_ ?_ ?_ ?_⟩
  · rintro o - ⟨hhome, op, hop, hrest⟩
    exact ⟨hhome, op, (hsame o.1).1.symm ▸ hop, hrest⟩
  · intro o ho
    refine ⟨(hsame o.1).2.symm ▸ ho.1, ?_⟩
    rw [(hsame o.1).1]
    exact ho.2
  · intro e' he
    rw [(hsame e').1]
    exact hinv.stored e' he
  · intro e' he
    rw [(hsame e').1]
    exact hinv.intact e' he
  · intro e' op hop hsome
    rw [(hsame e').1] at hop
    exact ⟨op, hop, rfl, hsome⟩

/-- The operation of the next chunk is stored. -/
theorem Outboxes.push {x : ContextImpl} {h : SendHalf} {chunk : Chunk} {callback : Bool}
    (hout : Outboxes S x (halves half e h) loose) :
    Outboxes S x (halves half e { h with
      nextChunkBeingSent := h.nextChunkBeingSent + 1
      chunkSendOps := h.chunkSendOps
        ++ [{ sequenceNumber := h.nextChunkBeingSent, chunk, callback }] }) loose := by
  intro deviceIdx
  obtain ⟨hands, hinv⟩ := hout deviceIdx
  have hcases : ∀ e' op, op ∈ (halves half e { h with
      nextChunkBeingSent := h.nextChunkBeingSent + 1
      chunkSendOps := h.chunkSendOps
        ++ [{ sequenceNumber := h.nextChunkBeingSent, chunk, callback }] } e').chunkSendOps →
      op ∈ (halves half e h e').chunkSendOps ∨ (e' = e ∧ op.sequenceNumber = h.nextChunkBeingSent
        ∧ op.state = .UNINITIALIZED ∧ op.stagingBuffer = none) := by
    intro e' op hop
    by_cases he : e' = e
    · subst he
      rw [halves_self] at hop ⊢
      rcases List.mem_append.mp hop with hold | hnew
      · exact .inl hold
      · rw [List.mem_singleton.mp hnew]
        exact .inr ⟨rfl, rfl, rfl, rfl⟩
    · rw [halves_ne _ _ he] at hop ⊢
      exact .inl hop
  refine ⟨hands, hinv.change ?_ ?_ ?_ ?_ ?_⟩
  · rintro ⟨e', n⟩ - ⟨hhome, op, hop, hrest⟩
    refine ⟨hhome, op, ?_, hrest⟩
    by_cases he : e' = e
    · subst he
      rw [halves_self] at hop ⊢
      exact List.mem_append_left _ hop
    · rw [halves_ne _ _ he] at hop ⊢
      exact hop
  · rintro ⟨e', n⟩ ⟨hlt, hstates⟩
    constructor
    · by_cases he : e' = e
      · subst he
        rw [halves_self] at hlt ⊢
        exact Nat.lt_succ_of_lt hlt
      · rw [halves_ne _ _ he] at hlt ⊢
        exact hlt
    · intro op hop hn
      rcases hcases e' op hop with hold | ⟨rfl, hseq, -, -⟩
      · exact hstates op hold hn
      · rw [halves_self] at hlt
        exact absurd (hn.symm.trans hseq) (Nat.ne_of_lt hlt)
  · intro e' he op hop hd slotIdx hslot
    rcases hcases e' op hop with hold | ⟨-, -, -, hnone⟩
    · exact hinv.stored e' he op hold hd slotIdx hslot
    · exact absurd (hnone.symm.trans hslot) (by simp)
  · intro e' he op hop hd hstate slotIdx hslot
    rcases hcases e' op hop with hold | ⟨-, -, -, hnone⟩
    · exact hinv.intact e' he op hold hd hstate slotIdx hslot
    · exact absurd (hnone.symm.trans hslot) (by simp)
  · intro e' op hop hsome
    rcases hcases e' op hop with hold | ⟨-, -, -, hnone⟩
    · exact ⟨op, hold, rfl, hsome⟩
    · exact absurd hnone hsome

end Working

-- ── Deliveries ───────────────────────────────────────────────────────────────

section Deliveries

variable {S : Setup} {e : Endpoint} {half : Endpoint → SendHalf} {x x' : ContextImpl}
  {h : SendHalf} {n : Nat} {f : ChunkSendOperation → ChunkSendOperation}

/-- Telling an operation something makes no chunks. -/
theorem modified_next (e' : Endpoint) :
    (halves half e (h.withOps (modifyOperation n f h.chunkSendOps)) e').nextChunkBeingSent
      = (halves half e h e').nextChunkBeingSent := by
  by_cases he : e' = e
  · subst he
    rw [halves_self, halves_self]
    rfl
  · rw [halves_ne _ _ he, halves_ne _ _ he]

/-- An operation is told something that is not about its slot. -/
theorem Outboxes.tell {loose : Nat → List (Owner × Nat)}
    (hout : Outboxes S x (halves half e h) loose)
    (hseq : ∀ op, (f op).sequenceNumber = op.sequenceNumber)
    (hstate : ∀ op, (f op).state = op.state)
    (hchunk : ∀ op, (f op).chunk = op.chunk)
    (hslot : ∀ op, (f op).stagingBuffer = op.stagingBuffer)
    (hdone : ∀ op, (f op).doneAllocatingStagingBuffer = op.doneAllocatingStagingBuffer) :
    Outboxes S x (halves half e (h.withOps (modifyOperation n f h.chunkSendOps))) loose := by
  have hback : ∀ e' op, op ∈ (halves half e (h.withOps (modifyOperation n f h.chunkSendOps))
      e').chunkSendOps → ∃ o ∈ (halves half e h e').chunkSendOps,
      o.sequenceNumber = op.sequenceNumber ∧ o.state = op.state ∧ o.chunk = op.chunk
        ∧ o.stagingBuffer = op.stagingBuffer := by
    intro e' op hop
    by_cases he : e' = e
    · subst he
      rw [halves_self] at hop ⊢
      rcases mem_modify hop with ⟨o, ho, -, rfl⟩ | ⟨hold, -⟩
      · exact ⟨o, ho, (hseq o).symm, (hstate o).symm, (hchunk o).symm, (hslot o).symm⟩
      · exact ⟨op, hold, rfl, rfl, rfl, rfl⟩
    · rw [halves_ne _ _ he] at hop ⊢
      exact ⟨op, hop, rfl, rfl, rfl, rfl⟩
  intro deviceIdx
  obtain ⟨hands, hinv⟩ := hout deviceIdx
  refine ⟨hands, hinv.change ?_ ?_ ?_ ?_ ?_⟩
  · rintro ⟨e', m⟩ - ⟨hhome, op, hop, hn, hd, hst, hdn⟩
    refine ⟨hhome, ?_⟩
    by_cases he : e' = e
    · subst he
      rw [halves_self] at hop ⊢
      rcases modify_mem (n := n) (f := f) hop with ⟨-, hnew⟩ | ⟨-, hkept⟩
      · exact ⟨f op, hnew, (hseq op).trans hn, (hchunk op).symm ▸ hd, (hstate op).trans hst,
          (hdone op).trans hdn⟩
      · exact ⟨op, hkept, hn, hd, hst, hdn⟩
    · rw [halves_ne _ _ he] at hop ⊢
      exact ⟨op, hop, hn, hd, hst, hdn⟩
  · rintro ⟨e', m⟩ ⟨hlt, hstates⟩
    refine ⟨(modified_next e').symm ▸ hlt, fun op hop hn => ?_⟩
    obtain ⟨o, ho, hon, host, -, -⟩ := hback e' op hop
    rw [← host]
    exact hstates o ho (hon.trans hn)
  · intro e' he op hop hd slotIdx hs
    obtain ⟨o, ho, hon, -, hoc, hos⟩ := hback e' op hop
    rw [← hon]
    exact hinv.stored e' he o ho (hoc ▸ hd) slotIdx (hos.trans hs)
  · intro e' he op hop hd hst slotIdx hs
    obtain ⟨o, ho, hon, host, hoc, hos⟩ := hback e' op hop
    have htag : op.tag = o.tag := by
      rw [ChunkSendOperation.tag, ChunkSendOperation.tag, hoc, hon]
    rw [htag]
    exact hinv.intact e' he o ho (hoc ▸ hd) (host.trans hst) slotIdx (hos.trans hs)
  · intro e' op hop hsome
    obtain ⟨o, ho, hon, -, -, hos⟩ := hback e' op hop
    exact ⟨o, ho, hon, hos ▸ hsome⟩

/-- The answer that a callback is about to take. -/
theorem mem_answersOf {before after : List (Nat × Answer Owner)} {deviceIdx slotIdx : Nat}
    {o : Owner} (hanswers : x.answers = before ++ (deviceIdx, o, some slotIdx) :: after) :
    (o, some slotIdx) ∈ x.answersOf deviceIdx := by
  rw [ContextImpl.answersOf, hanswers]
  exact List.mem_map.mpr ⟨_, List.mem_filter.mpr
    ⟨List.mem_append_right _ (List.mem_cons_self ..), beq_self_eq_true _⟩, rfl⟩

/-- What is left of the answers when one is taken. -/
theorem answersOf_take {before after : List (Nat × Answer Owner)} {deviceIdx : Nat}
    {answer : Answer Owner} (hanswers : x.answers = before ++ (deviceIdx, answer) :: after)
    (hx' : x' = { x with answers := before ++ after }) (d : Nat) :
    ∃ l l', x.answersOf d = l ++ (if d = deviceIdx then [answer] else []) ++ l'
      ∧ x'.answersOf d = l ++ l' := by
  refine ⟨(before.filter (fun a => a.1 == d)).map Prod.snd,
    (after.filter (fun a => a.1 == d)).map Prod.snd, ?_, ?_⟩
  · rw [ContextImpl.answersOf, hanswers, List.filter_append, List.map_append, List.filter_cons]
    by_cases hd : d = deviceIdx
    · subst hd
      rw [if_pos (beq_self_eq_true d), if_pos rfl, List.map_cons, List.append_assoc]
      rfl
    · rw [if_neg (by simpa using Ne.symm hd), if_neg hd, List.append_nil]
  · rw [ContextImpl.answersOf, hx', List.filter_append, List.map_append]

/-- Running an answer takes it from those of its outbox. -/
theorem answersOf_sublist {before after : List (Nat × Answer Owner)} {deviceIdx : Nat}
    {answer : Answer Owner} (hanswers : x.answers = before ++ (deviceIdx, answer) :: after)
    (hx' : x' = { x with answers := before ++ after }) (d : Nat) :
    (x'.answersOf d).Sublist (x.answersOf d) := by
  obtain ⟨l, l', hold, hnew⟩ := answersOf_take hanswers hx' d
  rw [hold, hnew, List.append_assoc]
  exact List.Sublist.append (List.Sublist.refl _) (List.sublist_append_right ..)

/-- An answer is taken once. -/
theorem answer_gone {before after : List (Nat × Answer Owner)} {deviceIdx : Nat}
    {answer : Answer Owner} (hanswers : x.answers = before ++ (deviceIdx, answer) :: after)
    (hx' : x' = { x with answers := before ++ after })
    (honce : ((x.answersOf deviceIdx).map Prod.fst).Nodup) :
    answer.1 ∉ (x'.answersOf deviceIdx).map Prod.fst := by
  obtain ⟨l, l', hold, hnew⟩ := answersOf_take hanswers hx' deviceIdx
  rw [hold, if_pos rfl, List.append_assoc, List.map_append, List.map_append] at honce
  rw [hnew, List.map_append]
  have hperm := (List.perm_append_comm_assoc _ [answer.1] _).nodup_iff.mp honce
  exact (List.nodup_cons.mp hperm).1

/-- An allocation callback runs: `op` is the operation that waits for it, and the only one of its
    number. -/
structure Receives (h : SendHalf) (n deviceIdx : Nat) (op : ChunkSendOperation) : Prop where
  mem : op ∈ h.chunkSendOps
  number : op.sequenceNumber = n
  device : op.chunk.deviceIdx = deviceIdx
  waits : op.state = .ALLOCATING_STAGING_BUFFER ∧ op.doneAllocatingStagingBuffer = false
  only : ∀ o ∈ h.chunkSendOps, o.sequenceNumber = n → o = op

/-- Only an operation that waits is answered. -/
theorem OutboxInv.receives {deviceIdx slotIdx : Nat} {loose hands : List (Owner × Nat)}
    (hinv : OutboxInv S x (halves half e h) deviceIdx loose hands)
    (hmine : ((e, n), some slotIdx) ∈ x.answersOf deviceIdx)
    (hnum : Numbered h.nextChunkBeingSent h.chunkSendOps) :
    ∃ op, Receives h n deviceIdx op := by
  obtain ⟨-, op, hop, hn, hd, hwaits⟩ := hinv.asking (e, n)
    (List.mem_append_right _ (List.mem_map.mpr ⟨_, hmine, rfl⟩))
  rw [halves_self] at hop
  refine ⟨op, hop, hn, hd, hwaits, fun o ho hon => ?_⟩
  obtain ⟨pre, post, hsplit⟩ := List.append_of_mem hop
  rw [hsplit] at ho hnum
  rcases List.mem_append.mp ho with hpre | hmid
  · exact absurd (hon.trans hn.symm) (numbered_ne hnum (.inl hpre))
  · rcases List.mem_cons.mp hmid with rfl | hpost
    · rfl
    · exact absurd (hon.trans hn.symm) (numbered_ne hnum (.inr hpost))

variable {op : ChunkSendOperation} {deviceIdx : Nat}

/-- Who is in a queue now: the operation that was told, or another one. -/
theorem Receives.back (hr : Receives h n deviceIdx op) {e' : Endpoint} {o : ChunkSendOperation}
    (ho : o ∈ (halves half e (h.withOps (modifyOperation n f h.chunkSendOps)) e').chunkSendOps) :
    (e' = e ∧ o = f op) ∨ (o ∈ (halves half e h e').chunkSendOps
      ∧ ¬ (e' = e ∧ o.sequenceNumber = n)) := by
  by_cases he : e' = e
  · subst he
    rw [halves_self] at ho ⊢
    rcases mem_modify ho with ⟨q, hq, hqn, rfl⟩ | ⟨hold, hne⟩
    · rw [hr.only q hq hqn]
      exact .inl ⟨rfl, rfl⟩
    · exact .inr ⟨hold, fun hno => hne hno.2⟩
  · rw [halves_ne _ _ he] at ho ⊢
    exact .inr ⟨ho, fun hno => he hno.1⟩

/-- Another chunk goes on waiting. -/
theorem Asking.other {o : Owner} {d : Nat} (ho : Asking S x.name (halves half e h) d o)
    (hother : ¬ (o.1 = e ∧ o.2 = n)) :
    Asking S x.name (halves half e (h.withOps (modifyOperation n f h.chunkSendOps))) d o := by
  obtain ⟨e', m⟩ := o
  obtain ⟨hhome, q, hq, hqn, hrest⟩ := ho
  refine ⟨hhome, q, ?_, hqn, hrest⟩
  by_cases he : e' = e
  · subst he
    rw [halves_self] at hq ⊢
    rcases modify_mem (n := n) (f := f) hq with ⟨hn, -⟩ | ⟨-, hkept⟩
    · exact absurd ⟨rfl, hqn.symm.trans hn⟩ hother
    · exact hkept
  · rw [halves_ne _ _ he] at hq ⊢
    exact hq

/-- A slot that is delivered was asked for. -/
theorem Receives.asked (hr : Receives h n deviceIdx op) (hstate : ∀ q, (f q).state = q.state)
    {o : Owner} (ho : Asked (halves half e h) o) :
    Asked (halves half e (h.withOps (modifyOperation n f h.chunkSendOps))) o := by
  refine ⟨(modified_next o.1).symm ▸ ho.1, fun q hq hqn => ?_⟩
  rcases hr.back hq with ⟨-, rfl⟩ | ⟨hold, -⟩
  · rw [hstate, hr.waits.1]
    exact SendState.noConfusion
  · exact ho.2 q hold hqn

/-- **Delivery rule.**  The callback of an allocation takes its answer out of the queue of the
    loop; the slot is stored in the operation, or it is loose. -/
theorem Outboxes.deliver (stored : Bool) (hout : Outboxes S x (halves half e h) (fun _ => []))
    {before after : List (Nat × Answer Owner)} {slotIdx : Nat}
    (hanswers : x.answers = before ++ (deviceIdx, (e, n), some slotIdx) :: after)
    (hx' : x' = { x with answers := before ++ after })
    (hnum : Numbered h.nextChunkBeingSent h.chunkSendOps)
    (hfresh : ∀ op ∈ h.chunkSendOps, op.doneAllocatingStagingBuffer = false →
      op.stagingBuffer = none)
    (hseq : ∀ op, (f op).sequenceNumber = op.sequenceNumber)
    (hstate : ∀ op, (f op).state = op.state) (hchunk : ∀ op, (f op).chunk = op.chunk)
    (hslot : ∀ op, (f op).stagingBuffer = if stored then some slotIdx else op.stagingBuffer) :
    Outboxes S x' (halves half e (h.withOps (modifyOperation n f h.chunkSendOps)))
      (fun d => if stored = false ∧ d = deviceIdx then [((e, n), slotIdx)] else []) := by
  obtain ⟨hands₀, hinv₀⟩ := hout deviceIdx
  have hmine := mem_answersOf hanswers
  obtain ⟨op, hr⟩ := hinv₀.receives hmine hnum
  have hsub := answersOf_sublist hanswers hx'
  have hgone := answer_gone hanswers hx' hinv₀.once
  intro d
  obtain ⟨hands, hinv⟩ := hout d
  have hin : d = deviceIdx → ((e, n), slotIdx) ∈ hands := by
    rintro rfl
    obtain ⟨slot, hs, hmem⟩ := hinv.granted _ hmine
    exact Option.some.inj hs ▸ hmem
  subst hx'
  refine ⟨hands, hinv.opened, hinv.held, hinv.unique, fun a ha => hinv.granted a ((hsub d).mem ha),
    hinv.once.sublist ((hsub d).map _), fun o ho => ?_, fun o ho => ?_, ?_, ?_, ?_⟩
  · have hold : o ∈ (x.allocator d).pendingAllocations ++ (x.answersOf d).map Prod.fst := by
      rcases List.mem_append.mp ho with hpending | hanswer
      · exact List.mem_append_left _ hpending
      · exact List.mem_append_right _ (((hsub d).map _).mem hanswer)
    have hasking := hinv.asking o hold
    refine hasking.other (fun hno => ?_)
    -- the one that was answered waits no more
    obtain ⟨e', m⟩ := o
    obtain ⟨rfl, rfl⟩ := hno
    obtain ⟨-, q, hq, hqn, hqd, -⟩ := hasking
    rw [halves_self] at hq
    obtain rfl := hr.only q hq hqn
    obtain rfl : d = deviceIdx := hqd.symm.trans hr.device
    rcases List.mem_append.mp ho with hpending | hanswer
    · exact (List.nodup_append.mp hinv.unique).2.2 _ (List.mem_map.mpr ⟨_, hin rfl, rfl⟩) _
        hpending rfl
    · exact hgone hanswer
  · exact ⟨(hinv.asked o ho).1, hr.asked hstate (hinv.asked o ho).2⟩
  · intro e' he q hq hd slot hs
    rcases hr.back hq with ⟨rfl, rfl⟩ | ⟨hold, -⟩
    · rw [hslot] at hs
      rw [hchunk] at hd
      rw [hseq, hr.number]
      cases stored with
      | true =>
          rw [if_pos rfl] at hs
          exact Option.some.inj hs ▸ hin (hd.symm.trans hr.device)
      | false =>
          rw [if_neg Bool.false_ne_true, hfresh op hr.mem hr.waits.2] at hs
          exact absurd hs (by simp)
    · exact hinv.stored e' he q hold hd slot hs
  · intro e' he q hq hd hst slot hs
    rcases hr.back hq with ⟨rfl, rfl⟩ | ⟨hold, -⟩
    · rw [hstate, hr.waits.1] at hst
      exact SendState.noConfusion hst
    · exact hinv.intact e' he q hold hd hst slot hs
  · intro p hp
    dsimp only at hp
    split at hp
    · next hcond =>
        obtain ⟨rfl, rfl⟩ := hcond
        obtain rfl := List.mem_singleton.mp hp
        refine ⟨hin rfl, hgone, fun q hq hqn => ?_⟩
        rcases hr.back hq with ⟨-, rfl⟩ | ⟨-, hno⟩
        · rw [hslot, if_neg Bool.false_ne_true]
          exact hfresh op hr.mem hr.waits.2
        · exact absurd ⟨rfl, hqn⟩ hno
    · exact absurd hp (by simp)

end Deliveries

-- ── The tasks of a sending half ──────────────────────────────────────────────

/-- What happens to the ends of other contexts does not matter. -/
theorem Outboxes.others {S : Setup} {x : ContextImpl} {half half' : Endpoint → SendHalf}
    (hout : Outboxes S x half (fun _ => []))
    (hsame : ∀ e, S.home e = x.name → half' e = half e) : Outboxes S x half' (fun _ => []) := by
  intro d
  obtain ⟨hands, hinv⟩ := hout d
  refine ⟨hands, hinv.opened, hinv.held, hinv.unique, hinv.granted, hinv.once, fun o ho => ?_,
    fun o ho => ?_, fun e he => ?_, fun e he => ?_, fun p hp => absurd hp (by simp)⟩
  · obtain ⟨hhome, hwaits⟩ := hinv.asking o ho
    exact ⟨hhome, (hsame _ hhome).symm ▸ hwaits⟩
  · obtain ⟨hhome, hasked⟩ := hinv.asked o ho
    refine ⟨hhome, ?_⟩
    rw [Asked, hsame _ hhome]
    exact hasked
  · rw [hsame e he]
    exact hinv.stored e he
  · rw [hsame e he]
    exact hinv.intact e he

/-- The rest of the context does not matter. -/
theorem Outboxes.context {S : Setup} {x x' : ContextImpl} {half : Endpoint → SendHalf}
    {loose : Nat → List (Owner × Nat)} (hout : Outboxes S x half loose) (hname : x'.name = x.name)
    (houtboxes : x'.outboxes = x.outboxes) (hanswers : x'.answers = x.answers)
    (hcommands : ∀ d slotIdx, latest Transfer.target (⟨x.name, d⟩, slotIdx) x'.commands
      = latest Transfer.target (⟨x.name, d⟩, slotIdx) x.commands) :
    Outboxes S x' half loose := by
  intro d
  obtain ⟨hands, hinv⟩ := hout d
  refine ⟨hands, hinv.elsewhere hname ?_ ?_ (hcommands d)⟩
  · rw [ContextImpl.allocator, houtboxes]
    rfl
  · rw [ContextImpl.answersOf, hanswers]
    rfl

/-- A sending half between two tasks: every tensor was cut in all its chunks. -/
structure SendSide (S : Setup) (e : Endpoint) (error : Bool) (half : Endpoint → SendHalf)
    (s : Sending) : Prop where
  inv : SendInv S e error s
  cut : error = false →
    s.2.nextChunkBeingSent = chunkStart (S.length e) s.2.nextTensorBeingSent
  outboxes : Outboxes S s.1 (halves half e s.2) (fun _ => [])

section Tasks

variable {S : Setup} {e : Endpoint} {error : Bool} {half : Endpoint → SendHalf} {s : Sending}

/-- Advancing one operation keeps the sending side. -/
theorem SendSide.advance (h : SendSide S e error half s) (n : Nat) :
    SendSide S e error half (sendAdvance e error n s) := by
  obtain ⟨hinv, hcounts, hout⟩ := workingRule.advance (s := s)
    ⟨h.inv, ⟨rfl, rfl⟩, h.outboxes⟩ n
  refine ⟨hinv, fun herror => ?_, hout⟩
  rw [hcounts.1, hcounts.2]
  exact h.cut herror

/-- The error is set. -/
theorem SendSide.fail (h : SendSide S e false half s) : SendSide S e true half s :=
  ⟨h.inv.fail, fun hno => absurd hno (by decide), h.outboxes⟩

/-- Advancing all operations keeps the sending side. -/
theorem SendSide.advanceAll (h : SendSide S e error half s) :
    SendSide S e error half (sendAdvanceAll e error s) := by
  obtain ⟨hinv, hcounts, hout⟩ := workingRule.advanceAll (s := s)
    ⟨h.inv, ⟨rfl, rfl⟩, h.outboxes⟩
  refine ⟨hinv, fun herror => ?_, hout⟩
  rw [hcounts.1, hcounts.2]
  exact h.cut herror

/-- The handles of the context do not matter, nor do copies that write no slot of its own. -/
theorem SendSide.context (h : SendSide S e error half s) {x : ContextImpl}
    (hname : x.name = s.1.name) (hprocess : x.processIdentifier = s.1.processIdentifier)
    (houtboxes : x.outboxes = s.1.outboxes) (hanswers : x.answers = s.1.answers)
    (hcommands : ∀ d slotIdx, latest Transfer.target (⟨s.1.name, d⟩, slotIdx) x.commands
      = latest Transfer.target (⟨s.1.name, d⟩, slotIdx) s.1.commands)
    (hsized : Sized x.commands) : SendSide S e error half (x, s.2) :=
  ⟨h.inv.context ⟨hname, hprocess⟩ hsized, h.cut, h.outboxes.context hname houtboxes hanswers
    hcommands⟩

/-- The loop over the chunks of a tensor. -/
theorem sendChunks (buffer : Buffer) {n : Nat} (hinv : SendInv S e error s)
    (hcut : Counts (chunkStart (S.length e) n) (n + 1) s)
    (hout : Outboxes S s.1 (halves half e s.2) (fun _ => [])) :
    ∀ k ≤ ceilOfRatio (S.length e n) kSlotSize,
      Working S e error half (fun _ => []) (chunkStart (S.length e) n + k) (n + 1)
        ((List.range k).foldl
          (fun s chunkIdx => emplaceSend e error (buffer.chunk n (S.length e n) chunkIdx) s)
          s) := by
  intro k
  induction k with
  | zero => exact fun _ => ⟨hinv, hcut, hout⟩
  | succ k ih =>
      intro hk
      have hy := ih (Nat.le_of_succ_le hk)
      rw [List.range_succ, List.foldl_append, List.foldl_cons, List.foldl_nil]
      refine workingRule.advance ⟨hy.inv.push ?_, ⟨?_, hy.counts.2⟩, hy.outboxes.push⟩ _
      · rw [hy.counts.1]
        exact isOf_chunk buffer n k hk
      · exact congrArg (· + 1) hy.counts.1

/-- A call of `send` keeps the sending side. -/
theorem SendSide.send {buffer : Buffer} (h : SendSide S e error half s) :
    SendSide S e error half
      (sendFromLoop e error buffer (S.length e s.2.nextTensorBeingSent) s) := by
  have htold : ∀ callbacks : List (Nat × Bool), SendInv S e error (s.1, { s.2 with
      nextTensorBeingSent := s.2.nextTensorBeingSent + 1, callbacks := callbacks }) := fun _ =>
    ⟨h.inv.home, h.inv.sized, h.inv.numbered, h.inv.within, h.inv.written.frame rfl rfl rfl,
      fun o ho => (h.inv.ops o ho).frame rfl rfl rfl, h.inv.kept, h.inv.awaited⟩
  have hout : ∀ callbacks : List (Nat × Bool), Outboxes S s.1 (halves half e { s.2 with
      nextTensorBeingSent := s.2.nextTensorBeingSent + 1, callbacks := callbacks }) (fun _ => []) :=
    fun _ => h.outboxes.same rfl rfl
  rw [sendFromLoop]
  cases error with
  | true => exact ⟨htold _, fun hno => absurd hno (by decide), hout _⟩
  | false =>
      rw [if_neg Bool.false_ne_true, sendImplFromLoop]
      have hcut := h.cut rfl
      split
      · next hzero =>
          refine ⟨htold _, fun _ => ?_, hout _⟩
          show s.2.nextChunkBeingSent = chunkStart (S.length e) (s.2.nextTensorBeingSent + 1)
          rw [chunkStart_succ, hcut, hzero]
          rfl
      · next hlength =>
          obtain ⟨hinv, hcounts, hout'⟩ := sendChunks buffer
            (htold s.2.callbacks) ⟨hcut, rfl⟩ (hout s.2.callbacks) _ (Nat.le_refl _)
          refine ⟨hinv, fun _ => ?_, hout'⟩
          rw [hcounts.1, hcounts.2, chunkStart_succ]

/-- The callback of a reply keeps the sending side. -/
theorem SendSide.replyRead (h : SendSide S e error half s) (n : Nat) :
    SendSide S e error half (replyRead e error n s) := by
  have htold : SendInv S e error (s.1, { s.2 with
      repliesRead := s.2.repliesRead ++ [n]
      chunkSendOps := modifyOperation n (fun op => { op with doneReadingReply := true })
        s.2.chunkSendOps }) := by
    refine h.inv.tell (fun _ => rfl) (fun _ => rfl) ?_ (fun k hk => List.mem_append_left _ hk)
      (.inr (List.mem_append_right _ (List.mem_singleton_self _)))
    intro op _ hn hok
    exact ⟨hok.chunk, hok.below, hok.above, hok.announced, hok.granted, hok.asked, hok.waiting,
      fun _ => hn ▸ List.mem_append_right _ (List.mem_singleton_self _)⟩
  have hout := h.outboxes.tell (n := n) (f := fun op => { op with doneReadingReply := true })
    (fun _ => rfl) (fun _ => rfl) (fun _ => rfl) (fun _ => rfl) (fun _ => rfl)
  exact SendSide.advance ⟨htold, h.cut, hout.same rfl rfl⟩ n

/-- The callback of an allocation that was answered. -/
theorem SendSide.allocated {x : ContextImpl}
    (h : SendSide S e error half (x, s.2)) {n deviceIdx slotIdx : Nat}
    {before after : List (Nat × Answer Owner)}
    (hanswers : x.answers = before ++ (deviceIdx, (e, n), some slotIdx) :: after)
    (hx : s.1 = { x with answers := before ++ after }) :
    SendSide S e error half (allocated e error n deviceIdx (some slotIdx) s) := by
  -- only an operation that waits is answered
  have hwaits : ∀ op ∈ s.2.chunkSendOps, op.sequenceNumber = n →
      op.state = .ALLOCATING_STAGING_BUFFER ∧ op.doneAllocatingStagingBuffer = false := by
    intro op hop hn
    obtain ⟨hands, hinv⟩ := h.outboxes deviceIdx
    obtain ⟨o, hr⟩ := hinv.receives (mem_answersOf hanswers) h.inv.numbered
    exact hr.only op hop hn ▸ hr.waits
  have hinv : SendInv S e error s := by
    refine h.inv.context (x := s.1) (by rw [hx]; exact ⟨rfl, rfl⟩) ?_
    rw [hx]
    exact h.inv.sized
  cases herror : error with
  | false =>
      subst herror
      have htold : SendInv S e false (s.1, { s.2 with
          repliesRead := s.2.repliesRead
          chunkSendOps := modifyOperation n (fun op => { op with
            doneAllocatingStagingBuffer := true
            slotIdx := slotIdx
            stagingBuffer := some slotIdx }) s.2.chunkSendOps }) := by
        refine hinv.tell (fun _ => rfl) (fun _ => rfl) ?_ (fun _ hk => hk) (.inl (fun _ => rfl))
        intro op hop hn hok
        obtain ⟨hstate, hdone⟩ := hwaits op hop hn
        refine ⟨hok.chunk, hok.below, hok.above, fun hno => ?_, fun _ _ _ => rfl, fun hno => ?_,
          fun hno => Bool.noConfusion hno, hok.read⟩
        · exact absurd (hstate.symm.trans hno) (by decide)
        · exact absurd (hstate.symm.trans hno) (by decide)
      have hout := Outboxes.deliver true h.outboxes (n := n) (f := fun op => { op with
          doneAllocatingStagingBuffer := true
          slotIdx := slotIdx
          stagingBuffer := some slotIdx })
        hanswers hx hinv.numbered (fun op hop => (hinv.ops op hop).waiting) (fun _ => rfl)
        (fun _ => rfl) (fun _ => rfl) (fun _ => rfl)
      have hout' : Outboxes S s.1 (halves half e (s.2.withOps
          (modifyOperation n (fun op => { op with
          doneAllocatingStagingBuffer := true
          slotIdx := slotIdx
          stagingBuffer := some slotIdx }) s.2.chunkSendOps))) (fun _ => []) := by
        intro d
        exact hout d
      exact SendSide.advance ⟨htold, h.cut, hout'⟩ n
  | true =>
      subst herror
      have htold : SendInv S e true (s.1, { s.2 with
          repliesRead := s.2.repliesRead
          chunkSendOps := modifyOperation n (fun op => { op with
            doneAllocatingStagingBuffer := true }) s.2.chunkSendOps }) := by
        refine hinv.tell (fun _ => rfl) (fun _ => rfl) ?_ (fun _ hk => hk) (.inl (fun _ => rfl))
        intro op hop hn hok
        obtain ⟨hstate, hdone⟩ := hwaits op hop hn
        refine ⟨hok.chunk, hok.below, hok.above, fun hno => ?_, fun hno => absurd hno (by decide),
          fun hno => ?_, fun hno => Bool.noConfusion hno, hok.read⟩
        · exact absurd (hstate.symm.trans hno) (by decide)
        · exact absurd (hstate.symm.trans hno) (by decide)
      have hout := Outboxes.deliver false h.outboxes (n := n)
        (f := fun op => { op with doneAllocatingStagingBuffer := true })
        hanswers hx hinv.numbered (fun op hop => (hinv.ops op hop).waiting) (fun _ => rfl)
        (fun _ => rfl) (fun _ => rfl) (fun _ => rfl)
      obtain ⟨hinv', -, hout'⟩ := workingRule.advance (s := (s.1, { s.2 with
          repliesRead := s.2.repliesRead
          chunkSendOps := modifyOperation n (fun op => { op with
            doneAllocatingStagingBuffer := true }) s.2.chunkSendOps }))
        ⟨htold, ⟨rfl, rfl⟩, hout⟩ n
      refine ⟨hinv'.context ⟨rfl, rfl⟩ hinv'.sized, fun hno => absurd hno (by decide), fun d => ?_⟩
      obtain ⟨hands, hinv₁⟩ := hout' d
      by_cases hd : d = deviceIdx
      · subst hd
        simp only [and_self, if_true] at hinv₁
        obtain ⟨hin, hno, hnone⟩ := hinv₁.carried _ (List.mem_singleton_self _)
        exact hinv₁.giveBack hin hno (fun _ hp => absurd hp List.not_mem_nil)
          (fun _ op hop hn _ => hnone op hop hn)
      · simp only [hd, and_false, if_false] at hinv₁
        exact ⟨hands, hinv₁.elsewhere rfl (answered_allocator_ne _ _ hd)
          (answered_answersOf_ne _ _ hd) (fun _ => rfl)⟩

end Tasks

end TpCudaIpc
