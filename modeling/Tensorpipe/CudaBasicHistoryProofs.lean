import Mathlib.Tactic.Common
import Tensorpipe.CudaBasicChannelProofs

/-! # What happens to a chunk of the cuda_basic channel

    The state of an operation, with its flags, tells what has happened to its chunk so far,
    event after event: an operation does one thing after the other.

    For each half there is the list of these histories, and the list of the moves that a
    transition can make: under which guard, from which operation to which, and what it logs.
    Everything else about the two state machines is read off these lists. -/

namespace TpCudaBasic

open TpStateMachine TpAllocator

-- ── What the actions log ─────────────────────────────────────────────────────

section Actions

variable {Call : Type} {captures : Call → Option Nat} {s : Staging Call} {n slot : Nat}

/-- The events of some answers. -/
def allocatedEvents (answers : List (Nat × Option Nat)) : List (Event Call) :=
  answers.map (fun answer => .allocated answer.1 answer.2)

/-- What an allocator answers is logged in the order of its answers. -/
theorem answered_log (y : Allocator (Option Nat) × List (Answer (Option Nat)))
    (s : Staging Call) : (s.answered y).log = s.log ++ allocatedEvents (Staging.own y.2) := rfl

/-- One event is logged. -/
theorem log_record (e : Event Call) : (s.record e).log = s.log ++ [e] := rfl

/-- A call to another part of the system is logged. -/
theorem log_issue (call : Call) : (s.issue call).log = s.log ++ [.issued call] := rfl

/-- An allocation is logged before the answers that it sets free. -/
theorem log_alloc (call : Call) : (s.alloc n call).log
    = s.log ++ .issued call :: allocatedEvents (Staging.own (s.allocator.alloc (some n)).2) := by
  rw [Staging.alloc, answered_log, log_issue, List.append_assoc]
  rfl

/-- The return of a slot is logged before the answers that it sets free. -/
theorem log_release : (s.release n slot).log = s.log
    ++ .returned n slot :: allocatedEvents (Staging.own (s.allocator.releaseChunk slot).2) := by
  rw [Staging.release, answered_log, log_record, List.append_assoc]
  rfl

/-- The same, when the operation had logged something before. -/
theorem log_release_after (es : List (Event Call)) :
    ({ s with log := s.log ++ es }.release n slot).log = s.log ++ (es
      ++ .returned n slot :: allocatedEvents (Staging.own (s.allocator.releaseChunk slot).2)) := by
  rw [log_release, List.append_assoc]

/-- Answers are not about a chunk until they are delivered. -/
theorem history_allocated (answers : List (Nat × Option Nat)) :
    history (Event.about captures) n (allocatedEvents answers) = [] := by
  refine history_other (fun e he => ?_)
  obtain ⟨answer, -, rfl⟩ := List.mem_map.mp he
  exact nofun

/-- Events that concern one chunk, or none. -/
def Concerns (captures : Call → Option Nat) (n : Nat) (es : List (Event Call)) : Prop :=
  ∀ e ∈ es, ∀ m, e.about captures = some m → m = n

/-- Nothing concerns any chunk. -/
theorem concerns_nil : Concerns captures n [] := nofun

/-- One more event about the chunk. -/
theorem concerns_cons {e : Event Call} {es : List (Event Call)}
    (he : ∀ m, e.about captures = some m → m = n) (hes : Concerns captures n es) :
    Concerns captures n (e :: es) := by
  intro e' he'
  rcases List.mem_cons.mp he' with rfl | hmem
  · exact he
  · exact hes e' hmem

/-- Events about the chunk, one list after the other. -/
theorem concerns_append {es es' : List (Event Call)} (hes : Concerns captures n es)
    (hes' : Concerns captures n es') : Concerns captures n (es ++ es') := by
  intro e he
  rcases List.mem_append.mp he with hmem | hmem
  · exact hes e hmem
  · exact hes' e hmem

/-- Answers concern no chunk. -/
theorem concerns_allocated (answers : List (Nat × Option Nat)) :
    Concerns captures n (allocatedEvents answers) := by
  intro e he m hm
  obtain ⟨answer, -, rfl⟩ := List.mem_map.mp he
  exact nomatch hm

/-- The callback of the user, if the operation has one. -/
def callbackEvents (callback : Bool) (b : Nat) (error : Bool) : List (Event Call) :=
  if callback then [.callback b error] else []

/-- A callback is invoked only if the operation has one. -/
theorem mem_callbackEvents {callback error : Bool} {b : Nat} {e : Event Call}
    (he : e ∈ callbackEvents callback b error) : callback = true ∧ e = .callback b error := by
  cases callback with
  | true => exact ⟨rfl, List.mem_singleton.mp he⟩
  | false => exact nomatch he

/-- Callbacks are about buffers, not about chunks. -/
theorem concerns_callback (callback : Bool) (b : Nat) (error : Bool) :
    Concerns captures n (callbackEvents callback b error) := by
  intro e he m hm
  rw [(mem_callbackEvents he).2] at hm
  exact nomatch hm

/-- A callback leaves no trace in the history of a chunk. -/
theorem history_callback (callback : Bool) (b : Nat) (error : Bool) :
    history (Event.about captures) n (callbackEvents callback b error) = [] := by
  refine history_other (fun e he => ?_)
  rw [(mem_callbackEvents he).2]
  exact nofun

end Actions

/-- The callback of a send, as an effect on the log and on the operation. -/
theorem callSendCallback_eq (error : Bool) (s : SendStaging) (op : ChunkSendOperation) :
    callSendCallback error s op = .returns
      ({ s with log := s.log ++ callbackEvents op.callback op.chunk.bufferSequenceNumber error },
        { op with callback := false }) := by
  obtain ⟨n, st, k, cb, tmp, d1, d2, d3⟩ := op
  cases cb with
  | true => rfl
  | false => simp [callSendCallback, callbackEvents]

/-- The callback of a recv, as an effect on the log and on the operation. -/
theorem callRecvCallback_eq (error : Bool) (s : RecvStaging) (op : ChunkRecvOperation) :
    callRecvCallback error s op = .returns
      ({ s with log := s.log ++ callbackEvents op.callback op.chunk.bufferSequenceNumber error },
        { op with callback := false }) := by
  obtain ⟨n, st, k, cb, tmp, d1, d2, d3, d4⟩ := op
  cases cb with
  | true => rfl
  | false => simp [callRecvCallback, callbackEvents]

-- ── The history of a chunk that is sent ──────────────────────────────────────

/-- The requests among the calls. -/
def SendCall.asks : SendCall → Option Nat
  | allocate n _ => some n
  | _ => none

/-- What has happened to a chunk that is sent. -/
abbrev SendHistory := List (Event SendCall)

section SendWords

/-- A slot has been asked for. -/
def sendAsked (n : Nat) (k : Chunk) : SendHistory :=
  [.emplaced n k k.isLast, .issued (.allocate n k.length)]

/-- The slot has come. -/
def sendGot (n : Nat) (k : Chunk) (slot : Nat) : SendHistory :=
  sendAsked n k ++ [.delivered n (some slot) true]

/-- The copy into the slot has begun. -/
def sendCopying (n : Nat) (k : Chunk) (slot : Nat) : SendHistory :=
  sendGot n k slot ++ [.issued (.copyFromGpuToCpu n (some slot) k)]

/-- The copy into the slot is done. -/
def sendCopied (n : Nat) (k : Chunk) (slot : Nat) : SendHistory :=
  sendCopying n k slot ++ [.reported (.copyFromGpuToCpu n (some slot) k)]

/-- The slot is being sent. -/
def sendSending (n : Nat) (k : Chunk) (slot : Nat) : SendHistory :=
  sendCopied n k slot ++ [.issued (.sendCpuBuffer n (.staging (some slot)) k.length)]

/-- The slot has been sent. -/
def sendSent (n : Nat) (k : Chunk) (slot : Nat) : SendHistory :=
  sendSending n k slot ++ [.reported (.sendCpuBuffer n (.staging (some slot)) k.length)]

/-- A chunk of host memory is sent from where it is. -/
def sendSendingCpu (n : Nat) (k : Chunk) : SendHistory :=
  [.emplaced n k k.isLast, .issued (.sendCpuBuffer n (.user k.devicePtr) k.length)]

/-- The chunk of host memory has been sent. -/
def sendSentCpu (n : Nat) (k : Chunk) : SendHistory :=
  sendSendingCpu n k ++ [.reported (.sendCpuBuffer n (.user k.devicePtr) k.length)]

/-- The histories of a finished chunk.  Only with an error they are cut short. -/
inductive SendGone (error : Bool) (n : Nat) (k : Chunk) :
    SendHistory → Prop where
  | skipped (herror : error = true) : SendGone error n k [.emplaced n k k.isLast]
  | refused (slot : Option Nat) (herror : error = true) (hk : k.isCpuBuffer = false) :
      SendGone error n k (sendAsked n k ++ [.delivered n slot false])
  | unused (slot : Nat) (herror : error = true) (hk : k.isCpuBuffer = false) :
      SendGone error n k (sendGot n k slot ++ [.returned n slot])
  | copied (slot : Nat) (herror : error = true) (hk : k.isCpuBuffer = false) :
      SendGone error n k (sendCopied n k slot ++ [.returned n slot])
  | sent (slot : Nat) (hk : k.isCpuBuffer = false) :
      SendGone error n k (sendSent n k slot ++ [.returned n slot])
  | sentCpu (hk : k.isCpuBuffer = true) : SendGone error n k (sendSentCpu n k)

/-- The histories of a stored chunk, by what its operation says. -/
inductive SendStored (error : Bool) :
    ChunkSendOperation → SendHistory → Prop where
  | uninitialized {n : Nat} {k : Chunk} {callback : Bool} :
      SendStored error { sequenceNumber := n, chunk := k, callback }
        [.emplaced n k k.isLast]
  | allocating {n : Nat} {k : Chunk} {callback : Bool} (hk : k.isCpuBuffer = false) :
      SendStored error
        { sequenceNumber := n, chunk := k, callback, state := .allocatingCpuBuffer } (sendAsked n k)
  | allocated {n : Nat} {k : Chunk} {callback : Bool} (slot : Nat) (hk : k.isCpuBuffer = false) :
      SendStored error
        { sequenceNumber := n, chunk := k, callback, state := .allocatingCpuBuffer
          tmpBuffer := some slot, doneAllocatingCpuStagingBuffer := true } (sendGot n k slot)
  | refused {n : Nat} {k : Chunk} {callback : Bool} (slot : Option Nat) (herror : error = true)
      (hk : k.isCpuBuffer = false) :
      SendStored error
        { sequenceNumber := n, chunk := k, callback, state := .allocatingCpuBuffer
          doneAllocatingCpuStagingBuffer := true } (sendAsked n k ++ [.delivered n slot false])
  | copying {n : Nat} {k : Chunk} {callback : Bool} (slot : Nat) (hk : k.isCpuBuffer = false) :
      SendStored error
        { sequenceNumber := n, chunk := k, callback, state := .copyingFromGpuToCpu
          tmpBuffer := some slot, doneAllocatingCpuStagingBuffer := true } (sendCopying n k slot)
  | copied {n : Nat} {k : Chunk} {callback : Bool} (slot : Nat) (hk : k.isCpuBuffer = false) :
      SendStored error
        { sequenceNumber := n, chunk := k, callback, state := .copyingFromGpuToCpu
          tmpBuffer := some slot, doneAllocatingCpuStagingBuffer := true
          doneCopyingFromGpuToCpu := true } (sendCopied n k slot)
  | invoked {n : Nat} {k : Chunk} {callback : Bool} (slot : Nat) (hk : k.isCpuBuffer = false) :
      SendStored error
        { sequenceNumber := n, chunk := k, callback, state := .invokedCallback
          tmpBuffer := some slot, doneAllocatingCpuStagingBuffer := true
          doneCopyingFromGpuToCpu := true } (sendCopied n k slot)
  | sending {n : Nat} {k : Chunk} {callback : Bool} (slot : Nat) (hk : k.isCpuBuffer = false) :
      SendStored error
        { sequenceNumber := n, chunk := k, callback, state := .sendingCpuBuffer
          tmpBuffer := some slot, doneAllocatingCpuStagingBuffer := true
          doneCopyingFromGpuToCpu := true } (sendSending n k slot)
  | sent {n : Nat} {k : Chunk} {callback : Bool} (slot : Nat) (hk : k.isCpuBuffer = false) :
      SendStored error
        { sequenceNumber := n, chunk := k, callback, state := .sendingCpuBuffer
          tmpBuffer := some slot, doneAllocatingCpuStagingBuffer := true
          doneCopyingFromGpuToCpu := true, doneSendingCpuBuffer := true } (sendSent n k slot)
  | sendingCpu {n : Nat} {k : Chunk} {callback : Bool} (hk : k.isCpuBuffer = true) :
      SendStored error
        { sequenceNumber := n, chunk := k, callback, state := .sendingCpuBuffer }
        (sendSendingCpu n k)
  | sentCpu {n : Nat} {k : Chunk} {callback : Bool} (hk : k.isCpuBuffer = true) :
      SendStored error
        { sequenceNumber := n, chunk := k, callback, state := .sendingCpuBuffer
          doneSendingCpuBuffer := true } (sendSentCpu n k)
  | finished {op : ChunkSendOperation} {w : SendHistory} (hstate : op.state = .finished)
      (hgone : SendGone error op.sequenceNumber op.chunk w) :
      SendStored error op w

end SendWords

/-- What a transition of a send operation can do, behind a previous operation in state
    `prev`: how it changes the operation, and what it logs. -/
inductive SendMoves (error : Bool) (prev : SendState) :
    ChunkSendOperation → ChunkSendOperation → SendHistory → Prop where
  | skip {n : Nat} {k : Chunk} {callback : Bool} (herror : error = true) (hprev : 3 ≤ prev.rank) :
      SendMoves error prev { sequenceNumber := n, chunk := k, callback }
        { sequenceNumber := n, chunk := k, callback := false, state := .finished }
        (callbackEvents callback k.bufferSequenceNumber true)
  | shortcut {n : Nat} {k : Chunk} {callback : Bool} (herror : error = false)
      (hk : k.isCpuBuffer = true) (hprev : 4 ≤ prev.rank) :
      SendMoves error prev { sequenceNumber := n, chunk := k, callback }
        { sequenceNumber := n, chunk := k, callback, state := .sendingCpuBuffer }
        [.issued (.writeReadyToSend n), .issued (.sendCpuBuffer n (.user k.devicePtr) k.length)]
  | ask {n : Nat} {k : Chunk} {callback : Bool} (answers : List (Nat × Option Nat))
      (herror : error = false) (hk : k.isCpuBuffer = false) (hprev : 1 ≤ prev.rank) :
      SendMoves error prev { sequenceNumber := n, chunk := k, callback }
        { sequenceNumber := n, chunk := k, callback, state := .allocatingCpuBuffer }
        (.issued (.allocate n k.length) :: allocatedEvents answers)
  | giveUp {n : Nat} {k : Chunk} {callback : Bool} (herror : error = true)
      (hprev : 3 ≤ prev.rank) :
      SendMoves error prev
        { sequenceNumber := n, chunk := k, callback, state := .allocatingCpuBuffer
          doneAllocatingCpuStagingBuffer := true }
        { sequenceNumber := n, chunk := k, callback := false, state := .finished
          doneAllocatingCpuStagingBuffer := true }
        (callbackEvents callback k.bufferSequenceNumber true)
  | giveBack {n : Nat} {k : Chunk} {callback : Bool} (slot : Nat)
      (answers : List (Nat × Option Nat)) (herror : error = true) (hprev : 3 ≤ prev.rank) :
      SendMoves error prev
        { sequenceNumber := n, chunk := k, callback, state := .allocatingCpuBuffer
          tmpBuffer := some slot, doneAllocatingCpuStagingBuffer := true }
        { sequenceNumber := n, chunk := k, callback := false, state := .finished
          doneAllocatingCpuStagingBuffer := true }
        (callbackEvents callback k.bufferSequenceNumber true
          ++ .returned n slot :: allocatedEvents answers)
  | copy {n : Nat} {k : Chunk} {callback : Bool} (slot : Nat) (herror : error = false)
      (hprev : 2 ≤ prev.rank) :
      SendMoves error prev
        { sequenceNumber := n, chunk := k, callback, state := .allocatingCpuBuffer
          tmpBuffer := some slot, doneAllocatingCpuStagingBuffer := true }
        { sequenceNumber := n, chunk := k, callback, state := .copyingFromGpuToCpu
          tmpBuffer := some slot, doneAllocatingCpuStagingBuffer := true }
        [.issued (.writeReadyToSend n), .issued (.copyFromGpuToCpu n (some slot) k)]
  | copyFailed {n : Nat} {k : Chunk} {callback : Bool} (slot : Nat)
      (answers : List (Nat × Option Nat)) (herror : error = true) (hprev : 3 ≤ prev.rank) :
      SendMoves error prev
        { sequenceNumber := n, chunk := k, callback, state := .copyingFromGpuToCpu
          tmpBuffer := some slot, doneAllocatingCpuStagingBuffer := true
          doneCopyingFromGpuToCpu := true }
        { sequenceNumber := n, chunk := k, callback := false, state := .finished
          doneAllocatingCpuStagingBuffer := true, doneCopyingFromGpuToCpu := true }
        (callbackEvents callback k.bufferSequenceNumber true
          ++ .returned n slot :: allocatedEvents answers)
  | invoke {n : Nat} {k : Chunk} {callback : Bool} (slot : Nat) (herror : error = false)
      (hprev : 3 ≤ prev.rank) :
      SendMoves error prev
        { sequenceNumber := n, chunk := k, callback, state := .copyingFromGpuToCpu
          tmpBuffer := some slot, doneAllocatingCpuStagingBuffer := true
          doneCopyingFromGpuToCpu := true }
        { sequenceNumber := n, chunk := k, callback := false, state := .invokedCallback
          tmpBuffer := some slot, doneAllocatingCpuStagingBuffer := true
          doneCopyingFromGpuToCpu := true }
        (callbackEvents callback k.bufferSequenceNumber false)
  | invokedFailed {n : Nat} {k : Chunk} {callback : Bool} (slot : Nat)
      (answers : List (Nat × Option Nat)) (herror : error = true) :
      SendMoves error prev
        { sequenceNumber := n, chunk := k, callback, state := .invokedCallback
          tmpBuffer := some slot, doneAllocatingCpuStagingBuffer := true
          doneCopyingFromGpuToCpu := true }
        { sequenceNumber := n, chunk := k, callback, state := .finished
          doneAllocatingCpuStagingBuffer := true, doneCopyingFromGpuToCpu := true }
        (.returned n slot :: allocatedEvents answers)
  | send {n : Nat} {k : Chunk} {callback : Bool} (slot : Nat) (hk : k.isCpuBuffer = false)
      (herror : error = false) (hprev : 4 ≤ prev.rank) :
      SendMoves error prev
        { sequenceNumber := n, chunk := k, callback, state := .invokedCallback
          tmpBuffer := some slot, doneAllocatingCpuStagingBuffer := true
          doneCopyingFromGpuToCpu := true }
        { sequenceNumber := n, chunk := k, callback, state := .sendingCpuBuffer
          tmpBuffer := some slot, doneAllocatingCpuStagingBuffer := true
          doneCopyingFromGpuToCpu := true }
        [.issued (.sendCpuBuffer n (.staging (some slot)) k.length)]
  | finishCpu {n : Nat} {k : Chunk} {callback : Bool} (hk : k.isCpuBuffer = true) :
      SendMoves error prev
        { sequenceNumber := n, chunk := k, callback, state := .sendingCpuBuffer
          doneSendingCpuBuffer := true }
        { sequenceNumber := n, chunk := k, callback := false, state := .finished
          doneSendingCpuBuffer := true }
        (callbackEvents callback k.bufferSequenceNumber error)
  | finish {n : Nat} {k : Chunk} {callback : Bool} (slot : Nat)
      (answers : List (Nat × Option Nat)) (hk : k.isCpuBuffer = false) :
      SendMoves error prev
        { sequenceNumber := n, chunk := k, callback, state := .sendingCpuBuffer
          tmpBuffer := some slot, doneAllocatingCpuStagingBuffer := true
          doneCopyingFromGpuToCpu := true, doneSendingCpuBuffer := true }
        { sequenceNumber := n, chunk := k, callback, state := .finished
          doneAllocatingCpuStagingBuffer := true, doneCopyingFromGpuToCpu := true
          doneSendingCpuBuffer := true }
        (.returned n slot :: allocatedEvents answers)

section SendFire

variable {error : Bool} {prev : SendState} {op op' : ChunkSendOperation}
  {w es : SendHistory}

/-- The states that an operation can be in when a transition out of them fires. -/
theorem sendStored_uninitialized (hw : SendStored error op w) (hstate : op.state = .uninitialized) :
    ∃ n k callback, op = { sequenceNumber := n, chunk := k, callback } := by
  cases hw with
  | uninitialized => exact ⟨_, _, _, rfl⟩
  | finished hfinished _ => exact absurd (hstate.symm.trans hfinished) (by simp)
  | _ => exact absurd hstate (by simp)

/-- Its allocation was answered: with a slot, or with nothing after an error. -/
theorem sendStored_allocating (hw : SendStored error op w)
    (hstate : op.state = .allocatingCpuBuffer) (hdone : op.doneAllocatingCpuStagingBuffer = true) :
    ∃ n k callback, (∃ slot, op =
        { sequenceNumber := n, chunk := k, callback, state := .allocatingCpuBuffer
          tmpBuffer := some slot, doneAllocatingCpuStagingBuffer := true })
      ∨ (error = true ∧ op =
        { sequenceNumber := n, chunk := k, callback, state := .allocatingCpuBuffer
          doneAllocatingCpuStagingBuffer := true }) := by
  cases hw with
  | allocating hk => exact absurd hdone (by simp)
  | allocated slot hk => exact ⟨_, _, _, .inl ⟨slot, rfl⟩⟩
  | refused slot herror hk => exact ⟨_, _, _, .inr ⟨herror, rfl⟩⟩
  | finished hfinished _ => exact absurd (hstate.symm.trans hfinished) (by simp)
  | _ => exact absurd hstate (by simp)

/-- Its copy is done. -/
theorem sendStored_copying (hw : SendStored error op w)
    (hstate : op.state = .copyingFromGpuToCpu) (hdone : op.doneCopyingFromGpuToCpu = true) :
    ∃ n k callback slot, op =
      { sequenceNumber := n, chunk := k, callback, state := .copyingFromGpuToCpu
        tmpBuffer := some slot, doneAllocatingCpuStagingBuffer := true
        doneCopyingFromGpuToCpu := true } := by
  cases hw with
  | copying slot hk => exact absurd hdone (by simp)
  | copied slot hk => exact ⟨_, _, _, slot, rfl⟩
  | finished hfinished _ => exact absurd (hstate.symm.trans hfinished) (by simp)
  | _ => exact absurd hstate (by simp)

/-- Its callback was invoked; only chunks in slots come here. -/
theorem sendStored_invoked (hw : SendStored error op w) (hstate : op.state = .invokedCallback) :
    ∃ n k callback slot, k.isCpuBuffer = false ∧ op =
      { sequenceNumber := n, chunk := k, callback, state := .invokedCallback
        tmpBuffer := some slot, doneAllocatingCpuStagingBuffer := true
        doneCopyingFromGpuToCpu := true } := by
  cases hw with
  | invoked slot hk => exact ⟨_, _, _, slot, hk, rfl⟩
  | finished hfinished _ => exact absurd (hstate.symm.trans hfinished) (by simp)
  | _ => exact absurd hstate (by simp)

/-- It was sent, from host memory or from a slot. -/
theorem sendStored_sending (hw : SendStored error op w) (hstate : op.state = .sendingCpuBuffer)
    (hdone : op.doneSendingCpuBuffer = true) :
    ∃ n k callback, (k.isCpuBuffer = true ∧ op =
        { sequenceNumber := n, chunk := k, callback, state := .sendingCpuBuffer
          doneSendingCpuBuffer := true })
      ∨ (k.isCpuBuffer = false ∧ ∃ slot, op =
        { sequenceNumber := n, chunk := k, callback, state := .sendingCpuBuffer
          tmpBuffer := some slot, doneAllocatingCpuStagingBuffer := true
          doneCopyingFromGpuToCpu := true, doneSendingCpuBuffer := true }) := by
  cases hw with
  | sending slot hk => exact absurd hdone (by simp)
  | sendingCpu hk => exact absurd hdone (by simp)
  | sent slot hk => exact ⟨_, _, _, .inr ⟨hk, slot, rfl⟩⟩
  | sentCpu hk => exact ⟨_, _, _, .inl ⟨hk, rfl⟩⟩
  | finished hfinished _ => exact absurd (hstate.symm.trans hfinished) (by simp)
  | _ => exact absurd hstate (by simp)

/-- A transition that fires makes one of these moves. -/
theorem sendMoves_of_fire {t : Transition SendStaging ChunkSendOperation SendState}
    (s : SendStaging) (hw : SendStored error op w)
    (ht : t ∈ advanceChunkSendOperation error) (hsource : op.state = t.source)
    (hcond : t.cond op prev = true) :
    ∃ y es, runActions t.actions (s, op) = .returns y ∧ y.1.log = s.log ++ es
      ∧ SendMoves error prev op { y.2 with state := t.target } es := by
  simp only [advanceChunkSendOperation, List.mem_cons, List.not_mem_nil, or_false] at ht
  rcases ht with rfl | rfl | rfl | rfl | rfl | rfl | rfl | rfl | rfl | rfl | rfl <;>
    simp only [Bool.and_eq_true, Bool.not_eq_true', decide_eq_true_eq] at hcond
  · obtain ⟨rfl, hprev⟩ := hcond
    obtain ⟨n, k, callback, rfl⟩ := sendStored_uninitialized hw hsource
    exact ⟨_, _, by rw [runActions_single, callSendCallback_eq], rfl, .skip rfl hprev⟩
  · obtain ⟨⟨rfl, hk⟩, hprev⟩ := hcond
    obtain ⟨n, k, callback, rfl⟩ := sendStored_uninitialized hw hsource
    refine ⟨_, _, rfl, List.append_assoc .., ?_⟩
    dsimp only at hk
    simp only [ChunkSendOperation.cpuPtr, hk, if_true]
    exact .shortcut rfl hk hprev
  · obtain ⟨⟨rfl, hk⟩, hprev⟩ := hcond
    obtain ⟨n, k, callback, rfl⟩ := sendStored_uninitialized hw hsource
    exact ⟨_, _, rfl, log_alloc _, .ask _ rfl hk hprev⟩
  · obtain ⟨⟨rfl, hdone⟩, hprev⟩ := hcond
    have hcalled := callSendCallback_eq true s op
    obtain ⟨n, k, callback, ⟨slot, rfl⟩ | ⟨-, rfl⟩⟩ := sendStored_allocating hw hsource hdone
    · exact ⟨_, _, by rw [runActions, hcalled]; rfl, log_release_after _,
        .giveBack slot _ rfl hprev⟩
    · exact ⟨_, _, by rw [runActions, hcalled]; rfl, rfl, .giveUp rfl hprev⟩
  · obtain ⟨⟨rfl, hdone⟩, hprev⟩ := hcond
    obtain ⟨n, k, callback, ⟨slot, rfl⟩ | ⟨herror, -⟩⟩ := sendStored_allocating hw hsource hdone
    · exact ⟨_, _, rfl, List.append_assoc .., .copy slot rfl hprev⟩
    · exact absurd herror (by simp)
  · obtain ⟨⟨rfl, hdone⟩, hprev⟩ := hcond
    have hcalled := callSendCallback_eq true s op
    obtain ⟨n, k, callback, slot, rfl⟩ := sendStored_copying hw hsource hdone
    exact ⟨_, _, by rw [runActions, hcalled]; rfl, log_release_after _,
      .copyFailed slot _ rfl hprev⟩
  · obtain ⟨⟨rfl, hdone⟩, hprev⟩ := hcond
    obtain ⟨n, k, callback, slot, rfl⟩ := sendStored_copying hw hsource hdone
    exact ⟨_, _, by rw [runActions_single, callSendCallback_eq], rfl, .invoke slot rfl hprev⟩
  · obtain ⟨n, k, callback, slot, -, rfl⟩ := sendStored_invoked hw hsource
    exact ⟨_, _, rfl, log_release, .invokedFailed slot _ hcond⟩
  · obtain ⟨rfl, hprev⟩ := hcond
    obtain ⟨n, k, callback, slot, hk, rfl⟩ := sendStored_invoked hw hsource
    refine ⟨_, _, rfl, rfl, ?_⟩
    simp only [ChunkSendOperation.cpuPtr, hk, if_neg Bool.false_ne_true]
    exact .send slot hk rfl hprev
  · obtain ⟨hdone, hcpu⟩ := hcond
    obtain ⟨n, k, callback, ⟨hk, rfl⟩ | ⟨hk, slot, rfl⟩⟩ := sendStored_sending hw hsource hdone
    · exact ⟨_, _, by rw [runActions_single, callSendCallback_eq], rfl, .finishCpu hk⟩
    · exact absurd (hk.symm.trans hcpu) (by simp)
  · obtain ⟨hdone, hcpu⟩ := hcond
    obtain ⟨n, k, callback, ⟨hk, rfl⟩ | ⟨hk, slot, rfl⟩⟩ := sendStored_sending hw hsource hdone
    · exact absurd (hk.symm.trans hcpu) (by simp)
    · exact ⟨_, _, rfl, log_release, .finish slot _ hk⟩

/-- A move is within one operation. -/
theorem sendMoves_chunk (h : SendMoves error prev op op' es) :
    op'.sequenceNumber = op.sequenceNumber ∧ op'.chunk = op.chunk := by
  cases h <;> exact ⟨rfl, rfl⟩

/-- A move logs nothing about other chunks. -/
theorem sendMoves_concerns (h : SendMoves error prev op op' es) :
    Concerns SendCall.captures op.sequenceNumber es := by
  cases h with
  | skip _ _ => exact concerns_callback _ _ _
  | giveUp _ _ => exact concerns_callback _ _ _
  | invoke _ _ _ => exact concerns_callback _ _ _
  | finishCpu _ => exact concerns_callback _ _ _
  | shortcut _ _ _ =>
      exact concerns_cons nofun (concerns_cons (fun _ hm => (Option.some.inj hm).symm) concerns_nil)
  | copy _ _ _ =>
      exact concerns_cons nofun (concerns_cons (fun _ hm => (Option.some.inj hm).symm) concerns_nil)
  | send _ _ _ _ => exact concerns_cons (fun _ hm => (Option.some.inj hm).symm) concerns_nil
  | ask _ _ _ _ =>
      exact concerns_cons (fun _ hm => (Option.some.inj hm).symm) (concerns_allocated _)
  | invokedFailed _ _ _ =>
      exact concerns_cons (fun _ hm => (Option.some.inj hm).symm) (concerns_allocated _)
  | finish _ _ _ =>
      exact concerns_cons (fun _ hm => (Option.some.inj hm).symm) (concerns_allocated _)
  | giveBack _ _ _ _ =>
      exact concerns_append (concerns_callback _ _ _)
        (concerns_cons (fun _ hm => (Option.some.inj hm).symm) (concerns_allocated _))
  | copyFailed _ _ _ _ =>
      exact concerns_append (concerns_callback _ _ _)
        (concerns_cons (fun _ hm => (Option.some.inj hm).symm) (concerns_allocated _))

/-- The history of a chunk follows its moves. -/
theorem sendStored_moves (hw : SendStored error op w)
    (hm : SendMoves error prev op op' es) :
    SendStored error op'
      (w ++ history (Event.about SendCall.captures) op.sequenceNumber es) := by
  have hcons := @history_cons _ (Event.about SendCall.captures) op.sequenceNumber
  have hskip := @history_skip _ (Event.about SendCall.captures) op.sequenceNumber
  cases hm with
  | skip herror hprev =>
      rw [history_callback, List.append_nil]
      cases hw with
      | uninitialized => exact .finished rfl (.skipped herror)
      | finished hstate _ => exact nomatch hstate
  | shortcut herror hk hprev =>
      rw [hskip rfl, hcons rfl]
      cases hw with
      | uninitialized => exact .sendingCpu hk
      | finished hstate _ => exact nomatch hstate
  | ask answers herror hk hprev =>
      rw [hcons rfl, history_allocated]
      cases hw with
      | uninitialized => exact .allocating hk
      | finished hstate _ => exact nomatch hstate
  | giveUp herror hprev =>
      rw [history_callback, List.append_nil]
      cases hw with
      | refused slot _ hk => exact .finished rfl (.refused slot herror hk)
      | finished hstate _ => exact nomatch hstate
  | giveBack slot answers herror hprev =>
      rw [history_append, history_callback, hcons rfl, history_allocated]
      cases hw with
      | allocated _ hk => exact .finished rfl (.unused slot herror hk)
      | finished hstate _ => exact nomatch hstate
  | copy slot herror hprev =>
      rw [hskip rfl, hcons rfl]
      cases hw with
      | allocated _ hk => exact .copying slot hk
      | finished hstate _ => exact nomatch hstate
  | copyFailed slot answers herror hprev =>
      rw [history_append, history_callback, hcons rfl, history_allocated]
      cases hw with
      | copied _ hk => exact .finished rfl (.copied slot herror hk)
      | finished hstate _ => exact nomatch hstate
  | invoke slot herror hprev =>
      rw [history_callback, List.append_nil]
      cases hw with
      | copied _ hk => exact .invoked slot hk
      | finished hstate _ => exact nomatch hstate
  | invokedFailed slot answers herror =>
      rw [hcons rfl, history_allocated]
      cases hw with
      | invoked _ hk => exact .finished rfl (.copied slot herror hk)
      | finished hstate _ => exact nomatch hstate
  | send slot hk herror hprev =>
      rw [hcons rfl]
      cases hw with
      | invoked _ hk => exact .sending slot hk
      | finished hstate _ => exact nomatch hstate
  | finishCpu hk =>
      rw [history_callback, List.append_nil]
      cases hw with
      | sentCpu _ => exact .finished rfl (.sentCpu hk)
      | finished hstate _ => exact nomatch hstate
  | finish slot answers hk =>
      rw [hcons rfl, history_allocated]
      cases hw with
      | sent _ _ => exact .finished rfl (.sent slot hk)
      | finished hstate _ => exact nomatch hstate

end SendFire

-- ── The history of a chunk that is received ──────────────────────────────────

/-- The chunk that a call asks a slot for. -/
def RecvCall.asks : RecvCall → Option Nat
  | allocate n _ => some n
  | _ => none

/-- What has happened to a chunk that is received. -/
abbrev RecvHistory := List (Event RecvCall)

section RecvWords

/-- The ready-to-send message is awaited. -/
def recvReading (n : Nat) (k : Chunk) : RecvHistory :=
  [.emplaced n k k.isLast, .issued (.readReadyToSend n)]

/-- The sender is ready. -/
def recvReady (n : Nat) (k : Chunk) : RecvHistory :=
  recvReading n k ++ [.reported (.readReadyToSend n)]

/-- A slot has been asked for. -/
def recvAsked (n : Nat) (k : Chunk) : RecvHistory :=
  recvReady n k ++ [.issued (.allocate n k.length)]

/-- The slot has come. -/
def recvGot (n : Nat) (k : Chunk) (slot : Nat) : RecvHistory :=
  recvAsked n k ++ [.delivered n (some slot) true]

/-- The chunk is being received into the slot. -/
def recvReceiving (n : Nat) (k : Chunk) (slot : Nat) : RecvHistory :=
  recvGot n k slot ++ [.issued (.receiveCpuBuffer n (.staging (some slot)) k.length)]

/-- The chunk is in the slot. -/
def recvReceived (n : Nat) (k : Chunk) (slot : Nat) : RecvHistory :=
  recvReceiving n k slot ++ [.reported (.receiveCpuBuffer n (.staging (some slot)) k.length)]

/-- The copy out of the slot has begun. -/
def recvCopying (n : Nat) (k : Chunk) (slot : Nat) : RecvHistory :=
  recvReceived n k slot ++ [.issued (.copyFromCpuToGpu n (some slot) k)]

/-- The copy out of the slot is done. -/
def recvCopied (n : Nat) (k : Chunk) (slot : Nat) : RecvHistory :=
  recvCopying n k slot ++ [.reported (.copyFromCpuToGpu n (some slot) k)]

/-- A chunk of host memory is received where it has to be. -/
def recvReceivingCpu (n : Nat) (k : Chunk) : RecvHistory :=
  recvReady n k ++ [.issued (.receiveCpuBuffer n (.user k.devicePtr) k.length)]

/-- The chunk of host memory is there. -/
def recvReceivedCpu (n : Nat) (k : Chunk) : RecvHistory :=
  recvReceivingCpu n k ++ [.reported (.receiveCpuBuffer n (.user k.devicePtr) k.length)]

/-- The histories of a finished chunk.  Only with an error they are cut short. -/
inductive RecvGone (error : Bool) (n : Nat) (k : Chunk) : RecvHistory → Prop where
  | skipped (herror : error = true) : RecvGone error n k [.emplaced n k k.isLast]
  | ready (herror : error = true) : RecvGone error n k (recvReady n k)
  | refused (slot : Option Nat) (herror : error = true) (hk : k.isCpuBuffer = false) :
      RecvGone error n k (recvAsked n k ++ [.delivered n slot false])
  | unused (slot : Nat) (herror : error = true) (hk : k.isCpuBuffer = false) :
      RecvGone error n k (recvGot n k slot ++ [.returned n slot])
  | received (slot : Nat) (herror : error = true) (hk : k.isCpuBuffer = false) :
      RecvGone error n k (recvReceived n k slot ++ [.returned n slot])
  | copied (slot : Nat) (hk : k.isCpuBuffer = false) :
      RecvGone error n k (recvCopied n k slot ++ [.returned n slot])
  | receivedCpu (hk : k.isCpuBuffer = true) : RecvGone error n k (recvReceivedCpu n k)

/-- The histories of a stored chunk, by what its operation says. -/
inductive RecvStored (error : Bool) : ChunkRecvOperation → RecvHistory → Prop where
  | uninitialized {n : Nat} {k : Chunk} {callback : Bool} :
      RecvStored error { sequenceNumber := n, chunk := k, callback } [.emplaced n k k.isLast]
  | reading {n : Nat} {k : Chunk} {callback : Bool} :
      RecvStored error { sequenceNumber := n, chunk := k, callback, state := .readingReadyToSend }
        (recvReading n k)
  | ready {n : Nat} {k : Chunk} {callback : Bool} :
      RecvStored error
        { sequenceNumber := n, chunk := k, callback, state := .readingReadyToSend
          doneReadingReadyToSend := true } (recvReady n k)
  | allocating {n : Nat} {k : Chunk} {callback : Bool} (hk : k.isCpuBuffer = false) :
      RecvStored error
        { sequenceNumber := n, chunk := k, callback, state := .allocatingCpuBuffer
          doneReadingReadyToSend := true } (recvAsked n k)
  | allocated {n : Nat} {k : Chunk} {callback : Bool} (slot : Nat) (hk : k.isCpuBuffer = false) :
      RecvStored error
        { sequenceNumber := n, chunk := k, callback, state := .allocatingCpuBuffer
          tmpBuffer := some slot, doneReadingReadyToSend := true
          doneAllocatingCpuStagingBuffer := true } (recvGot n k slot)
  | refused {n : Nat} {k : Chunk} {callback : Bool} (slot : Option Nat) (herror : error = true)
      (hk : k.isCpuBuffer = false) :
      RecvStored error
        { sequenceNumber := n, chunk := k, callback, state := .allocatingCpuBuffer
          doneReadingReadyToSend := true, doneAllocatingCpuStagingBuffer := true }
        (recvAsked n k ++ [.delivered n slot false])
  | receiving {n : Nat} {k : Chunk} {callback : Bool} (slot : Nat) (hk : k.isCpuBuffer = false) :
      RecvStored error
        { sequenceNumber := n, chunk := k, callback, state := .receivingCpuBuffer
          tmpBuffer := some slot, doneReadingReadyToSend := true
          doneAllocatingCpuStagingBuffer := true } (recvReceiving n k slot)
  | received {n : Nat} {k : Chunk} {callback : Bool} (slot : Nat) (hk : k.isCpuBuffer = false) :
      RecvStored error
        { sequenceNumber := n, chunk := k, callback, state := .receivingCpuBuffer
          tmpBuffer := some slot, doneReadingReadyToSend := true
          doneAllocatingCpuStagingBuffer := true, doneReceivingCpuBuffer := true }
        (recvReceived n k slot)
  | copying {n : Nat} {k : Chunk} {callback : Bool} (slot : Nat) (hk : k.isCpuBuffer = false) :
      RecvStored error
        { sequenceNumber := n, chunk := k, callback, state := .copyingFromCpuToGpu
          tmpBuffer := some slot, doneReadingReadyToSend := true
          doneAllocatingCpuStagingBuffer := true, doneReceivingCpuBuffer := true }
        (recvCopying n k slot)
  | copied {n : Nat} {k : Chunk} {callback : Bool} (slot : Nat) (hk : k.isCpuBuffer = false) :
      RecvStored error
        { sequenceNumber := n, chunk := k, callback, state := .copyingFromCpuToGpu
          tmpBuffer := some slot, doneReadingReadyToSend := true
          doneAllocatingCpuStagingBuffer := true, doneReceivingCpuBuffer := true
          doneCopyingFromCpuToGpu := true } (recvCopied n k slot)
  | invokedCopying {n : Nat} {k : Chunk} {callback : Bool} (slot : Nat)
      (hk : k.isCpuBuffer = false) :
      RecvStored error
        { sequenceNumber := n, chunk := k, callback
          state := .copyingFromCpuToGpuAndInvokedCallback
          tmpBuffer := some slot, doneReadingReadyToSend := true
          doneAllocatingCpuStagingBuffer := true, doneReceivingCpuBuffer := true }
        (recvCopying n k slot)
  | invokedCopied {n : Nat} {k : Chunk} {callback : Bool} (slot : Nat)
      (hk : k.isCpuBuffer = false) :
      RecvStored error
        { sequenceNumber := n, chunk := k, callback
          state := .copyingFromCpuToGpuAndInvokedCallback
          tmpBuffer := some slot, doneReadingReadyToSend := true
          doneAllocatingCpuStagingBuffer := true, doneReceivingCpuBuffer := true
          doneCopyingFromCpuToGpu := true } (recvCopied n k slot)
  | receivingCpu {n : Nat} {k : Chunk} {callback : Bool} (hk : k.isCpuBuffer = true) :
      RecvStored error
        { sequenceNumber := n, chunk := k, callback, state := .receivingCpuBuffer
          doneReadingReadyToSend := true } (recvReceivingCpu n k)
  | receivedCpu {n : Nat} {k : Chunk} {callback : Bool} (hk : k.isCpuBuffer = true) :
      RecvStored error
        { sequenceNumber := n, chunk := k, callback, state := .receivingCpuBuffer
          doneReadingReadyToSend := true, doneReceivingCpuBuffer := true } (recvReceivedCpu n k)
  | finished {op : ChunkRecvOperation} {w : RecvHistory} (hstate : op.state = .finished)
      (hgone : RecvGone error op.sequenceNumber op.chunk w) : RecvStored error op w

end RecvWords

/-- What a transition of a receive operation can do, behind a previous operation in state
    `prev`. -/
inductive RecvMoves (error : Bool) (prev : RecvState) :
    ChunkRecvOperation → ChunkRecvOperation → RecvHistory → Prop where
  | skip {n : Nat} {k : Chunk} {callback : Bool} (herror : error = true) (hprev : 5 ≤ prev.rank) :
      RecvMoves error prev { sequenceNumber := n, chunk := k, callback }
        { sequenceNumber := n, chunk := k, callback := false, state := .finished }
        (callbackEvents callback k.bufferSequenceNumber true)
  | read {n : Nat} {k : Chunk} {callback : Bool} (herror : error = false)
      (hprev : 1 ≤ prev.rank) :
      RecvMoves error prev { sequenceNumber := n, chunk := k, callback }
        { sequenceNumber := n, chunk := k, callback, state := .readingReadyToSend }
        [.issued (.readReadyToSend n)]
  | readyFailed {n : Nat} {k : Chunk} {callback : Bool} (herror : error = true)
      (hprev : 5 ≤ prev.rank) :
      RecvMoves error prev
        { sequenceNumber := n, chunk := k, callback, state := .readingReadyToSend
          doneReadingReadyToSend := true }
        { sequenceNumber := n, chunk := k, callback := false, state := .finished
          doneReadingReadyToSend := true }
        (callbackEvents callback k.bufferSequenceNumber true)
  | shortcut {n : Nat} {k : Chunk} {callback : Bool} (herror : error = false)
      (hk : k.isCpuBuffer = true) (hprev : 3 ≤ prev.rank) :
      RecvMoves error prev
        { sequenceNumber := n, chunk := k, callback, state := .readingReadyToSend
          doneReadingReadyToSend := true }
        { sequenceNumber := n, chunk := k, callback, state := .receivingCpuBuffer
          doneReadingReadyToSend := true }
        [.issued (.receiveCpuBuffer n (.user k.devicePtr) k.length)]
  | ask {n : Nat} {k : Chunk} {callback : Bool} (answers : List (Nat × Option Nat))
      (herror : error = false) (hk : k.isCpuBuffer = false) (hprev : 2 ≤ prev.rank) :
      RecvMoves error prev
        { sequenceNumber := n, chunk := k, callback, state := .readingReadyToSend
          doneReadingReadyToSend := true }
        { sequenceNumber := n, chunk := k, callback, state := .allocatingCpuBuffer
          doneReadingReadyToSend := true }
        (.issued (.allocate n k.length) :: allocatedEvents answers)
  | giveUp {n : Nat} {k : Chunk} {callback : Bool} (herror : error = true)
      (hprev : 5 ≤ prev.rank) :
      RecvMoves error prev
        { sequenceNumber := n, chunk := k, callback, state := .allocatingCpuBuffer
          doneReadingReadyToSend := true, doneAllocatingCpuStagingBuffer := true }
        { sequenceNumber := n, chunk := k, callback := false, state := .finished
          doneReadingReadyToSend := true, doneAllocatingCpuStagingBuffer := true }
        (callbackEvents callback k.bufferSequenceNumber true)
  | giveBack {n : Nat} {k : Chunk} {callback : Bool} (slot : Nat)
      (answers : List (Nat × Option Nat)) (herror : error = true) (hprev : 5 ≤ prev.rank) :
      RecvMoves error prev
        { sequenceNumber := n, chunk := k, callback, state := .allocatingCpuBuffer
          tmpBuffer := some slot, doneReadingReadyToSend := true
          doneAllocatingCpuStagingBuffer := true }
        { sequenceNumber := n, chunk := k, callback := false, state := .finished
          doneReadingReadyToSend := true, doneAllocatingCpuStagingBuffer := true }
        (callbackEvents callback k.bufferSequenceNumber true
          ++ .returned n slot :: allocatedEvents answers)
  | receive {n : Nat} {k : Chunk} {callback : Bool} (slot : Nat) (hk : k.isCpuBuffer = false)
      (herror : error = false) (hprev : 3 ≤ prev.rank) :
      RecvMoves error prev
        { sequenceNumber := n, chunk := k, callback, state := .allocatingCpuBuffer
          tmpBuffer := some slot, doneReadingReadyToSend := true
          doneAllocatingCpuStagingBuffer := true }
        { sequenceNumber := n, chunk := k, callback, state := .receivingCpuBuffer
          tmpBuffer := some slot, doneReadingReadyToSend := true
          doneAllocatingCpuStagingBuffer := true }
        [.issued (.receiveCpuBuffer n (.staging (some slot)) k.length)]
  | receiveFailed {n : Nat} {k : Chunk} {callback : Bool} (slot : Nat)
      (answers : List (Nat × Option Nat)) (hk : k.isCpuBuffer = false) (herror : error = true)
      (hprev : 5 ≤ prev.rank) :
      RecvMoves error prev
        { sequenceNumber := n, chunk := k, callback, state := .receivingCpuBuffer
          tmpBuffer := some slot, doneReadingReadyToSend := true
          doneAllocatingCpuStagingBuffer := true, doneReceivingCpuBuffer := true }
        { sequenceNumber := n, chunk := k, callback := false, state := .finished
          doneReadingReadyToSend := true, doneAllocatingCpuStagingBuffer := true
          doneReceivingCpuBuffer := true }
        (callbackEvents callback k.bufferSequenceNumber true
          ++ .returned n slot :: allocatedEvents answers)
  | finishCpu {n : Nat} {k : Chunk} {callback : Bool} (hk : k.isCpuBuffer = true) :
      RecvMoves error prev
        { sequenceNumber := n, chunk := k, callback, state := .receivingCpuBuffer
          doneReadingReadyToSend := true, doneReceivingCpuBuffer := true }
        { sequenceNumber := n, chunk := k, callback := false, state := .finished
          doneReadingReadyToSend := true, doneReceivingCpuBuffer := true }
        (callbackEvents callback k.bufferSequenceNumber error)
  | copy {n : Nat} {k : Chunk} {callback : Bool} (slot : Nat) (hk : k.isCpuBuffer = false)
      (herror : error = false) :
      RecvMoves error prev
        { sequenceNumber := n, chunk := k, callback, state := .receivingCpuBuffer
          tmpBuffer := some slot, doneReadingReadyToSend := true
          doneAllocatingCpuStagingBuffer := true, doneReceivingCpuBuffer := true }
        { sequenceNumber := n, chunk := k, callback, state := .copyingFromCpuToGpu
          tmpBuffer := some slot, doneReadingReadyToSend := true
          doneAllocatingCpuStagingBuffer := true, doneReceivingCpuBuffer := true }
        [.issued (.copyFromCpuToGpu n (some slot) k)]
  | invoke {n : Nat} {k : Chunk} {callback done : Bool} (slot : Nat) (hprev : 5 ≤ prev.rank) :
      RecvMoves error prev
        { sequenceNumber := n, chunk := k, callback, state := .copyingFromCpuToGpu
          tmpBuffer := some slot, doneReadingReadyToSend := true
          doneAllocatingCpuStagingBuffer := true, doneReceivingCpuBuffer := true
          doneCopyingFromCpuToGpu := done }
        { sequenceNumber := n, chunk := k, callback := false
          state := .copyingFromCpuToGpuAndInvokedCallback
          tmpBuffer := some slot, doneReadingReadyToSend := true
          doneAllocatingCpuStagingBuffer := true, doneReceivingCpuBuffer := true
          doneCopyingFromCpuToGpu := done }
        (callbackEvents callback k.bufferSequenceNumber error)
  | finish {n : Nat} {k : Chunk} {callback : Bool} (slot : Nat)
      (answers : List (Nat × Option Nat)) :
      RecvMoves error prev
        { sequenceNumber := n, chunk := k, callback
          state := .copyingFromCpuToGpuAndInvokedCallback
          tmpBuffer := some slot, doneReadingReadyToSend := true
          doneAllocatingCpuStagingBuffer := true, doneReceivingCpuBuffer := true
          doneCopyingFromCpuToGpu := true }
        { sequenceNumber := n, chunk := k, callback, state := .finished
          doneReadingReadyToSend := true, doneAllocatingCpuStagingBuffer := true
          doneReceivingCpuBuffer := true, doneCopyingFromCpuToGpu := true }
        (.returned n slot :: allocatedEvents answers)

section RecvFire

variable {error : Bool} {prev : RecvState} {op op' : ChunkRecvOperation} {w es : RecvHistory}

/-- The states that an operation can be in when a transition out of them fires. -/
theorem recvStored_uninitialized (hw : RecvStored error op w) (hstate : op.state = .uninitialized) :
    ∃ n k callback, op = { sequenceNumber := n, chunk := k, callback } := by
  cases hw with
  | uninitialized => exact ⟨_, _, _, rfl⟩
  | finished hfinished _ => exact absurd (hstate.symm.trans hfinished) (by simp)
  | _ => exact absurd hstate (by simp)

/-- The sender was ready. -/
theorem recvStored_reading (hw : RecvStored error op w) (hstate : op.state = .readingReadyToSend)
    (hdone : op.doneReadingReadyToSend = true) :
    ∃ n k callback, op =
      { sequenceNumber := n, chunk := k, callback, state := .readingReadyToSend
        doneReadingReadyToSend := true } := by
  cases hw with
  | reading => exact absurd hdone (by simp)
  | ready => exact ⟨_, _, _, rfl⟩
  | finished hfinished _ => exact absurd (hstate.symm.trans hfinished) (by simp)
  | _ => exact absurd hstate (by simp)

/-- Its allocation was answered: with a slot, or with nothing after an error. -/
theorem recvStored_allocating (hw : RecvStored error op w)
    (hstate : op.state = .allocatingCpuBuffer) (hdone : op.doneAllocatingCpuStagingBuffer = true) :
    ∃ n k callback, (k.isCpuBuffer = false ∧ ∃ slot, op =
        { sequenceNumber := n, chunk := k, callback, state := .allocatingCpuBuffer
          tmpBuffer := some slot, doneReadingReadyToSend := true
          doneAllocatingCpuStagingBuffer := true })
      ∨ (error = true ∧ op =
        { sequenceNumber := n, chunk := k, callback, state := .allocatingCpuBuffer
          doneReadingReadyToSend := true, doneAllocatingCpuStagingBuffer := true }) := by
  cases hw with
  | allocating hk => exact absurd hdone (by simp)
  | allocated slot hk => exact ⟨_, _, _, .inl ⟨hk, slot, rfl⟩⟩
  | refused slot herror hk => exact ⟨_, _, _, .inr ⟨herror, rfl⟩⟩
  | finished hfinished _ => exact absurd (hstate.symm.trans hfinished) (by simp)
  | _ => exact absurd hstate (by simp)

/-- It was received, into host memory or into a slot. -/
theorem recvStored_receiving (hw : RecvStored error op w)
    (hstate : op.state = .receivingCpuBuffer) (hdone : op.doneReceivingCpuBuffer = true) :
    ∃ n k callback, (k.isCpuBuffer = true ∧ op =
        { sequenceNumber := n, chunk := k, callback, state := .receivingCpuBuffer
          doneReadingReadyToSend := true, doneReceivingCpuBuffer := true })
      ∨ (k.isCpuBuffer = false ∧ ∃ slot, op =
        { sequenceNumber := n, chunk := k, callback, state := .receivingCpuBuffer
          tmpBuffer := some slot, doneReadingReadyToSend := true
          doneAllocatingCpuStagingBuffer := true, doneReceivingCpuBuffer := true }) := by
  cases hw with
  | receiving slot hk => exact absurd hdone (by simp)
  | receivingCpu hk => exact absurd hdone (by simp)
  | received slot hk => exact ⟨_, _, _, .inr ⟨hk, slot, rfl⟩⟩
  | receivedCpu hk => exact ⟨_, _, _, .inl ⟨hk, rfl⟩⟩
  | finished hfinished _ => exact absurd (hstate.symm.trans hfinished) (by simp)
  | _ => exact absurd hstate (by simp)

/-- It is copied out of its slot, or has been. -/
theorem recvStored_copying (hw : RecvStored error op w)
    (hstate : op.state = .copyingFromCpuToGpu) :
    ∃ n k callback done slot, op =
      { sequenceNumber := n, chunk := k, callback, state := .copyingFromCpuToGpu
        tmpBuffer := some slot, doneReadingReadyToSend := true
        doneAllocatingCpuStagingBuffer := true, doneReceivingCpuBuffer := true
        doneCopyingFromCpuToGpu := done } := by
  cases hw with
  | copying slot hk => exact ⟨_, _, _, _, slot, rfl⟩
  | copied slot hk => exact ⟨_, _, _, _, slot, rfl⟩
  | finished hfinished _ => exact absurd (hstate.symm.trans hfinished) (by simp)
  | _ => exact absurd hstate (by simp)

/-- It was copied after its callback. -/
theorem recvStored_invoked (hw : RecvStored error op w)
    (hstate : op.state = .copyingFromCpuToGpuAndInvokedCallback)
    (hdone : op.doneCopyingFromCpuToGpu = true) :
    ∃ n k callback slot, op =
      { sequenceNumber := n, chunk := k, callback, state := .copyingFromCpuToGpuAndInvokedCallback
        tmpBuffer := some slot, doneReadingReadyToSend := true
        doneAllocatingCpuStagingBuffer := true, doneReceivingCpuBuffer := true
        doneCopyingFromCpuToGpu := true } := by
  cases hw with
  | invokedCopying slot hk => exact absurd hdone (by simp)
  | invokedCopied slot hk => exact ⟨_, _, _, slot, rfl⟩
  | finished hfinished _ => exact absurd (hstate.symm.trans hfinished) (by simp)
  | _ => exact absurd hstate (by simp)

/-- A transition that fires makes one of these moves. -/
theorem recvMoves_of_fire {t : Transition RecvStaging ChunkRecvOperation RecvState}
    (s : RecvStaging) (hw : RecvStored error op w) (ht : t ∈ advanceChunkRecvOperation error)
    (hsource : op.state = t.source) (hcond : t.cond op prev = true) :
    ∃ y es, runActions t.actions (s, op) = .returns y ∧ y.1.log = s.log ++ es
      ∧ RecvMoves error prev op { y.2 with state := t.target } es := by
  simp only [advanceChunkRecvOperation, List.mem_cons, List.not_mem_nil, or_false] at ht
  rcases ht with rfl | rfl | rfl | rfl | rfl | rfl | rfl | rfl | rfl | rfl | rfl | rfl <;>
    simp only [Bool.and_eq_true, Bool.not_eq_true', decide_eq_true_eq] at hcond
  · obtain ⟨rfl, hprev⟩ := hcond
    obtain ⟨n, k, callback, rfl⟩ := recvStored_uninitialized hw hsource
    exact ⟨_, _, by rw [runActions_single, callRecvCallback_eq], rfl, .skip rfl hprev⟩
  · obtain ⟨rfl, hprev⟩ := hcond
    obtain ⟨n, k, callback, rfl⟩ := recvStored_uninitialized hw hsource
    exact ⟨_, _, rfl, rfl, .read rfl hprev⟩
  · obtain ⟨⟨rfl, hdone⟩, hprev⟩ := hcond
    obtain ⟨n, k, callback, rfl⟩ := recvStored_reading hw hsource hdone
    exact ⟨_, _, by rw [runActions_single, callRecvCallback_eq], rfl, .readyFailed rfl hprev⟩
  · obtain ⟨⟨⟨rfl, hdone⟩, hk⟩, hprev⟩ := hcond
    obtain ⟨n, k, callback, rfl⟩ := recvStored_reading hw hsource hdone
    refine ⟨_, _, rfl, rfl, ?_⟩
    dsimp only at hk
    simp only [ChunkRecvOperation.cpuPtr, hk, if_true]
    exact .shortcut rfl hk hprev
  · obtain ⟨⟨⟨rfl, hdone⟩, hk⟩, hprev⟩ := hcond
    obtain ⟨n, k, callback, rfl⟩ := recvStored_reading hw hsource hdone
    exact ⟨_, _, rfl, log_alloc _, .ask _ rfl hk hprev⟩
  · obtain ⟨⟨rfl, hdone⟩, hprev⟩ := hcond
    have hcalled := callRecvCallback_eq true s op
    obtain ⟨n, k, callback, ⟨hk, slot, rfl⟩ | ⟨-, rfl⟩⟩ := recvStored_allocating hw hsource hdone
    · exact ⟨_, _, by rw [runActions, hcalled]; rfl, log_release_after _,
        .giveBack slot _ rfl hprev⟩
    · exact ⟨_, _, by rw [runActions, hcalled]; rfl, rfl, .giveUp rfl hprev⟩
  · obtain ⟨⟨rfl, hdone⟩, hprev⟩ := hcond
    obtain ⟨n, k, callback, ⟨hk, slot, rfl⟩ | ⟨herror, -⟩⟩ :=
      recvStored_allocating hw hsource hdone
    · refine ⟨_, _, rfl, rfl, ?_⟩
      simp only [ChunkRecvOperation.cpuPtr, hk, if_neg Bool.false_ne_true]
      exact .receive slot hk rfl hprev
    · exact absurd herror (by simp)
  · obtain ⟨⟨⟨rfl, hdone⟩, hgpu⟩, hprev⟩ := hcond
    have hcalled := callRecvCallback_eq true s op
    obtain ⟨n, k, callback, ⟨hk, rfl⟩ | ⟨hk, slot, rfl⟩⟩ := recvStored_receiving hw hsource hdone
    · exact absurd (hk.symm.trans hgpu) (by simp)
    · exact ⟨_, _, by rw [runActions, hcalled]; rfl, log_release_after _,
        .receiveFailed slot _ hk rfl hprev⟩
  · obtain ⟨hdone, hcpu⟩ := hcond
    obtain ⟨n, k, callback, ⟨hk, rfl⟩ | ⟨hk, slot, rfl⟩⟩ := recvStored_receiving hw hsource hdone
    · exact ⟨_, _, by rw [runActions_single, callRecvCallback_eq], rfl, .finishCpu hk⟩
    · exact absurd (hk.symm.trans hcpu) (by simp)
  · obtain ⟨⟨rfl, hdone⟩, hgpu⟩ := hcond
    obtain ⟨n, k, callback, ⟨hk, rfl⟩ | ⟨hk, slot, rfl⟩⟩ := recvStored_receiving hw hsource hdone
    · exact absurd (hk.symm.trans hgpu) (by simp)
    · exact ⟨_, _, rfl, rfl, .copy slot hk rfl⟩
  · obtain ⟨n, k, callback, done, slot, rfl⟩ := recvStored_copying hw hsource
    exact ⟨_, _, by rw [runActions_single, callRecvCallback_eq], rfl, .invoke slot hcond⟩
  · obtain ⟨n, k, callback, slot, rfl⟩ := recvStored_invoked hw hsource hcond
    exact ⟨_, _, rfl, log_release, .finish slot _⟩

/-- A move is within one operation. -/
theorem recvMoves_chunk (h : RecvMoves error prev op op' es) :
    op'.sequenceNumber = op.sequenceNumber ∧ op'.chunk = op.chunk := by
  cases h <;> exact ⟨rfl, rfl⟩

/-- A move logs nothing about other chunks. -/
theorem recvMoves_concerns (h : RecvMoves error prev op op' es) :
    Concerns RecvCall.captures op.sequenceNumber es := by
  cases h with
  | skip _ _ => exact concerns_callback _ _ _
  | readyFailed _ _ => exact concerns_callback _ _ _
  | giveUp _ _ => exact concerns_callback _ _ _
  | finishCpu _ => exact concerns_callback _ _ _
  | invoke _ _ => exact concerns_callback _ _ _
  | read _ _ => exact concerns_cons (fun _ hm => (Option.some.inj hm).symm) concerns_nil
  | shortcut _ _ _ => exact concerns_cons (fun _ hm => (Option.some.inj hm).symm) concerns_nil
  | receive _ _ _ _ => exact concerns_cons (fun _ hm => (Option.some.inj hm).symm) concerns_nil
  | copy _ _ _ => exact concerns_cons (fun _ hm => (Option.some.inj hm).symm) concerns_nil
  | ask _ _ _ _ =>
      exact concerns_cons (fun _ hm => (Option.some.inj hm).symm) (concerns_allocated _)
  | finish _ _ =>
      exact concerns_cons (fun _ hm => (Option.some.inj hm).symm) (concerns_allocated _)
  | giveBack _ _ _ _ =>
      exact concerns_append (concerns_callback _ _ _)
        (concerns_cons (fun _ hm => (Option.some.inj hm).symm) (concerns_allocated _))
  | receiveFailed _ _ _ _ _ =>
      exact concerns_append (concerns_callback _ _ _)
        (concerns_cons (fun _ hm => (Option.some.inj hm).symm) (concerns_allocated _))

/-- The history of a chunk follows its moves. -/
theorem recvStored_moves (hw : RecvStored error op w) (hm : RecvMoves error prev op op' es) :
    RecvStored error op'
      (w ++ history (Event.about RecvCall.captures) op.sequenceNumber es) := by
  have hcons := @history_cons _ (Event.about RecvCall.captures) op.sequenceNumber
  cases hm with
  | skip herror hprev =>
      rw [history_callback, List.append_nil]
      cases hw with
      | uninitialized => exact .finished rfl (.skipped herror)
      | finished hstate _ => exact nomatch hstate
  | read herror hprev =>
      rw [hcons rfl]
      cases hw with
      | uninitialized => exact .reading
      | finished hstate _ => exact nomatch hstate
  | readyFailed herror hprev =>
      rw [history_callback, List.append_nil]
      cases hw with
      | ready => exact .finished rfl (.ready herror)
      | finished hstate _ => exact nomatch hstate
  | shortcut herror hk hprev =>
      rw [hcons rfl]
      cases hw with
      | ready => exact .receivingCpu hk
      | finished hstate _ => exact nomatch hstate
  | ask answers herror hk hprev =>
      rw [hcons rfl, history_allocated]
      cases hw with
      | ready => exact .allocating hk
      | finished hstate _ => exact nomatch hstate
  | giveUp herror hprev =>
      rw [history_callback, List.append_nil]
      cases hw with
      | refused slot _ hk => exact .finished rfl (.refused slot herror hk)
      | finished hstate _ => exact nomatch hstate
  | giveBack slot answers herror hprev =>
      rw [history_append, history_callback, hcons rfl, history_allocated]
      cases hw with
      | allocated _ hk => exact .finished rfl (.unused slot herror hk)
      | finished hstate _ => exact nomatch hstate
  | receive slot hk herror hprev =>
      rw [hcons rfl]
      cases hw with
      | allocated _ hk => exact .receiving slot hk
      | finished hstate _ => exact nomatch hstate
  | receiveFailed slot answers hk herror hprev =>
      rw [history_append, history_callback, hcons rfl, history_allocated]
      cases hw with
      | received _ hk => exact .finished rfl (.received slot herror hk)
      | finished hstate _ => exact nomatch hstate
  | finishCpu hk =>
      rw [history_callback, List.append_nil]
      cases hw with
      | receivedCpu _ => exact .finished rfl (.receivedCpu hk)
      | finished hstate _ => exact nomatch hstate
  | copy slot hk herror =>
      rw [hcons rfl]
      cases hw with
      | received _ hk => exact .copying slot hk
      | finished hstate _ => exact nomatch hstate
  | invoke slot hprev =>
      rw [history_callback, List.append_nil]
      cases hw with
      | copying _ hk => exact .invokedCopying slot hk
      | copied _ hk => exact .invokedCopied slot hk
      | finished hstate _ => exact nomatch hstate
  | finish slot answers =>
      rw [hcons rfl, history_allocated]
      cases hw with
      | invokedCopied _ hk => exact .finished rfl (.copied slot hk)
      | finished hstate _ => exact nomatch hstate

end RecvFire

end TpCudaBasic
