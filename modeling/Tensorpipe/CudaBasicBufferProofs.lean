import Mathlib.Tactic.Common
import Tensorpipe.CudaBasicSeriesProofs

/-! # Completion of buffers

    The two halves keep the order of the chunks of a buffer, as long as the inner channel
    reports the chunks of a CPU buffer in order.  Nothing obliges it to: the transitions that
    finish a chunk of a CPU buffer do not look at the previous operation, so a report that
    comes early lets the callback of the user out early. -/

namespace TpCudaBasic

open TpStateMachine TpAllocator

section Callbacks

variable {Call : Type}

/-- The answers of the allocator are no callbacks of the user. -/
theorem callback_allocated (answers : List (Nat × Option Nat)) (b : Nat) (e : Bool) :
    (.callback b e : Event Call) ∉ allocatedEvents answers := by
  intro hmem
  obtain ⟨answer, -, heq⟩ := List.mem_map.mp hmem
  exact nomatch heq

/-- Returning a slot calls back no user. -/
theorem callback_returned (n slot : Nat) (answers : List (Nat × Option Nat)) (b : Nat) (e : Bool) :
    (.callback b e : Event Call) ∉ .returned n slot :: allocatedEvents answers := by
  intro hmem
  rcases List.mem_cons.mp hmem with heq | hrest
  · exact nomatch heq
  · exact callback_allocated answers b e hrest

/-- A callback of the user is no call of another component. -/
theorem issued_callback {called : Bool} {b : Nat} {e : Bool} {c : Call} :
    (.issued c : Event Call) ∉ callbackEvents called b e := by
  intro hmem
  exact nomatch (mem_callbackEvents hmem).2

end Callbacks

-- ── The sending half ─────────────────────────────────────────────────────────

/-- The chunk that the inner channel is to send. -/
def SendCall.inner : SendCall → Option Nat
  | sendCpuBuffer n _ _ => some n
  | _ => none

/-- The chunks of a buffer being sent, in the terms of both halves. -/
def sendSeries : Series ChunkSendOperation SendState SendCall where
  callback := ChunkSendOperation.callback
  inner := SendCall.inner
  Released op := if op.chunk.isCpuBuffer then
      op.state = .finished ∨ (op.state = .sendingCpuBuffer ∧ op.doneSendingCpuBuffer = true)
    else 3 ≤ op.state.rank
  Passed cpu st := if cpu then st = .finished else 3 ≤ st.rank
  Given k st := k.isCpuBuffer = true ∧ st = .sendingCpuBuffer
  Reached st := 4 ≤ st.rank
  Follows prev k st := k.isCpuBuffer = true → st = .uninitialized →
    prev = .uninitialized ∨ prev = .finished
  Fact error n k w :=
    (k.isCpuBuffer = true → ∀ c : SendCall, c.inner = some n → .issued c ∈ w → .reported c ∈ w)
    ∧ (k.isCpuBuffer = false → error = false →
      ∃ slot, .reported (.copyFromGpuToCpu n slot k) ∈ w)

section SendSeries

variable {error : Bool} {prev : SendState} {op op' : ChunkSendOperation} {w es : SendHistory}

/-- Chunks of a CPU buffer take the shortcut. -/
theorem sendStored_shortcut (hw : SendStored error op w) (hk : op.chunk.isCpuBuffer = true) :
    op.state = .uninitialized ∨ op.state = .sendingCpuBuffer ∨ op.state = .finished := by
  cases hw <;> simp_all

/-- Once passed, a chunk stays so. -/
theorem sendSeries_passed (h : SendMoves error prev op op' es) (cpu : Bool) :
    sendSeries.Passed cpu op.state → sendSeries.Passed cpu op'.state := by
  cases cpu <;> cases h <;> simp [sendSeries, SendState.rank]

/-- Once it has reached the inner channel, a chunk has. -/
theorem sendSeries_reached (h : SendMoves error prev op op' es) :
    sendSeries.Reached op.state → sendSeries.Reached op'.state := by
  cases h <;> simp [sendSeries, SendState.rank]

/-- In error, a chunk that moves on is followed by the same states. -/
theorem sendSeries_follows (h : SendMoves error prev op op' es) (herror : error = true)
    (k : Chunk) (st : SendState) :
    sendSeries.Follows op.state k st → sendSeries.Follows op'.state k st := by
  cases h <;> simp_all [sendSeries]

/-- A move leads to a state that may follow the one before. -/
theorem sendSeries_followed (h : SendMoves error prev op op' es) :
    sendSeries.Follows prev op.chunk op'.state := by
  cases h <;> simp [sendSeries]

/-- A move releases a callback only behind a chunk that has passed. -/
theorem sendSeries_released (hw : SendStored error op w) (h : SendMoves error prev op op' es) :
    sendSeries.Released op' → sendSeries.Released op
      ∨ sendSeries.Passed op.chunk.isCpuBuffer prev
      ∨ (error = true ∧ (sendSeries.Follows prev op.chunk op.state →
        sendSeries.Passed op.chunk.isCpuBuffer prev)) := by
  have hcpu := sendStored_shortcut hw
  cases hk : op.chunk.isCpuBuffer with
  | false => cases h <;> simp_all [sendSeries, SendState.rank]
  | true =>
      cases h with
      | skip herror hprev =>
          refine fun _ => Or.inr (Or.inr ⟨herror, fun hfollows => ?_⟩)
          rcases hfollows hk rfl with rfl | rfl
          · exact nomatch hprev
          · rfl
      | _ => simp_all [sendSeries]

/-- A move gives a chunk to the inner channel only behind one that has reached it. -/
theorem sendSeries_given (hw : SendStored error op w) (h : SendMoves error prev op op' es) :
    sendSeries.Given op.chunk op'.state →
      sendSeries.Given op.chunk op.state ∨ sendSeries.Reached prev := by
  cases h <;> simp_all [sendSeries]

/-- A move logs the callback of the user first, if any, and with its fact. -/
theorem sendSeries_events (hw : SendStored error op w) (h : SendMoves error prev op op' es) :
    ∃ called rest, es = callbackEvents called op.chunk.bufferSequenceNumber error ++ rest
      ∧ (∀ b e, .callback b e ∉ rest)
      ∧ (called = true → op.callback = true ∧ sendSeries.Released op'
        ∧ sendSeries.Fact error op.sequenceNumber op.chunk w) := by
  cases h with
  | skip herror hprev =>
      subst herror
      refine ⟨_, [], (List.append_nil _).symm, (by simp), fun hcalled => ⟨hcalled, ?_, ?_⟩⟩
      · simp [sendSeries, SendState.rank]
      · cases hw with
        | uninitialized => exact ⟨by simp, by simp⟩
        | finished hstate _ => exact absurd hstate (by simp)
  | giveUp herror hprev =>
      subst herror
      refine ⟨_, [], (List.append_nil _).symm, (by simp), fun hcalled => ⟨hcalled, ?_, ?_⟩⟩
      · simp [sendSeries, SendState.rank]
      · cases hw with
        | refused slot _ hk => exact ⟨fun hk' => absurd (hk.symm.trans hk') (by simp), by simp⟩
        | finished hstate _ => exact absurd hstate (by simp)
  | giveBack slot answers herror hprev =>
      subst herror
      refine ⟨_, _, rfl, callback_returned _ _ _, fun hcalled => ⟨hcalled, ?_, ?_⟩⟩
      · simp [sendSeries, SendState.rank]
      · cases hw with
        | allocated _ hk => exact ⟨fun hk' => absurd (hk.symm.trans hk') (by simp), by simp⟩
        | finished hstate _ => exact absurd hstate (by simp)
  | copyFailed slot answers herror hprev =>
      subst herror
      refine ⟨_, _, rfl, callback_returned _ _ _, fun hcalled => ⟨hcalled, ?_, ?_⟩⟩
      · simp [sendSeries, SendState.rank]
      · cases hw with
        | copied _ hk => exact ⟨fun hk' => absurd (hk.symm.trans hk') (by simp), by simp⟩
        | finished hstate _ => exact absurd hstate (by simp)
  | invoke slot herror hprev =>
      subst herror
      cases hw with
      | copied _ hk =>
          refine ⟨_, [], (List.append_nil _).symm, (by simp), fun hcalled => ⟨hcalled, ?_, ?_⟩⟩
          · simp [sendSeries, SendState.rank, hk]
          · exact ⟨fun hk' => absurd (hk.symm.trans hk') (by simp),
              fun _ _ => ⟨some slot, List.mem_append_right _ (List.mem_singleton_self _)⟩⟩
      | finished hstate _ => exact absurd hstate (by simp)
  | finishCpu hk =>
      refine ⟨_, [], (List.append_nil _).symm, (by simp), fun hcalled => ⟨hcalled, ?_, ?_⟩⟩
      · simp [sendSeries, hk]
      · cases hw with
        | sentCpu _ =>
            refine ⟨fun _ c hc hissued => ?_, fun hk' => absurd (hk.symm.trans hk') (by simp)⟩
            simp [sendSentCpu, sendSendingCpu] at hissued ⊢
            exact hissued
        | finished hstate _ => exact absurd hstate (by simp)
  | shortcut _ _ _ => exact ⟨false, _, rfl, by simp, by simp⟩
  | copy _ _ _ => exact ⟨false, _, rfl, by simp, by simp⟩
  | send _ _ _ _ => exact ⟨false, _, rfl, by simp, by simp⟩
  | ask answers _ _ _ => exact ⟨false, _, rfl, by simp [callback_allocated], by simp⟩
  | invokedFailed slot answers _ => exact ⟨false, _, rfl, callback_returned _ _ _, by simp⟩
  | finish slot answers _ => exact ⟨false, _, rfl, callback_returned _ _ _, by simp⟩

/-- In error nothing is called. -/
theorem sendSeries_silent (h : SendMoves error prev op op' es) (herror : error = true)
    (c : SendCall) : .issued c ∉ es := by
  cases h <;> simp_all [allocatedEvents, issued_callback]

/-- Each move owes to the series what it should. -/
theorem sendSeries_moved (hw : SendStored error op w) (h : SendMoves error prev op op' es) :
    SeriesMoved sendKind sendSeries error prev w op op' es where
  chunk := (sendMoves_chunk h).2
  passed := sendSeries_passed h
  reached := sendSeries_reached h
  follows := sendSeries_follows h
  followed := fun _ _ => sendSeries_followed h
  released := sendSeries_released hw h
  given := sendSeries_given hw h
  unflagged := by
    show op'.callback = true → op.callback = true
    cases h <;> simp
  events := sendSeries_events hw h
  silent := sendSeries_silent h

/-- The fact holds of a chunk that is gone. -/
theorem sendGone_fact {n : Nat} {k : Chunk} (h : SendGone error n k w) :
    sendSeries.Fact error n k w := by
  cases h with
  | skipped herror => exact ⟨by simp, fun _ hclear => (nomatch herror.symm.trans hclear)⟩
  | refused slot herror hk =>
      exact ⟨fun hk' => (nomatch hk.symm.trans hk'),
        fun _ hclear => (nomatch herror.symm.trans hclear)⟩
  | unused slot herror hk =>
      exact ⟨fun hk' => (nomatch hk.symm.trans hk'),
        fun _ hclear => (nomatch herror.symm.trans hclear)⟩
  | copied slot herror hk =>
      exact ⟨fun hk' => (nomatch hk.symm.trans hk'),
        fun _ hclear => (nomatch herror.symm.trans hclear)⟩
  | sent slot hk =>
      refine ⟨fun hk' => (nomatch hk.symm.trans hk'), fun _ _ => ⟨some slot, ?_⟩⟩
      simp [sendSent, sendSending, sendCopied]
  | sentCpu hk =>
      refine ⟨fun _ c hc hissued => ?_, fun hk' => (nomatch hk.symm.trans hk')⟩
      simp [sendSentCpu, sendSendingCpu] at hissued ⊢
      exact hissued

/-- The fact holds of a chunk that has passed. -/
theorem sendStored_fact (h : SendStored error op w)
    (hpassed : sendSeries.Passed op.chunk.isCpuBuffer op.state) :
    sendSeries.Fact error op.sequenceNumber op.chunk w := by
  cases h with
  | finished _ hgone => exact sendGone_fact hgone
  | invoked slot hk =>
      refine ⟨fun hk' => (nomatch hk.symm.trans hk'), fun _ _ => ⟨some slot, ?_⟩⟩
      simp [sendCopied]
  | sending slot hk =>
      refine ⟨fun hk' => (nomatch hk.symm.trans hk'), fun _ _ => ⟨some slot, ?_⟩⟩
      simp [sendSending, sendCopied]
  | sent slot hk =>
      refine ⟨fun hk' => (nomatch hk.symm.trans hk'), fun _ _ => ⟨some slot, ?_⟩⟩
      simp [sendSent, sendSending, sendCopied]
  | @uninitialized n k callback =>
      cases hk : k.isCpuBuffer <;> simp [sendSeries, hk, SendState.rank] at hpassed
  | _ => simp_all [sendSeries, SendState.rank]

/-- A chunk in the queue was emplaced. -/
theorem sendStored_mem (h : SendStored error op w) :
    .emplaced op.sequenceNumber op.chunk op.chunk.isLast ∈ w := by
  cases h with
  | finished _ hgone =>
      cases hgone <;> simp [sendAsked, sendGot, sendCopying, sendCopied, sendSending, sendSent,
        sendSendingCpu, sendSentCpu]
  | _ => simp [sendAsked, sendGot, sendCopying, sendCopied, sendSending, sendSent, sendSendingCpu,
      sendSentCpu]

/-- A chunk that the inner channel was given is followed by chunks that it was given too. -/
theorem sendSeries_stable {p : ChunkSendOperation} (hp : SendStored false p w)
    (hk : p.chunk.isCpuBuffer = op.chunk.isCpuBuffer)
    (hstable : ¬ Enabled (advanceChunkSendOperation false) p.state op) :
    sendSeries.Follows p.state op.chunk op.state := by
  intro hcpu hstate
  rcases sendStored_shortcut hp (hk.trans hcpu) with huninit | hsending | hfinished
  · exact Or.inl huninit
  · exfalso
    refine hstable ⟨_, List.mem_cons_of_mem _ (List.mem_cons_self ..), hstate, ?_⟩
    rw [hsending]
    simp only [hcpu]
    rfl
  · exact Or.inr hfinished

/-- A CPU chunk that cannot move has handed its buffer to the inner channel. -/
theorem sendSeries_inner {p : ChunkSendOperation} (hp : SendStored error p w)
    (hk : p.chunk.isCpuBuffer = true) (hreached : sendSeries.Reached p.state)
    (hstable : ¬ Enabled (advanceChunkSendOperation error) prev p)
    (hinner : ∀ c : SendCall, c.inner = some p.sequenceNumber → .issued c ∈ w → .reported c ∈ w) :
    p.state = .finished := by
  cases hp with
  | finished hstate _ => exact hstate
  | @sendingCpu n k callback _ =>
      have hreported := hinner (.sendCpuBuffer n (.user k.devicePtr) k.length) rfl
        (by simp [sendSendingCpu])
      simp [sendSendingCpu] at hreported
  | sentCpu _ =>
      exfalso
      refine hstable ?_
      simp_all [Enabled, advanceChunkSendOperation, Operation.state]
  | uninitialized => cases hreached
  | _ => simp_all

/-- The chunks of a buffer being sent follow the laws of a series. -/
theorem sendSeries_laws : SeriesLaws sendKind advanceChunkSendOperation sendSeries where
  machine := sendMachine
  moved := by
    intro error t ht s op w prev hw hsource hcond
    obtain ⟨y, es, hrun, hlog, hmoves⟩ := sendMoves_of_fire s hw ht hsource hcond
    exact ⟨y, es, hrun, hlog, sendSeries_moved hw hmoves⟩
  passed_finished := by
    intro cpu
    cases cpu
    · exact Nat.le_of_ble_eq_true rfl
    · rfl
  reached_finished := Nat.le_of_ble_eq_true rfl
  follows_finished := fun _ _ _ _ => Or.inr rfl
  passed_released := by
    intro op hpassed
    show if op.chunk.isCpuBuffer = true then _ else _
    change if op.chunk.isCpuBuffer = true then _ else _ at hpassed
    cases hk : op.chunk.isCpuBuffer with
    | true =>
        rw [hk] at hpassed
        exact Or.inl hpassed
    | false =>
        rw [hk] at hpassed
        exact hpassed
  captures_inner := by
    intro c n hc
    cases c with
    | sendCpuBuffer m ptr length => exact hc
    | _ => exact nomatch hc
  stored_mem := fun _ _ _ h => ⟨_, sendStored_mem h⟩
  stored_fact := fun _ _ _ h hpassed => sendStored_fact h hpassed
  gone_fact := fun _ _ _ _ h => sendGone_fact h
  follows_stable := fun _ _ _ _ hp _ hk hstable => sendSeries_stable hp hk hstable
  passed_inner := fun _ _ _ _ hp hk hreached hstable hinner =>
    sendSeries_inner hp hk hreached hstable hinner

end SendSeries

-- ── The receiving half ───────────────────────────────────────────────────────

/-- The chunk that a call hands to the inner channel. -/
def RecvCall.inner : RecvCall → Option Nat
  | receiveCpuBuffer n _ _ => some n
  | _ => none

/-- The chunks of a buffer being received, in the terms of both halves. -/
def recvSeries : Series ChunkRecvOperation RecvState RecvCall where
  callback := ChunkRecvOperation.callback
  inner := RecvCall.inner
  Released op := 5 ≤ op.state.rank ∨ (op.chunk.isCpuBuffer = true
    ∧ op.state = .receivingCpuBuffer ∧ op.doneReceivingCpuBuffer = true)
  Passed _ st := 5 ≤ st.rank
  Given k st := k.isCpuBuffer = true ∧ st = .receivingCpuBuffer
  Reached st := 3 ≤ st.rank
  Follows _ _ _ := True
  Fact error n k w :=
    (k.isCpuBuffer = true → ∀ c : RecvCall, c.inner = some n → .issued c ∈ w → .reported c ∈ w)
    ∧ (k.isCpuBuffer = false → error = false →
      ∃ slot, .issued (.copyFromCpuToGpu n slot k) ∈ w)

section RecvSeries

variable {error : Bool} {prev : RecvState} {op op' : ChunkRecvOperation} {w es : RecvHistory}

/-- Once passed, a chunk stays so. -/
theorem recvSeries_passed (h : RecvMoves error prev op op' es) (cpu : Bool) :
    recvSeries.Passed cpu op.state → recvSeries.Passed cpu op'.state := by
  cases h <;> simp [recvSeries, RecvState.rank]

/-- Once it has reached the inner channel, a chunk has. -/
theorem recvSeries_reached (h : RecvMoves error prev op op' es) :
    recvSeries.Reached op.state → recvSeries.Reached op'.state := by
  cases h <;> simp [recvSeries, RecvState.rank]

/-- A move releases a callback only behind a chunk that has passed. -/
theorem recvSeries_released (h : RecvMoves error prev op op' es) :
    recvSeries.Released op' → recvSeries.Released op
      ∨ recvSeries.Passed op.chunk.isCpuBuffer prev
      ∨ (error = true ∧ (recvSeries.Follows prev op.chunk op.state →
        recvSeries.Passed op.chunk.isCpuBuffer prev)) := by
  cases h <;> simp_all [recvSeries, RecvState.rank]

/-- A move gives a chunk to the inner channel only behind one that has reached it. -/
theorem recvSeries_given (h : RecvMoves error prev op op' es) :
    recvSeries.Given op.chunk op'.state →
      recvSeries.Given op.chunk op.state ∨ recvSeries.Reached prev := by
  cases h <;> simp_all [recvSeries]

/-- A move logs the callback of the user first, if any, and with its fact. -/
theorem recvSeries_events (hw : RecvStored error op w) (h : RecvMoves error prev op op' es) :
    ∃ called rest, es = callbackEvents called op.chunk.bufferSequenceNumber error ++ rest
      ∧ (∀ b e, .callback b e ∉ rest)
      ∧ (called = true → op.callback = true ∧ recvSeries.Released op'
        ∧ recvSeries.Fact error op.sequenceNumber op.chunk w) := by
  cases h with
  | skip herror hprev =>
      subst herror
      refine ⟨_, [], (List.append_nil _).symm, (by simp), fun hcalled => ⟨hcalled, ?_, ?_⟩⟩
      · simp [recvSeries, RecvState.rank]
      · cases hw with
        | uninitialized => exact ⟨by simp, by simp⟩
        | finished hstate _ => exact absurd hstate (by simp)
  | readyFailed herror hprev =>
      subst herror
      refine ⟨_, [], (List.append_nil _).symm, (by simp), fun hcalled => ⟨hcalled, ?_, ?_⟩⟩
      · simp [recvSeries, RecvState.rank]
      · cases hw with
        | ready =>
            refine ⟨fun _ c hc hissued => ?_, by simp⟩
            simp [recvReading, recvReady] at hissued
            subst hissued
            cases hc
        | finished hstate _ => exact absurd hstate (by simp)
  | giveUp herror hprev =>
      subst herror
      refine ⟨_, [], (List.append_nil _).symm, (by simp), fun hcalled => ⟨hcalled, ?_, ?_⟩⟩
      · simp [recvSeries, RecvState.rank]
      · cases hw with
        | refused slot _ hk => exact ⟨fun hk' => absurd (hk.symm.trans hk') (by simp), by simp⟩
        | finished hstate _ => exact absurd hstate (by simp)
  | giveBack slot answers herror hprev =>
      subst herror
      refine ⟨_, _, rfl, callback_returned _ _ _, fun hcalled => ⟨hcalled, ?_, ?_⟩⟩
      · simp [recvSeries, RecvState.rank]
      · cases hw with
        | allocated _ hk => exact ⟨fun hk' => absurd (hk.symm.trans hk') (by simp), by simp⟩
        | finished hstate _ => exact absurd hstate (by simp)
  | receiveFailed slot answers hk herror hprev =>
      subst herror
      refine ⟨_, _, rfl, callback_returned _ _ _, fun hcalled => ⟨hcalled, ?_, ?_⟩⟩
      · simp [recvSeries, RecvState.rank]
      · exact ⟨fun hk' => absurd (hk.symm.trans hk') (by simp), by simp⟩
  | invoke slot hprev =>
      refine ⟨_, [], (List.append_nil _).symm, (by simp), fun hcalled => ⟨hcalled, ?_, ?_⟩⟩
      · simp [recvSeries, RecvState.rank]
      · cases hw with
        | copying _ hk =>
            exact ⟨fun hk' => absurd (hk.symm.trans hk') (by simp),
              fun _ _ => ⟨some slot, List.mem_append_right _ (List.mem_singleton_self _)⟩⟩
        | copied _ hk =>
            refine ⟨fun hk' => absurd (hk.symm.trans hk') (by simp), fun _ _ => ⟨some slot, ?_⟩⟩
            simp [recvCopied, recvCopying]
        | finished hstate _ => exact absurd hstate (by simp)
  | finishCpu hk =>
      refine ⟨_, [], (List.append_nil _).symm, (by simp), fun hcalled => ⟨hcalled, ?_, ?_⟩⟩
      · simp [recvSeries, RecvState.rank]
      · cases hw with
        | receivedCpu _ =>
            refine ⟨fun _ c hc hissued => ?_, fun hk' => absurd (hk.symm.trans hk') (by simp)⟩
            simp [recvReading, recvReady, recvReceivedCpu, recvReceivingCpu] at hissued ⊢
            exact hissued
        | finished hstate _ => exact absurd hstate (by simp)
  | read _ _ => exact ⟨false, _, rfl, by simp, by simp⟩
  | shortcut _ _ _ => exact ⟨false, _, rfl, by simp, by simp⟩
  | receive _ _ _ _ => exact ⟨false, _, rfl, by simp, by simp⟩
  | copy _ _ _ => exact ⟨false, _, rfl, by simp, by simp⟩
  | ask answers _ _ _ => exact ⟨false, _, rfl, by simp [callback_allocated], by simp⟩
  | finish slot answers => exact ⟨false, _, rfl, callback_returned _ _ _, by simp⟩

/-- In error nothing is called. -/
theorem recvSeries_silent (h : RecvMoves error prev op op' es) (herror : error = true)
    (c : RecvCall) : .issued c ∉ es := by
  cases h <;> simp_all [allocatedEvents, issued_callback]

/-- Each move owes to the series what it should. -/
theorem recvSeries_moved (hw : RecvStored error op w) (h : RecvMoves error prev op op' es) :
    SeriesMoved recvKind recvSeries error prev w op op' es where
  chunk := (recvMoves_chunk h).2
  passed := recvSeries_passed h
  reached := recvSeries_reached h
  follows := fun _ _ _ _ => trivial
  followed := fun _ _ => trivial
  released := recvSeries_released h
  given := recvSeries_given h
  unflagged := by
    show op'.callback = true → op.callback = true
    cases h <;> simp
  events := recvSeries_events hw h
  silent := recvSeries_silent h

/-- The fact holds of a chunk that is gone. -/
theorem recvGone_fact {n : Nat} {k : Chunk} (h : RecvGone error n k w) :
    recvSeries.Fact error n k w := by
  cases h with
  | skipped herror => exact ⟨by simp, fun _ hclear => absurd (herror.symm.trans hclear) (by simp)⟩
  | ready herror =>
      refine ⟨fun _ c hc hissued => ?_, fun _ hclear => absurd (herror.symm.trans hclear) (by simp)⟩
      simp [recvReading, recvReady] at hissued
      subst hissued
      cases hc
  | refused slot herror hk =>
      exact ⟨fun hk' => absurd (hk.symm.trans hk') (by simp),
        fun _ hclear => absurd (herror.symm.trans hclear) (by simp)⟩
  | unused slot herror hk =>
      exact ⟨fun hk' => absurd (hk.symm.trans hk') (by simp),
        fun _ hclear => absurd (herror.symm.trans hclear) (by simp)⟩
  | received slot herror hk =>
      exact ⟨fun hk' => absurd (hk.symm.trans hk') (by simp),
        fun _ hclear => absurd (herror.symm.trans hclear) (by simp)⟩
  | copied slot hk =>
      refine ⟨fun hk' => absurd (hk.symm.trans hk') (by simp), fun _ _ => ⟨some slot, ?_⟩⟩
      simp [recvCopied, recvCopying]
  | receivedCpu hk =>
      refine ⟨fun _ c hc hissued => ?_, fun hk' => absurd (hk.symm.trans hk') (by simp)⟩
      simp [recvReading, recvReady, recvReceivedCpu, recvReceivingCpu] at hissued ⊢
      exact hissued

/-- The fact holds of a chunk that has passed. -/
theorem recvStored_fact (h : RecvStored error op w)
    (hpassed : recvSeries.Passed op.chunk.isCpuBuffer op.state) :
    recvSeries.Fact error op.sequenceNumber op.chunk w := by
  cases h with
  | finished _ hgone => exact recvGone_fact hgone
  | invokedCopying slot hk =>
      refine ⟨fun hk' => absurd (hk.symm.trans hk') (by simp), fun _ _ => ⟨some slot, ?_⟩⟩
      simp [recvCopying]
  | invokedCopied slot hk =>
      refine ⟨fun hk' => absurd (hk.symm.trans hk') (by simp), fun _ _ => ⟨some slot, ?_⟩⟩
      simp [recvCopied, recvCopying]
  | _ => exact absurd hpassed (by simp [recvSeries, RecvState.rank])

/-- A chunk in the queue was emplaced. -/
theorem recvStored_mem (h : RecvStored error op w) :
    .emplaced op.sequenceNumber op.chunk op.chunk.isLast ∈ w := by
  cases h with
  | finished _ hgone =>
      cases hgone <;> simp [recvReading, recvReady, recvAsked, recvGot, recvReceiving,
        recvReceived, recvCopying, recvCopied, recvReceivingCpu, recvReceivedCpu]
  | _ => simp [recvReading, recvReady, recvAsked, recvGot, recvReceiving, recvReceived,
      recvCopying, recvCopied, recvReceivingCpu, recvReceivedCpu]

/-- A CPU chunk that cannot move has handed its place to the inner channel. -/
theorem recvSeries_inner {p : ChunkRecvOperation} (hp : RecvStored error p w)
    (hk : p.chunk.isCpuBuffer = true) (hreached : recvSeries.Reached p.state)
    (hstable : ¬ Enabled (advanceChunkRecvOperation error) prev p)
    (hinner : ∀ c : RecvCall, c.inner = some p.sequenceNumber → .issued c ∈ w → .reported c ∈ w) :
    p.state = .finished := by
  cases hp with
  | finished hstate _ => exact hstate
  | @receivingCpu n k callback _ =>
      have hreported := hinner (.receiveCpuBuffer n (.user k.devicePtr) k.length) rfl
        (by simp [recvReceivingCpu])
      simp [recvReading, recvReady, recvReceivingCpu] at hreported
  | receivedCpu _ =>
      exfalso
      refine hstable ?_
      simp_all [Enabled, advanceChunkRecvOperation, Operation.state]
  | uninitialized => cases hreached
  | reading => exact absurd hreached (by simp [recvSeries, RecvState.rank])
  | ready => exact absurd hreached (by simp [recvSeries, RecvState.rank])
  | _ => simp_all

/-- The chunks of a buffer being received follow the laws of a series. -/
theorem recvSeries_laws : SeriesLaws recvKind advanceChunkRecvOperation recvSeries where
  machine := recvMachine
  moved := by
    intro error t ht s op w prev hw hsource hcond
    obtain ⟨y, es, hrun, hlog, hmoves⟩ := recvMoves_of_fire s hw ht hsource hcond
    exact ⟨y, es, hrun, hlog, recvSeries_moved hw hmoves⟩
  passed_finished := fun _ => Nat.le_of_ble_eq_true rfl
  reached_finished := Nat.le_of_ble_eq_true rfl
  follows_finished := fun _ _ => trivial
  passed_released := fun _ hpassed => Or.inl hpassed
  captures_inner := by
    intro c n hc
    cases c with
    | receiveCpuBuffer m ptr length => exact hc
    | _ => exact nomatch hc
  stored_mem := fun _ _ _ h => ⟨_, recvStored_mem h⟩
  stored_fact := fun _ _ _ h hpassed => recvStored_fact h hpassed
  gone_fact := fun _ _ _ _ h => recvGone_fact h
  follows_stable := fun _ _ _ _ _ _ _ _ => trivial
  passed_inner := by
    intro e p w prev hp hk hreached hstable hinner
    show 5 ≤ p.state.rank
    rw [recvSeries_inner hp hk hreached hstable hinner]
    exact Nat.le_of_ble_eq_true rfl

end RecvSeries

-- ── Tasks ────────────────────────────────────────────────────────────────────

section Tasks

variable {Op State Call : Type} [Operation Op State] {K : Kind Op State Call}
  {ts : Bool → List (Transition (Staging Call) Op State)} {S : Series Op State Call}
  {error : Bool} {tensors n : Nat} {x : Queue Op (Staging Call)} {s : Staging Call}
  {es : List (Event Call)}

/-- **Append rule.** -/
theorem bufferInv_append (h : BufferInv K ts S error tensors x)
    (hhalf : HalfInv K ts error { x with outside := s }) (hlog : s.log = x.outside.log ++ es)
    (hlayout : ∀ e ∈ es, e.isLayout = false) (hother : ∀ b e, .callback b e ∉ es) :
    BufferInv K ts S error tensors { x with outside := s } := by
  refine ⟨hhalf, ?_, ?_, ?_⟩
  · show Layout tensors s.log
    rw [hlog]
    exact layout_append h.layout hlayout
  · show Complete none s.log
    rw [hlog]
    exact complete_append h.complete hlayout
  · show SeriesInv K S error s.log s.log x.ops
    rw [hlog]
    refine seriesInv_append h.series (fun e he before => callbackOk_other ?_ before)
    rintro b error' rfl
    exact hother b error' he

/-- The answers of the allocator are not about the layout. -/
theorem layout_allocated (answers : List (Nat × Option Nat)) :
    ∀ e ∈ (allocatedEvents answers : List (Event Call)), e.isLayout = false :=
  fun e he => isLayout_of_inner (inner_allocated answers e he)

/-- Closing the allocator keeps the invariant of the buffers. -/
theorem bufferInv_close (h : BufferInv K ts S error tensors x) :
    BufferInv K ts S error tensors { x with outside := x.outside.close } :=
  bufferInv_append h (halfInv_close h.half) (answered_log _ _) (layout_allocated _)
    (callback_allocated _)

/-- What the other users of the allocator do keeps the invariant of the buffers. -/
theorem bufferInv_other (h : BufferInv K ts S error tensors x) (slot : Option Nat) :
    BufferInv K ts S error tensors { x with outside := x.outside.other slot } := by
  have hhalf := halfInv_other h.half slot
  cases slot with
  | none =>
      exact bufferInv_append h hhalf (answered_log _ _) (layout_allocated _) (callback_allocated _)
  | some slot =>
      exact bufferInv_append h hhalf (answered_log _ _) (layout_allocated _) (callback_allocated _)

/-- A callback of a buffer that has no chunks. -/
theorem bufferInv_callback (h : BufferInv K ts S error tensors x) {b : Nat} {e : Bool}
    (hempty : ∀ buffer length, .submitted b buffer length ∈ x.outside.log →
      numChunks length = 0) :
    BufferInv K ts S error tensors { x with outside := x.outside.record (.callback b e) } := by
  have hes : ∀ e' ∈ [(.callback b e : Event Call)], e'.isLayout = false :=
    List.forall_mem_singleton.mpr rfl
  refine ⟨halfInv_record h.half rfl ⟨rfl, rfl, rfl⟩ rfl, layout_append h.layout hes,
    complete_append h.complete hes, seriesInv_record h.series ?_⟩
  intro b' e' heq buffer length hsub i hi
  obtain ⟨rfl, -⟩ := Event.callback.inj heq
  rw [hempty buffer length hsub] at hi
  exact absurd hi (Nat.not_lt_zero i)

/-- The slot of a callback goes back. -/
theorem bufferInv_drop {slot : Option Nat}
    (hhalf : HalfInv K ts error { x with outside := x.outside.drop error n slot })
    (hlayout : Layout tensors x.outside.log) (hcomplete : Complete none x.outside.log)
    (hs : SeriesInv K S error x.outside.log x.outside.log x.ops) :
    BufferInv K ts S error tensors { x with outside := x.outside.drop error n slot } := by
  cases error with
  | false => exact ⟨hhalf, hlayout, hcomplete, hs⟩
  | true =>
      cases slot with
      | none => exact ⟨hhalf, hlayout, hcomplete, hs⟩
      | some slot =>
          have hlog : (x.outside.drop true n (some slot)).log = x.outside.log
              ++ .dropped n slot
                :: allocatedEvents (Staging.own (x.outside.allocator.releaseChunk slot).2) := by
            rw [Staging.drop, answered_log, log_record, List.append_assoc]
            rfl
          have hes : ∀ e ∈ (.dropped n slot :: allocatedEvents
              (Staging.own (x.outside.allocator.releaseChunk slot).2) : List (Event Call)),
              e.isLayout = false := List.forall_mem_cons.mpr ⟨rfl, layout_allocated _⟩
          refine ⟨hhalf, ?_, ?_, ?_⟩
          · show Layout tensors (x.outside.drop true n (some slot)).log
            rw [hlog]
            exact layout_append hlayout hes
          · show Complete none (x.outside.drop true n (some slot)).log
            rw [hlog]
            exact complete_append hcomplete hes
          · show SeriesInv K S true (x.outside.drop true n (some slot)).log
              (x.outside.drop true n (some slot)).log x.ops
            rw [hlog]
            refine seriesInv_append hs (fun e he before => callbackOk_other ?_ before)
            rintro b error' rfl
            rcases List.mem_cons.mp he with heq | hrest
            · exact absurd heq (by simp)
            · exact callback_allocated _ b error' hrest

/-- What a task writes may leave the release of the operation as it was. -/
theorem writes_same {op : Op} {f : Op → Op} (h : BufferInv K ts S error tensors x)
    (hchunk : K.chunk (f op) = K.chunk op) (hcallback : S.callback (f op) = S.callback op)
    (hreleased : S.Released (f op) → S.Released op) : Writes K S x.ops op f := by
  refine ⟨hchunk, hcallback, fun pre post hsplit hid hnew => ?_⟩
  have hchain := h.series.released
  rw [hsplit] at hchain
  exact (chained_append.mp hchain).2.1 hid (hreleased hnew)

/-- Every earlier chunk of the CPU buffer of chunk `n` is back from the inner channel. -/
def EarlierDone (inner : Call → Option Nat) (n : Nat) (log : List (Event Call)) : Prop :=
  ∀ k callback, .emplaced n k callback ∈ log → k.isCpuBuffer = true →
    ∀ m k' callback', m < n → .emplaced m k' callback' ∈ log →
      k'.bufferSequenceNumber = k.bufferSequenceNumber →
      ∀ c, inner c = some m → .issued c ∈ log → .reported c ∈ log

/-- What was done earlier is so in a log that grew. -/
theorem earlierDone_grown {inner : Call → Option Nat} {log log' : List (Event Call)}
    (h : EarlierDone inner n log) (hgrown : Grown log log')
    (hsilent : ∀ c, .issued c ∈ log' → .issued c ∈ log) : EarlierDone inner n log' := by
  intro k callback hk hcpu m k' callback' hm hk' hsame c hc hissued
  exact hgrown.mem (h k callback (hgrown.mem_outer hk rfl) hcpu m k' callback' hm
    (hgrown.mem_outer hk' rfl) hsame c hc (hsilent c hissued))

/-- What a report of the inner channel writes is in order then. -/
theorem writes_inner {op : Op} {f : Op → Op} (hS : SeriesLaws K ts S)
    (h : BufferInv K ts S error tensors x) (hop : op ∈ x.ops)
    (hchunk : K.chunk (f op) = K.chunk op) (hcallback : S.callback (f op) = S.callback op)
    (hreleased : S.Released (f op) → S.Released op
      ∨ ((K.chunk op).isCpuBuffer = true ∧ S.Given (K.chunk op) (Operation.state op)))
    (hdone : EarlierDone S.inner (sequenceNumber op) x.outside.log) : Writes K S x.ops op f := by
  refine ⟨hchunk, hcallback, fun pre post hsplit hid hnew => ?_⟩
  rcases hreleased hnew with hold | ⟨hcpu, hgiven⟩
  · have hchain := h.series.released
    rw [hsplit] at hchain
    exact (chained_append.mp hchain).2.1 hid hold
  · obtain ⟨callback, hmem⟩ := hS.stored_mem _ _ _ (h.half.quiet.inv.tracked.stored op hop)
    rw [hcpu]
    exact passed_prev hS h hsplit hid hcpu hgiven (fun n k callback' hn hk hsame c hc hissued =>
      hdone _ callback (mem_history.mp hmem).1 hcpu n k callback' hn hk hsame c hc hissued)

variable [DecidableEq State]

/-- **Report rule.** -/
theorem bufferInv_report {op : Op} {f : Op → Op} {c : Call} (hS : SeriesLaws K ts S)
    (h : BufferInv K ts S error tensors x) (hop : op ∈ x.ops) (hn : sequenceNumber op = n)
    (hc : K.captures c = some n) (hstate : ∀ op, Operation.state (f op) = Operation.state op)
    (hnumber : ∀ op, sequenceNumber (f op) = sequenceNumber op)
    (hstored : K.Stored error (f op)
      (history (Event.about K.captures) n x.outside.log ++ [.reported c]))
    (hw : Writes K S x.ops op f) :
    BufferInv K ts S error tensors (Queue.advance (ts error)
      { x with outside := x.outside.record (.reported c), ops := modifyOperation n f x.ops } n) := by
  have hhalf := hS.machine.report h.half hop hn hc hstate hnumber hstored
  subst hn
  obtain ⟨hlayout, hcomplete, hs⟩ := hS.tell h hop (e := .reported c)
    ⟨hc, hstate, hnumber, rfl, nofun⟩ hstored rfl
    (slotInv_record h.half.quiet.inv.slots ⟨rfl, rfl, rfl⟩) hw (fun _ _ heq => nomatch heq) rfl rfl
  exact ⟨hhalf, hlayout, hcomplete, hs⟩

/-- **Grant rule.** -/
theorem bufferInv_grant {op : Op} {f : Op → Op} {slot : Option Nat}
    {rest : List (Nat × Option Nat)} (hS : SeriesLaws K ts S)
    (h : BufferInv K ts S error tensors x) (hgrants : x.outside.grants = (n, slot) :: rest)
    (hop : op ∈ x.ops) (hn : sequenceNumber op = n)
    (hstate : ∀ op, Operation.state (f op) = Operation.state op)
    (hnumber : ∀ op, sequenceNumber (f op) = sequenceNumber op)
    (hstored : K.Stored error (f op)
      (history (Event.about K.captures) n x.outside.log ++ [.delivered n slot !error]))
    (hw : Writes K S x.ops op f) {y : Queue Op (Staging Call)}
    (hy : y = Queue.advance (ts error)
      { x with outside := x.outside.deliver error n slot, ops := modifyOperation n f x.ops } n) :
    BufferInv K ts S error tensors { y with outside := y.outside.drop error n slot } := by
  have hhalf := hS.machine.grant h.half hgrants hop hn hstate hnumber hstored hy
  subst hn
  obtain ⟨hlayout, hcomplete, hs⟩ := hS.tell h hop (s := x.outside.deliver error _ slot)
    (e := .delivered (sequenceNumber op) slot !error) ⟨rfl, hstate, hnumber, rfl, nofun⟩ hstored rfl
    (slotInv_deliver h.half.quiet.inv.slots error hgrants) hw (fun _ _ heq => nomatch heq) rfl hy
  exact bufferInv_drop hhalf hlayout hcomplete hs

end Tasks

/-- The invariant of the buffers being sent. -/
abbrev SendBuffers := BufferInv sendKind advanceChunkSendOperation sendSeries

/-- The invariant of the buffers being received. -/
abbrev RecvBuffers := BufferInv recvKind advanceChunkRecvOperation recvSeries

section SendBuffers

variable {error : Bool} {x : SendQueue} {tensors : Nat}

/-- The loop over the chunks lays the rest of the buffer. -/
theorem sendBuffers_chunks {first b : Nat} {buffer : Buffer} {length : Nat} :
    ∀ (fuel i : Nat) (x : SendQueue), i + fuel = numChunks length → SendHalf false x →
      Laying first b buffer length i x.next x.outside.log →
      SeriesInv sendKind sendSeries false x.outside.log x.outside.log x.ops →
      SendBuffers false (b + 1) (sendChunks false buffer b length fuel (i * kSlotSize) x) := by
  intro fuel
  induction fuel with
  | zero =>
      intro i x hi hhalf hlaying hs
      obtain rfl : i = numChunks length := hi
      exact ⟨hhalf, hlaying.layout, laying_complete hlaying, hs⟩
  | succ fuel ih =>
      intro i x hi hhalf hlaying hs
      have hlt : i < numChunks length := by omega
      have hnext : i * kSlotSize + kSlotSize = (i + 1) * kSlotSize := (Nat.succ_mul ..).symm
      rw [sendChunks, if_pos (lt_numChunks.mp hlt), hnext]
      let op : ChunkSendOperation :=
        { sequenceNumber := x.next, chunk := buffer.piece b length i
          callback := (buffer.piece b length i).isLast }
      have hstored : SendStored false op [.emplaced x.next (buffer.piece b length i)
          (buffer.piece b length i).isLast] := .uninitialized
      have hopen : op.state ≠ .finished := by simp
      obtain ⟨hlaying', hs'⟩ := sendSeries_laws.emplace hhalf hlaying hs hlt rfl rfl hopen hstored
        (by simp [sendSeries, SendState.rank, op])
        (fun hgiven => absurd hgiven.2 (by simp)) (fun hflag => hflag) rfl
      exact ih (i + 1) _ (by omega) (sendHalf_emplace hhalf _) hlaying' hs'

/-- A call of `send` keeps the invariant of the buffers. -/
theorem sendBuffers_send (h : SendBuffers false tensors x) (buffer : Buffer) (length : Nat) :
    SendBuffers false (tensors + 1) (sendImplFromLoop false tensors buffer length x) := by
  have hhalf := halfInv_record h.half
    (e := .submitted tensors buffer length) rfl ⟨rfl, rfl, rfl⟩ rfl
  have hlaying := laying_submitted h.layout h.complete buffer length x.next
  have hs : SeriesInv sendKind sendSeries false (x.outside.log ++ [.submitted tensors buffer length])
      (x.outside.log ++ [.submitted tensors buffer length]) x.ops := by
    refine seriesInv_record h.series (callbackOk_other ?_ _)
    exact fun _ _ heq => nomatch heq
  rw [sendImplFromLoop]
  by_cases hzero : length = 0
  · rw [if_pos hzero]
    subst hzero
    have hempty : SendBuffers false (tensors + 1)
        { x with outside := x.outside.record (.submitted tensors buffer 0) } :=
      ⟨hhalf, hlaying.layout, laying_complete hlaying, hs⟩
    refine bufferInv_callback hempty (fun buffer' length' hsub => ?_)
    obtain ⟨-, rfl⟩ := hlaying.layout.unique _ _ _ _ _ hlaying.submitted hsub
    rfl
  · rw [if_neg hzero]
    have hchunks := sendBuffers_chunks (numChunks length) 0
      { x with outside := x.outside.record (.submitted tensors buffer length) } (Nat.zero_add _)
      hhalf hlaying hs
    rw [Nat.zero_mul] at hchunks
    exact hchunks

/-- A callback in order keeps the invariant of the buffers. -/
theorem sendBuffers_report (h : SendBuffers error tensors x) {call : SendCall}
    (houtstanding : x.outside.outstanding call) (hask : ∀ n length, call ≠ .allocate n length)
    (horder : ∀ n ptr length, call = .sendCpuBuffer n ptr length →
      EarlierDone SendCall.inner n x.outside.log) :
    SendBuffers error tensors (onSendReport error call x) := by
  cases call with
  | allocate n length => exact absurd rfl (hask n length)
  | writeReadyToSend n =>
      refine bufferInv_append h (sendHalf_report h.half houtstanding hask) rfl
        (List.forall_mem_singleton.mpr rfl) (fun b e hmem => ?_)
      exact nomatch List.mem_singleton.mp hmem
  | copyFromGpuToCpu n tmp k =>
      obtain ⟨op, hop, hn, hw⟩ := sendHalf_waiting h.half houtstanding hask rfl
      exact bufferInv_report sendSeries_laws h hop hn rfl (fun _ => rfl) (fun _ => rfl)
        (sendStored_copied hw (mem_history.mpr ⟨houtstanding.1, rfl⟩)
          (fun hmem => houtstanding.2 (mem_history.mp hmem).1))
        (writes_same h rfl rfl (fun hreleased => hreleased))
  | sendCpuBuffer n ptr length =>
      obtain ⟨op, hop, rfl, hw⟩ := sendHalf_waiting h.half houtstanding hask rfl
      refine bufferInv_report sendSeries_laws h hop rfl rfl (fun _ => rfl) (fun _ => rfl)
        (sendStored_sent hw (mem_history.mpr ⟨houtstanding.1, rfl⟩)
          (fun hmem => houtstanding.2 (mem_history.mp hmem).1))
        (writes_inner sendSeries_laws h hop rfl rfl ?_ (horder _ ptr length rfl))
      show (if op.chunk.isCpuBuffer = true then _ else _) →
        (if op.chunk.isCpuBuffer = true then _ else _) ∨ _
      cases hk : op.chunk.isCpuBuffer with
      | false => exact Or.inl
      | true =>
          rintro (hfinished | ⟨hsending, -⟩)
          · exact Or.inl (Or.inl hfinished)
          · exact Or.inr ⟨hk, hk, hsending⟩

/-- An answer of the allocator keeps the invariant of the buffers. -/
theorem sendBuffers_grant (h : SendBuffers error tensors x) {n : Nat} {slot : Option Nat}
    {rest : List (Nat × Option Nat)} (hgrants : x.outside.grants = (n, slot) :: rest)
    (hslot : error = false → slot.isSome = true) :
    SendBuffers error tensors (onSendGrant error n slot x) := by
  obtain ⟨op, hop, hn, hgot⟩ := sendHalf_granted h.half hgrants hslot
  have hgrant := bufferInv_grant sendSeries_laws h hgrants hop hn
    (f := fun op : ChunkSendOperation => { op with
      doneAllocatingCpuStagingBuffer := true
      tmpBuffer := if error then op.tmpBuffer else slot })
  exact hgrant (fun _ => rfl) (fun _ => rfl) hgot
    (writes_same h rfl rfl (fun hreleased => hreleased)) rfl

end SendBuffers

section RecvBuffers

variable {error : Bool} {x : RecvQueue} {tensors : Nat}

/-- The loop over the chunks lays the rest of the buffer. -/
theorem recvBuffers_chunks {first b : Nat} {buffer : Buffer} {length : Nat} :
    ∀ (fuel i : Nat) (x : RecvQueue), i + fuel = numChunks length → RecvHalf false x →
      Laying first b buffer length i x.next x.outside.log →
      SeriesInv recvKind recvSeries false x.outside.log x.outside.log x.ops →
      RecvBuffers false (b + 1) (recvChunks false buffer b length fuel (i * kSlotSize) x) := by
  intro fuel
  induction fuel with
  | zero =>
      intro i x hi hhalf hlaying hs
      obtain rfl : i = numChunks length := hi
      exact ⟨hhalf, hlaying.layout, laying_complete hlaying, hs⟩
  | succ fuel ih =>
      intro i x hi hhalf hlaying hs
      have hlt : i < numChunks length := by omega
      have hnext : i * kSlotSize + kSlotSize = (i + 1) * kSlotSize := (Nat.succ_mul ..).symm
      rw [recvChunks, if_pos (lt_numChunks.mp hlt), hnext]
      let op : ChunkRecvOperation :=
        { sequenceNumber := x.next, chunk := buffer.piece b length i
          callback := (buffer.piece b length i).isLast }
      have hstored : RecvStored false op [.emplaced x.next (buffer.piece b length i)
          (buffer.piece b length i).isLast] := .uninitialized
      have hopen : op.state ≠ .finished := by simp
      obtain ⟨hlaying', hs'⟩ := recvSeries_laws.emplace hhalf hlaying hs hlt rfl rfl hopen hstored
        (by simp [recvSeries, RecvState.rank, op])
        (fun hgiven => absurd hgiven.2 (by simp)) (fun hflag => hflag) rfl
      exact ih (i + 1) _ (by omega) (recvHalf_emplace hhalf _) hlaying' hs'

/-- A call of `recv` keeps the invariant of the buffers. -/
theorem recvBuffers_recv (h : RecvBuffers false tensors x) (buffer : Buffer) (length : Nat) :
    RecvBuffers false (tensors + 1) (recvImplFromLoop false tensors buffer length x) := by
  have hhalf := halfInv_record h.half
    (e := .submitted tensors buffer length) rfl ⟨rfl, rfl, rfl⟩ rfl
  have hlaying := laying_submitted h.layout h.complete buffer length x.next
  have hs : SeriesInv recvKind recvSeries false (x.outside.log ++ [.submitted tensors buffer length])
      (x.outside.log ++ [.submitted tensors buffer length]) x.ops := by
    refine seriesInv_record h.series (callbackOk_other ?_ _)
    exact fun _ _ heq => nomatch heq
  rw [recvImplFromLoop]
  by_cases hzero : length = 0
  · rw [if_pos hzero]
    subst hzero
    have hempty : RecvBuffers false (tensors + 1)
        { x with outside := x.outside.record (.submitted tensors buffer 0) } :=
      ⟨hhalf, hlaying.layout, laying_complete hlaying, hs⟩
    refine bufferInv_callback hempty (fun buffer' length' hsub => ?_)
    obtain ⟨-, rfl⟩ := hlaying.layout.unique _ _ _ _ _ hlaying.submitted hsub
    rfl
  · rw [if_neg hzero]
    have hchunks := recvBuffers_chunks (numChunks length) 0
      { x with outside := x.outside.record (.submitted tensors buffer length) } (Nat.zero_add _)
      hhalf hlaying hs
    rw [Nat.zero_mul] at hchunks
    exact hchunks

/-- A callback in order keeps the invariant of the buffers. -/
theorem recvBuffers_report (h : RecvBuffers error tensors x) {call : RecvCall}
    (houtstanding : x.outside.outstanding call) (hask : ∀ n length, call ≠ .allocate n length)
    (horder : ∀ n ptr length, call = .receiveCpuBuffer n ptr length →
      EarlierDone RecvCall.inner n x.outside.log) :
    RecvBuffers error tensors (onRecvReport error call x) := by
  cases call with
  | allocate n length => exact absurd rfl (hask n length)
  | readReadyToSend n =>
      obtain ⟨op, hop, hn, hw⟩ := recvHalf_waiting h.half houtstanding hask rfl
      exact bufferInv_report recvSeries_laws h hop hn rfl (fun _ => rfl) (fun _ => rfl)
        (recvStored_ready hw (mem_history.mpr ⟨houtstanding.1, rfl⟩)
          (fun hmem => houtstanding.2 (mem_history.mp hmem).1))
        (writes_same h rfl rfl (fun hreleased => hreleased))
  | receiveCpuBuffer n ptr length =>
      obtain ⟨op, hop, rfl, hw⟩ := recvHalf_waiting h.half houtstanding hask rfl
      refine bufferInv_report recvSeries_laws h hop rfl rfl (fun _ => rfl) (fun _ => rfl)
        (recvStored_received hw (mem_history.mpr ⟨houtstanding.1, rfl⟩)
          (fun hmem => houtstanding.2 (mem_history.mp hmem).1))
        (writes_inner recvSeries_laws h hop rfl rfl ?_ (horder _ ptr length rfl))
      rintro (hpassed | ⟨hk, hreceiving, -⟩)
      · exact Or.inl (Or.inl hpassed)
      · exact Or.inr ⟨hk, hk, hreceiving⟩
  | copyFromCpuToGpu n tmp k =>
      obtain ⟨op, hop, hn, hw⟩ := recvHalf_waiting h.half houtstanding hask rfl
      exact bufferInv_report recvSeries_laws h hop hn rfl (fun _ => rfl) (fun _ => rfl)
        (recvStored_copied hw (mem_history.mpr ⟨houtstanding.1, rfl⟩)
          (fun hmem => houtstanding.2 (mem_history.mp hmem).1))
        (writes_same h rfl rfl (fun hreleased => hreleased))

/-- An answer of the allocator keeps the invariant of the buffers. -/
theorem recvBuffers_grant (h : RecvBuffers error tensors x) {n : Nat} {slot : Option Nat}
    {rest : List (Nat × Option Nat)} (hgrants : x.outside.grants = (n, slot) :: rest)
    (hslot : error = false → slot.isSome = true) :
    RecvBuffers error tensors (onRecvGrant error n slot x) := by
  obtain ⟨op, hop, hn, hgot⟩ := recvHalf_granted h.half hgrants hslot
  have hgrant := bufferInv_grant recvSeries_laws h hgrants hop hn
    (f := fun op : ChunkRecvOperation => { op with
      doneAllocatingCpuStagingBuffer := true
      tmpBuffer := if error then op.tmpBuffer else slot })
  exact hgrant (fun _ => rfl) (fun _ => rfl) hgot
    (writes_same h rfl rfl (fun hreleased => hreleased)) rfl

end RecvBuffers

-- ── The channel ──────────────────────────────────────────────────────────────

/-- A channel between two tasks, with its buffers. -/
structure ChannelBuffers (x : ChannelImpl) : Prop where
  send : SendBuffers x.error x.nextTensorBeingSent x.send
  recv : RecvBuffers x.error x.nextTensorBeingReceived x.recv

/-- The inner channel reports a chunk of a CPU buffer when it has reported the earlier ones. -/
def InOrder (x : ChannelImpl) : Task → Prop
  | .sendReport (.sendCpuBuffer n _ _) _ => EarlierDone SendCall.inner n x.send.outside.log
  | .recvReport (.receiveCpuBuffer n _ _) _ => EarlierDone RecvCall.inner n x.recv.outside.log
  | _ => True

section Channel

variable {x : ChannelImpl}

/-- The invariant of the buffers contains that of the channel. -/
theorem ChannelBuffers.inv (h : ChannelBuffers x) : ChannelInv x := ⟨h.send.half, h.recv.half⟩

/-- Setting the error keeps the invariant and calls no other component. -/
theorem channelBuffers_setError (h : ChannelBuffers x) (failed : Bool) :
    ChannelBuffers (x.setError failed)
      ∧ (∀ c, .issued c ∈ (x.setError failed).send.outside.log → .issued c ∈ x.send.outside.log)
      ∧ (∀ c, .issued c ∈ (x.setError failed).recv.outside.log →
        .issued c ∈ x.recv.outside.log) := by
  rw [ChannelImpl.setError]
  by_cases hset : (x.error || !failed) = true
  · rw [if_pos hset]
    exact ⟨h, fun _ hc => hc, fun _ hc => hc⟩
  · rw [if_neg hset]
    have hclear : x.error = false := by
      revert hset
      cases x.error <;> simp
    have hsend := h.send
    have hrecv := h.recv
    rw [hclear] at hsend hrecv
    obtain ⟨hsend', hsendSilent⟩ := sendSeries_laws.fail hsend
    obtain ⟨hrecv', hrecvSilent⟩ := recvSeries_laws.fail hrecv
    exact ⟨⟨hsend', hrecv'⟩, hsendSilent, hrecvSilent⟩

/-- A call of `send` keeps the invariant of the channel. -/
theorem channelBuffers_sendFromLoop (h : ChannelBuffers x) (buffer : Buffer) (length : Nat) :
    ChannelBuffers (x.sendFromLoop buffer length) := by
  refine ⟨?_, h.recv⟩
  show SendBuffers x.error (x.nextTensorBeingSent + 1) (if x.error = true then _ else _)
  have hsend := h.send
  by_cases herror : x.error = true
  · rw [if_pos herror]
    -- no buffer of this number was submitted
    refine bufferInv_mono (bufferInv_callback hsend (fun buffer' length' hsub => ?_)) (Nat.le_succ _)
    exact absurd (hsend.layout.bounded _ _ _ hsub) (Nat.lt_irrefl _)
  · rw [if_neg herror]
    rw [Bool.not_eq_true] at herror
    rw [herror] at hsend ⊢
    exact sendBuffers_send hsend buffer length

/-- A call of `recv` keeps the invariant of the channel. -/
theorem channelBuffers_recvFromLoop (h : ChannelBuffers x) (buffer : Buffer) (length : Nat) :
    ChannelBuffers (x.recvFromLoop buffer length) := by
  refine ⟨h.send, ?_⟩
  show RecvBuffers x.error (x.nextTensorBeingReceived + 1) (if x.error = true then _ else _)
  have hrecv := h.recv
  by_cases herror : x.error = true
  · rw [if_pos herror]
    -- no buffer of this number was submitted
    refine bufferInv_mono (bufferInv_callback hrecv (fun buffer' length' hsub => ?_)) (Nat.le_succ _)
    exact absurd (hrecv.layout.bounded _ _ _ hsub) (Nat.lt_irrefl _)
  · rw [if_neg herror]
    rw [Bool.not_eq_true] at herror
    rw [herror] at hrecv ⊢
    exact recvBuffers_recv hrecv buffer length

/-- An answer to the sending half keeps the invariant of the channel. -/
theorem channelBuffers_sendGrant (h : ChannelBuffers x) : ChannelBuffers x.sendGrant := by
  rw [ChannelImpl.sendGrant]
  cases hgrants : x.send.outside.grants with
  | nil => exact h
  | cons grant rest =>
      obtain ⟨n, slot⟩ := grant
      obtain ⟨hinv, -, -⟩ := channelBuffers_setError h slot.isNone
      obtain ⟨-, herror, hgrown, -⟩ := channelInv_setError h.inv slot.isNone
      obtain ⟨more, hmore⟩ :=
        grants_grown h.send.half.quiet.inv.slots hinv.send.half.quiet.inv.slots hgrown
      rw [hgrants] at hmore
      refine ⟨sendBuffers_grant hinv.send hmore (fun hclear => ?_), hinv.recv⟩
      rw [herror] at hclear
      cases slot with
      | none => rw [Option.isNone_none, Bool.or_true] at hclear; exact absurd hclear (by simp)
      | some slot => rfl

/-- An answer to the receiving half keeps the invariant of the channel. -/
theorem channelBuffers_recvGrant (h : ChannelBuffers x) : ChannelBuffers x.recvGrant := by
  rw [ChannelImpl.recvGrant]
  cases hgrants : x.recv.outside.grants with
  | nil => exact h
  | cons grant rest =>
      obtain ⟨n, slot⟩ := grant
      obtain ⟨hinv, -, -⟩ := channelBuffers_setError h slot.isNone
      obtain ⟨-, herror, -, hgrown⟩ := channelInv_setError h.inv slot.isNone
      obtain ⟨more, hmore⟩ :=
        grants_grown h.recv.half.quiet.inv.slots hinv.recv.half.quiet.inv.slots hgrown
      rw [hgrants] at hmore
      refine ⟨hinv.send, recvBuffers_grant hinv.recv hmore (fun hclear => ?_)⟩
      rw [herror] at hclear
      cases slot with
      | none => rw [Option.isNone_none, Bool.or_true] at hclear; exact absurd hclear (by simp)
      | some slot => rfl

/-- **Step lemma.** -/
theorem channelBuffers_step (h : ChannelBuffers x) (task : Task) (henabled : x.enabled task)
    (horder : InOrder x task) : ChannelBuffers (x.step task) := by
  cases task with
  | send buffer length => exact channelBuffers_sendFromLoop h buffer length
  | recv buffer length => exact channelBuffers_recvFromLoop h buffer length
  | close => exact (channelBuffers_setError h true).1
  | closeContext =>
      obtain ⟨hinv, -⟩ := channelBuffers_setError h true
      exact ⟨bufferInv_close hinv.send, bufferInv_close hinv.recv⟩
  | sendGrant => exact channelBuffers_sendGrant h
  | recvGrant => exact channelBuffers_recvGrant h
  | sendReport call failed =>
      obtain ⟨hinv, hsilent, -⟩ := channelBuffers_setError h failed
      obtain ⟨-, -, hgrown, -⟩ := channelInv_setError h.inv failed
      refine ⟨sendBuffers_report hinv.send (outstanding_grown hgrown henabled.1) henabled.2 ?_,
        hinv.recv⟩
      rintro n ptr length rfl
      exact earlierDone_grown horder hgrown hsilent
  | recvReport call failed =>
      obtain ⟨hinv, -, hsilent⟩ := channelBuffers_setError h failed
      obtain ⟨-, -, -, hgrown⟩ := channelInv_setError h.inv failed
      refine ⟨hinv.send,
        recvBuffers_report hinv.recv (outstanding_grown hgrown henabled.1) henabled.2 ?_⟩
      rintro n ptr length rfl
      exact earlierDone_grown horder hgrown hsilent
  | sendOther slot => exact ⟨bufferInv_other h.send slot, h.recv⟩
  | recvOther slot => exact ⟨h.send, bufferInv_other h.recv slot⟩

/-- **Run lemma.** -/
theorem channelBuffers_reachable (h : ChannelImpl.Reachable InOrder x) : ChannelBuffers x := by
  induction h with
  | init contextClosed => exact ⟨bufferInv_init, bufferInv_init⟩
  | step _ task henabled horder ih => exact channelBuffers_step ih task henabled horder

end Channel

-- ── What a callback stands for ───────────────────────────────────────────────

/-- What a half promises about its buffers.  `inner` finds the calls of the inner channel for a
    chunk, and `Staged` is what becomes of a chunk of a CUDA buffer before its callback. -/
structure BufferSafety {Call : Type} (inner : Call → Option Nat)
    (Staged : Nat → Chunk → List (Event Call) → Prop) (log : List (Event Call)) : Prop where
  /-- The chunks of a buffer tile it. -/
  tiled : ∀ b buffer length, .submitted b buffer length ∈ log →
    Tiles buffer.ptr length ((chunksOf b log).map (fun chunk => chunk.2.1))
  /-- The last one, and no other, carries the callback. -/
  flagged : ∀ b pre n k callback post, chunksOf b log = pre ++ (n, k, callback) :: post →
    (callback = true ↔ post = [])
  /-- A callback finds all chunks of its buffer in the queue. -/
  whole : Always (fun before e => ∀ b error, e = .callback b error →
    ∀ buffer length, .submitted b buffer length ∈ before →
      Tiles buffer.ptr length ((chunksOf b before).map (fun chunk => chunk.2.1))) log
  /-- The inner channel has completed every chunk of a CPU buffer that it was given. -/
  cpu : Always (fun before e => ∀ b error, e = .callback b error →
    ∀ n k callback, (n, k, callback) ∈ chunksOf b before → k.isCpuBuffer = true →
      ∀ c, inner c = some n → .issued c ∈ before → .reported c ∈ before) log
  /-- Without error, every chunk of a CUDA buffer was staged. -/
  cuda : Always (fun before e => ∀ b, e = .callback b false →
    ∀ n k callback, (n, k, callback) ∈ chunksOf b before → k.isCpuBuffer = false →
      Staged n k before) log

/-- A chunk was copied to its slot. -/
def copiedToStaging (n : Nat) (k : Chunk) (log : SendHistory) : Prop :=
  ∃ slot, .reported (.copyFromGpuToCpu n slot k) ∈ log

/-- The copy of a chunk to the device was issued. -/
def copyToDeviceIssued (n : Nat) (k : Chunk) (log : RecvHistory) : Prop :=
  ∃ slot, .issued (.copyFromCpuToGpu n slot k) ∈ log

section Safety

variable {Op State Call : Type} [Operation Op State] {K : Kind Op State Call}
  {ts : Bool → List (Transition (Staging Call) Op State)} {S : Series Op State Call}
  {error : Bool} {tensors b first : Nat} {x : Queue Op (Staging Call)}
  {log before after : List (Event Call)} {buffer : Buffer} {length : Nat}

/-- The pieces of a buffer, without their numbers. -/
theorem map_pieces (first b : Nat) (buffer : Buffer) (length m : Nat) :
    (pieces first b buffer length m).map (fun chunk => chunk.2.1)
      = (List.range' 0 m).map (buffer.piece b length) := by
  rw [pieces, List.map_map, List.range_eq_range']
  rfl

/-- The pieces of a buffer tile it. -/
theorem tiles_whole (first b : Nat) (buffer : Buffer) (length : Nat) :
    Tiles buffer.ptr length
      ((pieces first b buffer length (numChunks length)).map (fun chunk => chunk.2.1)) := by
  have htiles := tiles_pieces buffer b length (numChunks length) 0 (Nat.zero_add _)
  rw [Nat.zero_mul] at htiles
  rw [map_pieces]
  exact htiles

/-- The chunks that stand in a part of the log are the first ones of their buffer. -/
theorem chunksOf_before (hlog : log = before ++ after)
    (hwhole : chunksOf b log = pieces first b buffer length (numChunks length)) :
    ∃ m ≤ numChunks length, chunksOf b before = pieces first b buffer length m := by
  rw [hlog, chunksOf, List.filterMap_append] at hwhole
  have hle : (chunksOf b before).length ≤ numChunks length := by
    have hlength := congrArg List.length hwhole
    rw [List.length_append, pieces, List.length_map, List.length_range] at hlength
    rw [chunksOf]
    omega
  refine ⟨(chunksOf b before).length, hle, ?_⟩
  have htake := congrArg (List.take (chunksOf b before).length) hwhole
  rw [← chunksOf, List.take_left, pieces, ← List.map_take, List.take_range,
    Nat.min_eq_left hle] at htake
  exact htake

/-- The chunks of a buffer at its callback. -/
theorem callback_chunks {e : Bool} (h : BufferInv K ts S error tensors x)
    (hlog : x.outside.log = before ++ .callback b e :: after)
    (hsub : .submitted b buffer length ∈ before) :
    ∃ first, chunksOf b before = pieces first b buffer length (numChunks length)
      ∧ ∀ i < numChunks length, S.Fact e (first + i) (buffer.piece b length i)
        (history (Event.about K.captures) (first + i) before) := by
  have hmem : .submitted b buffer length ∈ x.outside.log := by
    rw [hlog]
    exact List.mem_append_left _ hsub
  obtain ⟨first, hwhole⟩ := h.complete b buffer length nofun hmem
  obtain ⟨m, hm, hbefore⟩ := chunksOf_before hlog hwhole
  have hfacts : ∀ i < numChunks length, i < m ∧ S.Fact e (first + i) (buffer.piece b length i)
      (history (Event.about K.captures) (first + i) before) := by
    intro i hi
    obtain ⟨n, callback, hemplaced, hfact⟩ :=
      h.series.checked before _ after hlog b e rfl buffer length hsub i hi
    have hin := mem_chunksOf.mpr ⟨hemplaced, piece_buffer ..⟩
    rw [hbefore] at hin
    obtain ⟨i', hi', rfl, hpiece, -⟩ := mem_pieces.mp hin
    obtain rfl : i = i' := by
      have hid := congrArg Chunk.chunkId hpiece
      rw [piece_chunkId, piece_chunkId] at hid
      exact hid
    exact ⟨hi', hfact⟩
  obtain rfl : m = numChunks length := by
    by_contra hne
    exact Nat.lt_irrefl m (hfacts m (Nat.lt_of_le_of_ne hm hne)).1
  exact ⟨first, hbefore, fun i hi => (hfacts i hi).2⟩

/-- The fact of a callback about each chunk that it finds. -/
theorem callback_fact {e : Bool} (h : BufferInv K ts S error tensors x)
    (hlog : x.outside.log = before ++ .callback b e :: after) {n : Nat} {k : Chunk}
    {callback : Bool} (hmem : (n, k, callback) ∈ chunksOf b before) :
    S.Fact e n k (history (Event.about K.captures) n before) := by
  obtain ⟨hemplaced, rfl⟩ := mem_chunksOf.mp hmem
  obtain ⟨before', after', hbefore⟩ := List.append_of_mem hemplaced
  have hlog' : x.outside.log = before' ++ .emplaced n k callback
      :: (after' ++ .callback k.bufferSequenceNumber e :: after) := by
    rw [hlog, hbefore, List.append_assoc, List.cons_append]
  obtain ⟨buffer, length, hsub⟩ := h.layout.known before' _ _ hlog' n k callback rfl
  have hsub' : .submitted k.bufferSequenceNumber buffer length ∈ before := by
    rw [hbefore]
    exact List.mem_append_left _ hsub
  obtain ⟨first, hchunks, hfacts⟩ := callback_chunks h hlog hsub'
  rw [hchunks] at hmem
  obtain ⟨i, hi, rfl, hk, -⟩ := mem_pieces.mp hmem
  have hfact := hfacts i hi
  rw [← hk] at hfact
  exact hfact

/-- Only the last piece of a buffer carries its callback. -/
theorem pieces_flagged {pre post : List (Nat × Chunk × Bool)} {n : Nat} {k : Chunk}
    {callback : Bool} (hsplit : pieces first b buffer length (numChunks length)
      = pre ++ (n, k, callback) :: post) : callback = true ↔ post = [] := by
  have hlength := congrArg List.length hsplit
  rw [pieces, List.length_map, List.length_range, List.length_append, List.length_cons] at hlength
  have hget := congrArg (fun l => l[pre.length]?) hsplit
  simp only [List.getElem?_append_right (Nat.le_refl _), Nat.sub_self, List.getElem?_cons_zero,
    pieces, List.getElem?_map] at hget
  rw [List.getElem?_range (by omega)] at hget
  obtain ⟨-, hrest⟩ := Prod.mk.inj (Option.some.inj hget)
  obtain ⟨-, rfl⟩ := Prod.mk.inj hrest
  rw [decide_eq_true_eq, ← List.length_eq_zero_iff]
  omega

/-- Everything a half promises is in its invariant. -/
theorem bufferSafety_of {Staged : Nat → Chunk → List (Event Call) → Prop}
    (h : BufferInv K ts S error tensors x)
    (hcpu : ∀ e n k before, S.Fact e n k (history (Event.about K.captures) n before) →
      k.isCpuBuffer = true → ∀ c, S.inner c = some n → .issued c ∈ before → .reported c ∈ before)
    (hcuda : ∀ n k before, S.Fact false n k (history (Event.about K.captures) n before) →
      k.isCpuBuffer = false → Staged n k before) :
    BufferSafety S.inner Staged x.outside.log := by
  refine ⟨?_, ?_, ?_, ?_, ?_⟩
  · intro b buffer length hsub
    obtain ⟨first, hchunks⟩ := h.complete b buffer length nofun hsub
    rw [hchunks]
    exact tiles_whole first b buffer length
  · intro b pre n k callback post hsplit
    have hmem : (n, k, callback) ∈ chunksOf b x.outside.log := by
      rw [hsplit]
      exact List.mem_append_right _ (List.mem_cons_self ..)
    obtain ⟨hemplaced, rfl⟩ := mem_chunksOf.mp hmem
    obtain ⟨buffer, length, hsub⟩ := h.layout.submitted hemplaced
    obtain ⟨first, hchunks⟩ := h.complete _ buffer length nofun hsub
    exact pieces_flagged (hchunks.symm.trans hsplit)
  · rintro before _ after hlog b error' rfl buffer length hsub
    obtain ⟨first, hchunks, -⟩ := callback_chunks h hlog hsub
    rw [hchunks]
    exact tiles_whole first b buffer length
  · rintro before _ after hlog b error' rfl n k callback hmem hk
    exact hcpu error' n k before (callback_fact h hlog hmem) hk
  · rintro before _ after hlog b rfl n k callback hmem hk
    exact hcuda n k before (callback_fact h hlog hmem) hk

end Safety

/-- **Buffer completion.**  In every run in which the inner channel reports the chunks of each
    CPU buffer in order, a callback comes when all chunks of its buffer are done. -/
theorem buffer_completion {x : ChannelImpl} (h : ChannelImpl.Reachable InOrder x) :
    BufferSafety SendCall.inner copiedToStaging x.send.outside.log
      ∧ BufferSafety RecvCall.inner copyToDeviceIssued x.recv.outside.log := by
  have hinv := channelBuffers_reachable h
  constructor
  · refine bufferSafety_of hinv.send ?_ ?_
    · intro e n k before hfact hk c hc hissued
      have hcaptures := sendSeries_laws.captures_inner c n hc
      exact (mem_history.mp (hfact.1 hk c hc (mem_history.mpr ⟨hissued, hcaptures⟩))).1
    · intro n k before hfact hk
      obtain ⟨slot, hmem⟩ := hfact.2 hk rfl
      exact ⟨slot, (mem_history.mp hmem).1⟩
  · refine bufferSafety_of hinv.recv ?_ ?_
    · intro e n k before hfact hk c hc hissued
      have hcaptures := recvSeries_laws.captures_inner c n hc
      exact (mem_history.mp (hfact.1 hk c hc (mem_history.mpr ⟨hissued, hcaptures⟩))).1
    · intro n k before hfact hk
      obtain ⟨slot, hmem⟩ := hfact.2 hk rfl
      exact ⟨slot, (mem_history.mp hmem).1⟩

/-- It is enough that every call of an earlier chunk is back. -/
theorem earlierDone_of_all {Call : Type} [DecidableEq Call] {inner : Call → Option Nat} {n : Nat}
    {log : List (Event Call)} (h : ∀ e ∈ log, (match e with
      | .issued c => decide ((inner c).any (· < n) = true → .reported c ∈ log)
      | _ => true) = true) : EarlierDone inner n log := by
  intro k callback _ _ m k' callback' hm _ _ c hc hissued
  have hback := of_decide_eq_true (h _ hissued)
  refine hback ?_
  rw [hc]
  exact decide_eq_true hm

/-- Two chunks of a CPU buffer each way, which the inner channel reports in order. -/
def sampleTasks : List Task :=
  [.send (.cpu 0) (kSlotSize + 1), .recv (.cpu 0) (kSlotSize + 1),
    .recvReport (.readReadyToSend 0) false, .recvReport (.readReadyToSend 1) false,
    .sendReport (.sendCpuBuffer 0 (.user 0) kSlotSize) false,
    .recvReport (.receiveCpuBuffer 0 (.user 0) kSlotSize) false,
    .sendReport (.sendCpuBuffer 1 (.user kSlotSize) 1) false,
    .recvReport (.receiveCpuBuffer 1 (.user kSlotSize) 1) false]

/-- The channel after the first of these tasks. -/
def sampleAfter (n : Nat) : ChannelImpl :=
  (sampleTasks.take n).foldl ChannelImpl.step (.init false)

theorem buffer_completion_two :
    (.callback 0 false ∈ (sampleAfter 8).send.outside.log
        ∧ .callback 0 false ∈ (sampleAfter 8).recv.outside.log)
      ∧ BufferSafety SendCall.inner copiedToStaging (sampleAfter 8).send.outside.log
      ∧ BufferSafety RecvCall.inner copyToDeviceIssued (sampleAfter 8).recv.outside.log := by
  have hsubmitted : ChannelImpl.Reachable InOrder (sampleAfter 2) :=
    .step (.step (.init false) (.send (.cpu 0) (kSlotSize + 1)) trivial trivial)
      (.recv (.cpu 0) (kSlotSize + 1)) trivial trivial
  have hready : ChannelImpl.Reachable InOrder (sampleAfter 4) :=
    .step (.step hsubmitted (.recvReport (.readReadyToSend 0) false)
        ⟨⟨by decide, by decide⟩, nofun⟩ trivial)
      (.recvReport (.readReadyToSend 1) false) ⟨⟨by decide, by decide⟩, nofun⟩ trivial
  have hfirst : ChannelImpl.Reachable InOrder (sampleAfter 6) :=
    .step (.step hready (.sendReport (.sendCpuBuffer 0 (.user 0) kSlotSize) false)
        ⟨⟨by decide, by decide⟩, nofun⟩ (earlierDone_of_all (by decide)))
      (.recvReport (.receiveCpuBuffer 0 (.user 0) kSlotSize) false)
      ⟨⟨by decide, by decide⟩, nofun⟩ (earlierDone_of_all (by decide))
  have hsecond : ChannelImpl.Reachable InOrder (sampleAfter 8) :=
    .step (.step hfirst (.sendReport (.sendCpuBuffer 1 (.user kSlotSize) 1) false)
        ⟨⟨by decide, by decide⟩, nofun⟩ (earlierDone_of_all (by decide)))
      (.recvReport (.receiveCpuBuffer 1 (.user kSlotSize) 1) false)
      ⟨⟨by decide, by decide⟩, nofun⟩ (earlierDone_of_all (by decide))
  exact ⟨⟨by decide, by decide⟩, buffer_completion hsecond⟩

/-- Two chunks of a CPU buffer.  The second one is sent before the first, and the callback
    tells the user that the buffer is free. -/
theorem buffer_completion_early :
    ∃ x, ChannelImpl.Reachable (fun _ _ => True) x
      ∧ ¬ BufferSafety SendCall.inner copiedToStaging x.send.outside.log := by
  refine ⟨((ChannelImpl.init false).step (.send (.cpu 0) (kSlotSize + 1))).step
      (.sendReport (.sendCpuBuffer 1 (.user kSlotSize) 1) false),
    .step (.step (.init false) (.send (.cpu 0) (kSlotSize + 1)) trivial trivial) _
      ⟨⟨by decide, by decide⟩, nofun⟩ trivial, ?_⟩
  intro h
  have hreported := h.cpu _ (.callback 0 false) [] rfl 0 false rfl 0
    ((Buffer.cpu 0).chunk 0 (kSlotSize + 1) 0) false (by decide) rfl
    (.sendCpuBuffer 0 (.user 0) kSlotSize) rfl (by decide)
  revert hreported
  decide

end TpCudaBasic
