import Mathlib.Tactic.Common
import Tensorpipe.CudaBasicSlotProofs

/-! # Runs of the cuda_basic channel

    A report, or a grant, finds the operation that waits for it: the history of the chunk
    says that nothing else can be the case.  So every task keeps the invariants of both
    halves, and they hold between any two tasks of any run. -/

namespace TpCudaBasic

open TpStateMachine TpAllocator

-- ── Histories and reports ────────────────────────────────────────────────────

section SendReports

variable {error : Bool} {op : ChunkSendOperation} {w : SendHistory} {n : Nat} {k : Chunk}

/-- All that a chunk gone from the queue asked of others, but for its slot, was reported. -/
theorem sendGone_reported (h : SendGone error n k w) {c : SendCall} (hc : .issued c ∈ w)
    (hask : ∀ m length, c ≠ .allocate m length) : .reported c ∈ w := by
  cases h <;> simp_all [sendAsked, sendGot, sendCopying, sendCopied, sendSending, sendSent,
    sendSendingCpu, sendSentCpu]

/-- A chunk gone from the queue that asked for a slot was answered. -/
theorem sendGone_delivered (h : SendGone error n k w) {m length : Nat}
    (hc : .issued (.allocate m length) ∈ w) : ∃ slot stored, .delivered n slot stored ∈ w := by
  cases h <;> simp_all [sendAsked, sendGot, sendCopying, sendCopied, sendSending, sendSent,
    sendSendingCpu, sendSentCpu]

/-- The report of the copy to the staging buffer agrees with the flag it sets. -/
theorem sendStored_copied {m : Nat} {tmp : Option Nat} {k' : Chunk} (hw : SendStored error op w)
    (hc : .issued (.copyFromGpuToCpu m tmp k') ∈ w)
    (hno : .reported (.copyFromGpuToCpu m tmp k') ∉ w) :
    SendStored error { op with doneCopyingFromGpuToCpu := true }
      (w ++ [.reported (.copyFromGpuToCpu m tmp k')]) := by
  cases hw with
  | copying slot hk =>
      simp [sendAsked, sendGot, sendCopying] at hc
      obtain ⟨rfl, rfl, rfl⟩ := hc
      exact .copied slot hk
  | finished _ hgone => exact absurd (sendGone_reported hgone hc (by simp)) hno
  | _ => simp_all [sendAsked, sendGot, sendCopying, sendCopied, sendSending, sendSent,
      sendSendingCpu, sendSentCpu]

/-- The report of the CPU channel agrees with the flag it sets. -/
theorem sendStored_sent {m : Nat} {ptr : CpuPtr} {length : Nat} (hw : SendStored error op w)
    (hc : .issued (.sendCpuBuffer m ptr length) ∈ w)
    (hno : .reported (.sendCpuBuffer m ptr length) ∉ w) :
    SendStored error { op with doneSendingCpuBuffer := true }
      (w ++ [.reported (.sendCpuBuffer m ptr length)]) := by
  cases hw with
  | sending slot hk =>
      simp [sendAsked, sendGot, sendCopying, sendCopied, sendSending] at hc
      obtain ⟨rfl, rfl, rfl⟩ := hc
      exact .sent slot hk
  | sendingCpu hk =>
      simp [sendSendingCpu] at hc
      obtain ⟨rfl, rfl, rfl⟩ := hc
      exact .sentCpu hk
  | finished _ hgone => exact absurd (sendGone_reported hgone hc (by simp)) hno
  | _ => simp_all [sendAsked, sendGot, sendCopying, sendCopied, sendSending, sendSent,
      sendSendingCpu, sendSentCpu]

/-- The answer of the allocator agrees with the flag it sets and the slot it stores. -/
theorem sendStored_granted {m length : Nat} (slot : Option Nat) (hw : SendStored error op w)
    (hc : .issued (.allocate m length) ∈ w)
    (hno : ∀ slot stored, .delivered op.sequenceNumber slot stored ∉ w)
    (hslot : error = false → slot.isSome = true) :
    SendStored error { op with
        doneAllocatingCpuStagingBuffer := true
        tmpBuffer := if error then op.tmpBuffer else slot }
      (w ++ [.delivered op.sequenceNumber slot !error]) := by
  cases hw with
  | allocating hk =>
      cases error with
      | true => exact .refused slot rfl hk
      | false =>
          obtain ⟨slot, rfl⟩ := Option.isSome_iff_exists.mp (hslot rfl)
          exact .allocated slot hk
  | finished _ hgone =>
      obtain ⟨slot, stored, hmem⟩ := sendGone_delivered hgone hc
      exact absurd hmem (hno slot stored)
  | _ => simp_all [sendAsked, sendGot, sendCopying, sendCopied, sendSending, sendSent,
      sendSendingCpu, sendSentCpu]

end SendReports

section RecvReports

variable {error : Bool} {op : ChunkRecvOperation} {w : RecvHistory} {n : Nat} {k : Chunk}

/-- All that a chunk gone from the queue asked of others, but for its slot, was reported. -/
theorem recvGone_reported (h : RecvGone error n k w) {c : RecvCall} (hc : .issued c ∈ w)
    (hask : ∀ m length, c ≠ .allocate m length) : .reported c ∈ w := by
  cases h <;> simp_all [recvReading, recvReady, recvAsked, recvGot, recvReceiving, recvReceived,
    recvCopying, recvCopied, recvReceivingCpu, recvReceivedCpu]

/-- A chunk gone from the queue that asked for a slot was answered. -/
theorem recvGone_delivered (h : RecvGone error n k w) {m length : Nat}
    (hc : .issued (.allocate m length) ∈ w) : ∃ slot stored, .delivered n slot stored ∈ w := by
  cases h <;> simp_all [recvReading, recvReady, recvAsked, recvGot, recvReceiving, recvReceived,
    recvCopying, recvCopied, recvReceivingCpu, recvReceivedCpu]

/-- The report of the notification agrees with the flag it sets. -/
theorem recvStored_ready {m : Nat} (hw : RecvStored error op w)
    (hc : .issued (.readReadyToSend m) ∈ w) (hno : .reported (.readReadyToSend m) ∉ w) :
    RecvStored error { op with doneReadingReadyToSend := true }
      (w ++ [.reported (.readReadyToSend m)]) := by
  cases hw with
  | reading =>
      simp [recvReading] at hc
      obtain rfl := hc
      exact .ready
  | finished _ hgone => exact absurd (recvGone_reported hgone hc (by simp)) hno
  | _ => simp_all [recvReading, recvReady, recvAsked, recvGot, recvReceiving, recvReceived,
      recvCopying, recvCopied, recvReceivingCpu, recvReceivedCpu]

/-- The report of the CPU channel agrees with the flag it sets. -/
theorem recvStored_received {m : Nat} {ptr : CpuPtr} {length : Nat}
    (hw : RecvStored error op w) (hc : .issued (.receiveCpuBuffer m ptr length) ∈ w)
    (hno : .reported (.receiveCpuBuffer m ptr length) ∉ w) :
    RecvStored error { op with doneReceivingCpuBuffer := true }
      (w ++ [.reported (.receiveCpuBuffer m ptr length)]) := by
  cases hw with
  | receiving slot hk =>
      simp [recvReading, recvReady, recvAsked, recvGot, recvReceiving] at hc
      obtain ⟨rfl, rfl, rfl⟩ := hc
      exact .received slot hk
  | receivingCpu hk =>
      simp [recvReading, recvReady, recvReceivingCpu] at hc
      obtain ⟨rfl, rfl, rfl⟩ := hc
      exact .receivedCpu hk
  | finished _ hgone => exact absurd (recvGone_reported hgone hc (by simp)) hno
  | _ => simp_all [recvReading, recvReady, recvAsked, recvGot, recvReceiving, recvReceived,
      recvCopying, recvCopied, recvReceivingCpu, recvReceivedCpu]

/-- The report of the copy from the staging buffer agrees with the flag it sets. -/
theorem recvStored_copied {m : Nat} {tmp : Option Nat} {k' : Chunk} (hw : RecvStored error op w)
    (hc : .issued (.copyFromCpuToGpu m tmp k') ∈ w)
    (hno : .reported (.copyFromCpuToGpu m tmp k') ∉ w) :
    RecvStored error { op with doneCopyingFromCpuToGpu := true }
      (w ++ [.reported (.copyFromCpuToGpu m tmp k')]) := by
  cases hw with
  | copying slot hk =>
      simp [recvReading, recvReady, recvAsked, recvGot, recvReceiving, recvReceived,
        recvCopying] at hc
      obtain ⟨rfl, rfl, rfl⟩ := hc
      exact .copied slot hk
  | invokedCopying slot hk =>
      simp [recvReading, recvReady, recvAsked, recvGot, recvReceiving, recvReceived,
        recvCopying] at hc
      obtain ⟨rfl, rfl, rfl⟩ := hc
      exact .invokedCopied slot hk
  | finished _ hgone => exact absurd (recvGone_reported hgone hc (by simp)) hno
  | _ => simp_all [recvReading, recvReady, recvAsked, recvGot, recvReceiving, recvReceived,
      recvCopying, recvCopied, recvReceivingCpu, recvReceivedCpu]

/-- The answer of the allocator agrees with the flag it sets and the slot it stores. -/
theorem recvStored_granted {m length : Nat} (slot : Option Nat) (hw : RecvStored error op w)
    (hc : .issued (.allocate m length) ∈ w)
    (hno : ∀ slot stored, .delivered op.sequenceNumber slot stored ∉ w)
    (hslot : error = false → slot.isSome = true) :
    RecvStored error { op with
        doneAllocatingCpuStagingBuffer := true
        tmpBuffer := if error then op.tmpBuffer else slot }
      (w ++ [.delivered op.sequenceNumber slot !error]) := by
  cases hw with
  | allocating hk =>
      cases error with
      | true => exact .refused slot rfl hk
      | false =>
          obtain ⟨slot, rfl⟩ := Option.isSome_iff_exists.mp (hslot rfl)
          exact .allocated slot hk
  | finished _ hgone =>
      obtain ⟨slot, stored, hmem⟩ := recvGone_delivered hgone hc
      exact absurd hmem (hno slot stored)
  | _ => simp_all [recvReading, recvReady, recvAsked, recvGot, recvReceiving, recvReceived,
      recvCopying, recvCopied, recvReceivingCpu, recvReceivedCpu]

end RecvReports

-- ── What a task finds ────────────────────────────────────────────────────────

section Tasks

variable {Op State Call : Type} [Operation Op State] {K : Kind Op State Call}
  {ts : Bool → List (Transition (Staging Call) Op State)} {error : Bool} {next n : Nat}
  {s s' : Staging Call} {ops : List Op} {slot : Option Nat} {rest : List (Nat × Option Nat)}

/-- The operation that a call captured is stored, unless its history is complete. -/
theorem ChunkInv.stored_of_issued (h : ChunkInv K error next s ops) {c : Call}
    (hc : K.captures c = some n) (hissued : .issued c ∈ s.log)
    (hgone : ∀ k, ¬ K.Gone error n k (history (Event.about K.captures) n s.log)) :
    ∃ op ∈ ops, sequenceNumber op = n
      ∧ K.Stored error op (history (Event.about K.captures) n s.log) := by
  rcases h.tracked.cases_lt (h.lt_next hissued hc) with ⟨op, hop, rfl, hstored⟩ | ⟨-, k, hk⟩
  · exact ⟨op, hop, rfl, hstored⟩
  · exact absurd hk (hgone k)

/-- A grant that is deferred to the loop answers a request, and was not delivered. -/
theorem ChunkInv.of_grant (h : ChunkInv K error next s ops)
    (hgrants : s.grants = (n, slot) :: rest) :
    (∃ c, .issued c ∈ s.log ∧ K.asks c = some n)
      ∧ ∀ slot stored, .delivered n slot stored ∉ s.log := by
  have hfifo := h.slots.fifo
  have hsorted := h.sorted
  rw [h.slots.deferred, hgrants, List.map_append, List.map_cons] at hfifo
  rw [← hfifo] at hsorted
  refine ⟨mem_requests.mp ?_, ?_⟩
  · rw [← hfifo]
    exact List.mem_append_left _ (List.mem_append_right _ (List.mem_cons_self ..))
  · intro slot' stored hmem
    have hdelivered : n ∈ (deliveries s.log).map Prod.fst :=
      List.mem_map.mpr ⟨(n, slot'), List.mem_filterMap.mpr ⟨_, hmem, rfl⟩, rfl⟩
    have hlt := (List.pairwise_append.mp (List.pairwise_append.mp hsorted).1).2.2 n hdelivered n
      (List.mem_cons_self ..)
    exact Nat.lt_irrefl n hlt

omit [Operation Op State] in
/-- A call that is outstanding stays so while the log grows and reports nothing about it. -/
theorem outstanding_grown (hgrown : Grown s.log s'.log) {c : Call} (h : s.outstanding c) :
    s'.outstanding c :=
  ⟨hgrown.mem h.1, fun hmem => h.2 (hgrown.mem_outer hmem rfl)⟩

omit [Operation Op State] in
/-- The answers that are still to run only gain new ones at the back. -/
theorem grants_grown {asks : Call → Option Nat} (h : SlotInv asks s) (h' : SlotInv asks s')
    (hgrown : Grown s.log s'.log) : ∃ more, s'.grants = s.grants ++ more := by
  have hdeferred := h'.deferred
  rw [hgrown.deliveries] at hdeferred
  obtain ⟨es, hlog, -⟩ := hgrown
  rw [hlog, allocations_append, h.deferred, List.append_assoc] at hdeferred
  exact ⟨_, (List.append_cancel_left hdeferred).symm⟩

omit [Operation Op State] in
/-- Dropping the answer of a chunk that is gone returns its slot, so that the account stays right.
    -/
theorem slotInv_drop {asks : Call → Option Nat} (h : SlotInv asks s) (error : Bool) (n : Nat)
    (slot : Option Nat) : SlotInv asks (s.drop error n slot) := by
  cases error with
  | false => exact h
  | true =>
      cases slot with
      | none => exact h
      | some slot =>
          have hrecord := slotInv_record h (e := .dropped n slot) ⟨rfl, rfl, rfl⟩
          exact slotInv_processAllocations (s := s.record (.dropped n slot)) hrecord.fifo
            hrecord.deferred hrecord.refused hrecord.granted

omit [Operation Op State] in
/-- What the allocator logs when it answers is about no call of a chunk. -/
theorem about_allocated {captures : Call → Option Nat} (answers : List (Nat × Option Nat)) :
    ∀ e ∈ allocatedEvents answers, Event.about captures e = none := by
  intro e he
  obtain ⟨answer, -, rfl⟩ := List.mem_map.mp he
  rfl

omit [Operation Op State] in
/-- What the allocator logs when it answers drops no slot and leaves none unstored. -/
theorem ledger_allocated (answers : List (Nat × Option Nat)) :
    drops (allocatedEvents answers : List (Event Call)) = []
      ∧ unstored (allocatedEvents answers : List (Event Call)) = [] :=
  ⟨filterMap_events (fun _ _ => rfl) answers, filterMap_events (fun _ _ => rfl) answers⟩

variable [DecidableEq State] {x : Queue Op (Staging Call)} {op : Op} {f : Op → Op}

/-- **Report rule.** -/
theorem Machine.report (hM : Machine K ts) (h : HalfInv K ts error x) {c : Call} (hop : op ∈ x.ops)
    (hn : sequenceNumber op = n) (hc : K.captures c = some n)
    (hstate : ∀ op, Operation.state (f op) = Operation.state op)
    (hnumber : ∀ op, sequenceNumber (f op) = sequenceNumber op)
    (hstored : K.Stored error (f op)
      (history (Event.about K.captures) n x.outside.log ++ [.reported c])) :
    HalfInv K ts error (Queue.advance (ts error)
      { x with outside := x.outside.record (.reported c), ops := modifyOperation n f x.ops } n) := by
  subst hn
  obtain ⟨hquiet, hgrown⟩ := hM.tell h (f := f) (e := .reported c) hop
    ⟨hc, hstate, hnumber, rfl, nofun⟩ hstored rfl (slotInv_record h.quiet.inv.slots ⟨rfl, rfl, rfl⟩)
  refine ⟨hquiet, ?_⟩
  rw [hgrown.drops, hgrown.unstored, drops_append, unstored_append]
  exact congrArg (· ++ []) h.ledger

/-- **Grant rule.** -/
theorem Machine.grant (hM : Machine K ts) (h : HalfInv K ts error x)
    (hgrants : x.outside.grants = (n, slot) :: rest) (hop : op ∈ x.ops)
    (hn : sequenceNumber op = n) (hstate : ∀ op, Operation.state (f op) = Operation.state op)
    (hnumber : ∀ op, sequenceNumber (f op) = sequenceNumber op)
    (hstored : K.Stored error (f op)
      (history (Event.about K.captures) n x.outside.log ++ [.delivered n slot !error]))
    {y : Queue Op (Staging Call)}
    (hy : y = Queue.advance (ts error)
      { x with outside := x.outside.deliver error n slot, ops := modifyOperation n f x.ops } n) :
    HalfInv K ts error { y with outside := y.outside.drop error n slot } := by
  subst hn
  obtain ⟨hquiet, hgrown⟩ := hM.tell h (f := f) (e := .delivered (sequenceNumber op) slot !error)
    hop ⟨rfl, hstate, hnumber, rfl, nofun⟩ hstored rfl
    (slotInv_deliver h.quiet.inv.slots error hgrants)
  rw [← hy] at hquiet hgrown
  -- the slot of this callback is not settled yet
  have hledger : unstored y.outside.log = drops y.outside.log
      ++ unstored ([.delivered (sequenceNumber op) slot !error] : List (Event Call)) := by
    rw [hgrown.drops, hgrown.unstored, drops_append, unstored_append, ← h.ledger]
    exact congrArg (· ++ _) (List.append_nil _).symm
  have hnext : y.next = x.next := by rw [hy]; rfl
  rw [← hnext] at hquiet
  cases error with
  | false =>
      refine ⟨hquiet, ?_⟩
      show drops y.outside.log = unstored y.outside.log
      rw [hledger]
      cases slot <;> exact (List.append_nil _).symm
  | true =>
      cases slot with
      | none =>
          refine ⟨hquiet, ?_⟩
          show drops y.outside.log = unstored y.outside.log
          rw [hledger]
          exact (List.append_nil _).symm
      | some slot =>
          have hslots := slotInv_drop hquiet.inv.slots true (sequenceNumber op) (some slot)
          have hlog : (y.outside.drop true (sequenceNumber op) (some slot)).log
              = y.outside.log ++ .dropped (sequenceNumber op) slot
                :: allocatedEvents (Staging.own (y.outside.allocator.releaseChunk slot).2) := by
            rw [Staging.drop, answered_log, log_record, List.append_assoc]
            rfl
          refine ⟨⟨chunkInv_append hquiet.inv hlog ?_ ?_ hslots, hquiet.frontOpen,
            hquiet.stable⟩, ?_⟩
          · exact List.forall_mem_cons.mpr ⟨rfl, about_allocated _⟩
          · exact requests_allocated _
          · show drops (y.outside.drop true (sequenceNumber op) (some slot)).log = unstored _
            have hevents := @ledger_allocated Call
              (Staging.own (y.outside.allocator.releaseChunk slot).2)
            rw [hlog, drops_append, unstored_append, hledger, List.append_assoc]
            show _ ++ (_, slot) :: drops (allocatedEvents _)
              = _ ++ ((_, slot) :: unstored (allocatedEvents _))
            rw [hevents.1, hevents.2]

end Tasks

-- ── The halves at work ───────────────────────────────────────────────────────

section Halves

variable {Op State Call : Type} [Operation Op State] {K : Kind Op State Call}
  {ts : Bool → List (Transition (Staging Call) Op State)} {error : Bool}
  {x : Queue Op (Staging Call)}

/-- A call of the user, or the callback of one that was not queued. -/
theorem halfInv_record (h : HalfInv K ts error x) {e : Event Call}
    (habout : e.about K.captures = none) (hidle : e.Idle K.asks) (hdropped : e.dropped? = none) :
    HalfInv K ts error { x with outside := x.outside.record e } := by
  obtain ⟨hrequest, hallocated, hdelivered⟩ := hidle
  refine halfInv_append h rfl (List.forall_mem_singleton.mpr habout)
    (List.filterMap_cons_none hrequest) (slotInv_record h.quiet.inv.slots ⟨hrequest, hallocated,
      hdelivered⟩) ?_
  cases e with
  | dropped n slot => exact nomatch hdropped
  | delivered n slot stored => exact nomatch hdelivered
  | _ => rfl

/-- The allocator answered. -/
theorem halfInv_answered (h : HalfInv K ts error x) {s : Staging Call}
    {answers : List (Nat × Option Nat)} (hlog : s.log = x.outside.log ++ allocatedEvents answers)
    (hslots : SlotInv K.asks s) : HalfInv K ts error { x with outside := s } := by
  obtain ⟨hdrops, hunstored⟩ := @ledger_allocated Call answers
  exact halfInv_append h hlog (about_allocated answers) (requests_allocated answers) hslots
    (hdrops.trans hunstored.symm)

/-- Closing the allocator keeps the invariant of a half. -/
theorem halfInv_close (h : HalfInv K ts error x) :
    HalfInv K ts error { x with outside := x.outside.close } :=
  halfInv_answered h rfl (slotInv_close h.quiet.inv.slots)

/-- What the other users of the allocator do keeps the invariant of a half. -/
theorem halfInv_other (h : HalfInv K ts error x) (slot : Option Nat) :
    HalfInv K ts error { x with outside := x.outside.other slot } := by
  cases slot with
  | none => exact halfInv_answered h rfl (slotInv_other h.quiet.inv.slots none)
  | some slot => exact halfInv_answered h rfl (slotInv_other h.quiet.inv.slots (some slot))

end Halves

/-- The invariant of the sending half. -/
abbrev SendHalf := HalfInv sendKind advanceChunkSendOperation

/-- The invariant of the receiving half. -/
abbrev RecvHalf := HalfInv recvKind advanceChunkRecvOperation

section SendHalves

variable {error : Bool} {x : SendQueue}

/-- Emplacing a chunk and advancing it keeps the invariant. -/
theorem sendHalf_emplace (h : SendHalf error x) (chunk : Chunk) :
    SendHalf error (emplaceSend error chunk x) :=
  sendMachine.emplace h rfl rfl nofun .uninitialized

/-- Emplacing the chunks of a tensor one after the other keeps the invariant. -/
theorem sendHalf_chunks (buffer : Buffer) (sequenceNumber length : Nat) :
    ∀ (fuel offset : Nat) (x : SendQueue), SendHalf error x →
      SendHalf error (sendChunks error buffer sequenceNumber length fuel offset x) := by
  intro fuel
  induction fuel with
  | zero => intro offset x h; exact h
  | succ fuel ih =>
      intro offset x h
      rw [sendChunks]
      by_cases hoffset : offset < length
      · rw [if_pos hoffset]
        exact ih _ _ (sendHalf_emplace h _)
      · rw [if_neg hoffset]
        exact h

/-- A call of `send` keeps the invariant of the sending half. -/
theorem sendHalf_send (h : SendHalf error x) (sequenceNumber : Nat) (buffer : Buffer)
    (length : Nat) : SendHalf error (sendImplFromLoop error sequenceNumber buffer length x) := by
  have hsubmitted := halfInv_record h
    (e := .submitted sequenceNumber buffer length) rfl ⟨rfl, rfl, rfl⟩ rfl
  rw [sendImplFromLoop]
  by_cases hzero : length = 0
  · rw [if_pos hzero]
    exact halfInv_record hsubmitted rfl ⟨rfl, rfl, rfl⟩ rfl
  · rw [if_neg hzero]
    exact sendHalf_chunks buffer sequenceNumber length _ _ _ hsubmitted

/-- The operation that a call captured waits for its report. -/
theorem sendHalf_waiting (h : SendHalf error x) {call : SendCall}
    (houtstanding : x.outside.outstanding call) (hask : ∀ n length, call ≠ .allocate n length)
    {n : Nat} (hn : call.captures = some n) : ∃ op ∈ x.ops, op.sequenceNumber = n
      ∧ SendStored error op (history (Event.about SendCall.captures) n x.outside.log) := by
  refine h.quiet.inv.stored_of_issued (K := sendKind) hn houtstanding.1 (fun k hgone => ?_)
  have hreported := sendGone_reported hgone (mem_history.mpr ⟨houtstanding.1, hn⟩) hask
  exact houtstanding.2 (mem_history.mp hreported).1

/-- A callback other than that of the allocator keeps the invariant of the sending half. -/
theorem sendHalf_report (h : SendHalf error x) {call : SendCall}
    (houtstanding : x.outside.outstanding call) (hask : ∀ n length, call ≠ .allocate n length) :
    SendHalf error (onSendReport error call x) := by
  cases call with
  | allocate n length => exact absurd rfl (hask n length)
  | writeReadyToSend n => exact halfInv_record h rfl ⟨rfl, rfl, rfl⟩ rfl
  | copyFromGpuToCpu n tmp k =>
      obtain ⟨op, hop, hn, hw⟩ := sendHalf_waiting h houtstanding hask rfl
      exact sendMachine.report h hop hn rfl (fun _ => rfl) (fun _ => rfl)
        (sendStored_copied hw (mem_history.mpr ⟨houtstanding.1, rfl⟩)
          (fun hmem => houtstanding.2 (mem_history.mp hmem).1))
  | sendCpuBuffer n ptr length =>
      obtain ⟨op, hop, hn, hw⟩ := sendHalf_waiting h houtstanding hask rfl
      exact sendMachine.report h hop hn rfl (fun _ => rfl) (fun _ => rfl)
        (sendStored_sent hw (mem_history.mpr ⟨houtstanding.1, rfl⟩)
          (fun hmem => houtstanding.2 (mem_history.mp hmem).1))

/-- The operation of a grant waits for it. -/
theorem sendHalf_granted (h : SendHalf error x) {n : Nat} {slot : Option Nat}
    {rest : List (Nat × Option Nat)} (hgrants : x.outside.grants = (n, slot) :: rest)
    (hslot : error = false → slot.isSome = true) :
    ∃ op ∈ x.ops, op.sequenceNumber = n
      ∧ SendStored error { op with
          doneAllocatingCpuStagingBuffer := true
          tmpBuffer := if error then op.tmpBuffer else slot }
        (history (Event.about SendCall.captures) n x.outside.log ++ [.delivered n slot !error]) := by
  obtain ⟨⟨c, hissued, hasks⟩, hno⟩ := h.quiet.inv.of_grant hgrants
  cases c with
  | allocate m length =>
      obtain rfl := Option.some.inj hasks
      have hmem : .issued (.allocate m length)
          ∈ history (Event.about SendCall.captures) m x.outside.log :=
        mem_history.mpr ⟨hissued, rfl⟩
      obtain ⟨op, hop, rfl, hw⟩ := h.quiet.inv.stored_of_issued (K := sendKind) rfl hissued
        (fun k hgone => by
          obtain ⟨slot', stored, hdelivered⟩ := sendGone_delivered hgone hmem
          exact hno slot' stored (mem_history.mp hdelivered).1)
      exact ⟨op, hop, rfl, sendStored_granted slot hw hmem
        (fun slot' stored hdelivered => hno slot' stored (mem_history.mp hdelivered).1) hslot⟩
  | _ => exact nomatch hasks

/-- The callback of the allocator keeps the invariant of the sending half. -/
theorem sendHalf_grant (h : SendHalf error x) {n : Nat} {slot : Option Nat}
    {rest : List (Nat × Option Nat)} (hgrants : x.outside.grants = (n, slot) :: rest)
    (hslot : error = false → slot.isSome = true) : SendHalf error (onSendGrant error n slot x) := by
  obtain ⟨op, hop, hn, hgot⟩ := sendHalf_granted h hgrants hslot
  have hgrant := sendMachine.grant h hgrants hop hn
    (f := fun op : ChunkSendOperation => { op with
      doneAllocatingCpuStagingBuffer := true
      tmpBuffer := if error then op.tmpBuffer else slot })
  exact hgrant (fun _ => rfl) (fun _ => rfl) hgot rfl

end SendHalves

section RecvHalves

variable {error : Bool} {x : RecvQueue}

/-- Emplacing a chunk and advancing it keeps the invariant. -/
theorem recvHalf_emplace (h : RecvHalf error x) (chunk : Chunk) :
    RecvHalf error (emplaceRecv error chunk x) :=
  recvMachine.emplace h rfl rfl nofun .uninitialized

/-- Emplacing the chunks of a tensor one after the other keeps the invariant. -/
theorem recvHalf_chunks (buffer : Buffer) (sequenceNumber length : Nat) :
    ∀ (fuel offset : Nat) (x : RecvQueue), RecvHalf error x →
      RecvHalf error (recvChunks error buffer sequenceNumber length fuel offset x) := by
  intro fuel
  induction fuel with
  | zero => intro offset x h; exact h
  | succ fuel ih =>
      intro offset x h
      rw [recvChunks]
      by_cases hoffset : offset < length
      · rw [if_pos hoffset]
        exact ih _ _ (recvHalf_emplace h _)
      · rw [if_neg hoffset]
        exact h

/-- A call of `recv` keeps the invariant of the receiving half. -/
theorem recvHalf_recv (h : RecvHalf error x) (sequenceNumber : Nat) (buffer : Buffer)
    (length : Nat) : RecvHalf error (recvImplFromLoop error sequenceNumber buffer length x) := by
  have hsubmitted := halfInv_record h
    (e := .submitted sequenceNumber buffer length) rfl ⟨rfl, rfl, rfl⟩ rfl
  rw [recvImplFromLoop]
  by_cases hzero : length = 0
  · rw [if_pos hzero]
    exact halfInv_record hsubmitted rfl ⟨rfl, rfl, rfl⟩ rfl
  · rw [if_neg hzero]
    exact recvHalf_chunks buffer sequenceNumber length _ _ _ hsubmitted

/-- The operation that a call captured waits for its report. -/
theorem recvHalf_waiting (h : RecvHalf error x) {call : RecvCall}
    (houtstanding : x.outside.outstanding call) (hask : ∀ n length, call ≠ .allocate n length)
    {n : Nat} (hn : call.captures = some n) : ∃ op ∈ x.ops, op.sequenceNumber = n
      ∧ RecvStored error op (history (Event.about RecvCall.captures) n x.outside.log) := by
  refine h.quiet.inv.stored_of_issued (K := recvKind) hn houtstanding.1 (fun k hgone => ?_)
  have hreported := recvGone_reported hgone (mem_history.mpr ⟨houtstanding.1, hn⟩) hask
  exact houtstanding.2 (mem_history.mp hreported).1

/-- A callback other than that of the allocator keeps the invariant of the receiving half. -/
theorem recvHalf_report (h : RecvHalf error x) {call : RecvCall}
    (houtstanding : x.outside.outstanding call) (hask : ∀ n length, call ≠ .allocate n length) :
    RecvHalf error (onRecvReport error call x) := by
  cases call with
  | allocate n length => exact absurd rfl (hask n length)
  | readReadyToSend n =>
      obtain ⟨op, hop, hn, hw⟩ := recvHalf_waiting h houtstanding hask rfl
      exact recvMachine.report h hop hn rfl (fun _ => rfl) (fun _ => rfl)
        (recvStored_ready hw (mem_history.mpr ⟨houtstanding.1, rfl⟩)
          (fun hmem => houtstanding.2 (mem_history.mp hmem).1))
  | receiveCpuBuffer n ptr length =>
      obtain ⟨op, hop, hn, hw⟩ := recvHalf_waiting h houtstanding hask rfl
      exact recvMachine.report h hop hn rfl (fun _ => rfl) (fun _ => rfl)
        (recvStored_received hw (mem_history.mpr ⟨houtstanding.1, rfl⟩)
          (fun hmem => houtstanding.2 (mem_history.mp hmem).1))
  | copyFromCpuToGpu n tmp k =>
      obtain ⟨op, hop, hn, hw⟩ := recvHalf_waiting h houtstanding hask rfl
      exact recvMachine.report h hop hn rfl (fun _ => rfl) (fun _ => rfl)
        (recvStored_copied hw (mem_history.mpr ⟨houtstanding.1, rfl⟩)
          (fun hmem => houtstanding.2 (mem_history.mp hmem).1))

/-- The operation of a grant waits for it. -/
theorem recvHalf_granted (h : RecvHalf error x) {n : Nat} {slot : Option Nat}
    {rest : List (Nat × Option Nat)} (hgrants : x.outside.grants = (n, slot) :: rest)
    (hslot : error = false → slot.isSome = true) :
    ∃ op ∈ x.ops, op.sequenceNumber = n
      ∧ RecvStored error { op with
          doneAllocatingCpuStagingBuffer := true
          tmpBuffer := if error then op.tmpBuffer else slot }
        (history (Event.about RecvCall.captures) n x.outside.log ++ [.delivered n slot !error]) := by
  obtain ⟨⟨c, hissued, hasks⟩, hno⟩ := h.quiet.inv.of_grant hgrants
  cases c with
  | allocate m length =>
      obtain rfl := Option.some.inj hasks
      have hmem : .issued (.allocate m length)
          ∈ history (Event.about RecvCall.captures) m x.outside.log :=
        mem_history.mpr ⟨hissued, rfl⟩
      obtain ⟨op, hop, rfl, hw⟩ := h.quiet.inv.stored_of_issued (K := recvKind) rfl hissued
        (fun k hgone => by
          obtain ⟨slot', stored, hdelivered⟩ := recvGone_delivered hgone hmem
          exact hno slot' stored (mem_history.mp hdelivered).1)
      exact ⟨op, hop, rfl, recvStored_granted slot hw hmem
        (fun slot' stored hdelivered => hno slot' stored (mem_history.mp hdelivered).1) hslot⟩
  | _ => exact nomatch hasks

/-- The callback of the allocator keeps the invariant of the receiving half. -/
theorem recvHalf_grant (h : RecvHalf error x) {n : Nat} {slot : Option Nat}
    {rest : List (Nat × Option Nat)} (hgrants : x.outside.grants = (n, slot) :: rest)
    (hslot : error = false → slot.isSome = true) : RecvHalf error (onRecvGrant error n slot x) := by
  obtain ⟨op, hop, hn, hgot⟩ := recvHalf_granted h hgrants hslot
  have hgrant := recvMachine.grant h hgrants hop hn
    (f := fun op : ChunkRecvOperation => { op with
      doneAllocatingCpuStagingBuffer := true
      tmpBuffer := if error then op.tmpBuffer else slot })
  exact hgrant (fun _ => rfl) (fun _ => rfl) hgot rfl

end RecvHalves

-- ── The channel ──────────────────────────────────────────────────────────────

/-- A channel between two tasks. -/
structure ChannelInv (x : ChannelImpl) : Prop where
  send : SendHalf x.error x.send
  recv : RecvHalf x.error x.recv

section Channel

variable {x : ChannelImpl}

/-- Setting the error keeps the invariant of both halves, and only adds to their logs. -/
theorem channelInv_setError (h : ChannelInv x) (failed : Bool) :
    ChannelInv (x.setError failed) ∧ (x.setError failed).error = (x.error || failed)
      ∧ Grown x.send.outside.log (x.setError failed).send.outside.log
      ∧ Grown x.recv.outside.log (x.setError failed).recv.outside.log := by
  rw [ChannelImpl.setError]
  by_cases hset : (x.error || !failed) = true
  · rw [if_pos hset]
    refine ⟨h, ?_, grown_refl _, grown_refl _⟩
    revert hset
    cases x.error <;> cases failed <;> decide
  · rw [if_neg hset]
    have hclear : x.error = false := by
      revert hset
      cases x.error <;> simp
    have hfailed : failed = true := by
      revert hset
      cases failed <;> simp
    have hsend := h.send
    have hrecv := h.recv
    rw [hclear] at hsend hrecv
    obtain ⟨hsend', hsendGrown⟩ := sendMachine.fail hsend
    obtain ⟨hrecv', hrecvGrown⟩ := recvMachine.fail hrecv
    refine ⟨⟨hsend', hrecv'⟩, ?_, hsendGrown, hrecvGrown⟩
    rw [hfailed, Bool.or_true]
    rfl

/-- A call of `send` keeps the invariant of the channel. -/
theorem channelInv_sendFromLoop (h : ChannelInv x) (buffer : Buffer) (length : Nat) :
    ChannelInv (x.sendFromLoop buffer length) := by
  refine ⟨?_, h.recv⟩
  show SendHalf x.error (if x.error = true then _ else _)
  by_cases herror : x.error = true
  · rw [if_pos herror]
    exact halfInv_record h.send rfl ⟨rfl, rfl, rfl⟩ rfl
  · rw [if_neg herror]
    exact sendHalf_send h.send _ buffer length

/-- A call of `recv` keeps the invariant of the channel. -/
theorem channelInv_recvFromLoop (h : ChannelInv x) (buffer : Buffer) (length : Nat) :
    ChannelInv (x.recvFromLoop buffer length) := by
  refine ⟨h.send, ?_⟩
  show RecvHalf x.error (if x.error = true then _ else _)
  by_cases herror : x.error = true
  · rw [if_pos herror]
    exact halfInv_record h.recv rfl ⟨rfl, rfl, rfl⟩ rfl
  · rw [if_neg herror]
    exact recvHalf_recv h.recv _ buffer length

/-- An answer to a chunk of the sending half keeps the invariant of the channel. -/
theorem channelInv_sendGrant (h : ChannelInv x) : ChannelInv x.sendGrant := by
  rw [ChannelImpl.sendGrant]
  cases hgrants : x.send.outside.grants with
  | nil => exact h
  | cons grant rest =>
      obtain ⟨n, slot⟩ := grant
      obtain ⟨hinv, herror, hgrown, -⟩ := channelInv_setError h slot.isNone
      obtain ⟨more, hmore⟩ :=
        grants_grown h.send.quiet.inv.slots hinv.send.quiet.inv.slots hgrown
      rw [hgrants] at hmore
      refine ⟨sendHalf_grant hinv.send hmore (fun hclear => ?_), hinv.recv⟩
      rw [herror] at hclear
      cases slot with
      | none => rw [Option.isNone_none, Bool.or_true] at hclear; exact nomatch hclear
      | some slot => rfl

/-- An answer to a chunk of the receiving half keeps the invariant of the channel. -/
theorem channelInv_recvGrant (h : ChannelInv x) : ChannelInv x.recvGrant := by
  rw [ChannelImpl.recvGrant]
  cases hgrants : x.recv.outside.grants with
  | nil => exact h
  | cons grant rest =>
      obtain ⟨n, slot⟩ := grant
      obtain ⟨hinv, herror, -, hgrown⟩ := channelInv_setError h slot.isNone
      obtain ⟨more, hmore⟩ :=
        grants_grown h.recv.quiet.inv.slots hinv.recv.quiet.inv.slots hgrown
      rw [hgrants] at hmore
      refine ⟨hinv.send, recvHalf_grant hinv.recv hmore (fun hclear => ?_)⟩
      rw [herror] at hclear
      cases slot with
      | none => rw [Option.isNone_none, Bool.or_true] at hclear; exact nomatch hclear
      | some slot => rfl

/-- **Step lemma.** -/
theorem channelInv_step (h : ChannelInv x) (task : Task) (henabled : x.enabled task) :
    ChannelInv (x.step task) := by
  cases task with
  | send buffer length => exact channelInv_sendFromLoop h buffer length
  | recv buffer length => exact channelInv_recvFromLoop h buffer length
  | close => exact (channelInv_setError h true).1
  | closeContext =>
      obtain ⟨hinv, -⟩ := channelInv_setError h true
      exact ⟨halfInv_close hinv.send, halfInv_close hinv.recv⟩
  | sendGrant => exact channelInv_sendGrant h
  | recvGrant => exact channelInv_recvGrant h
  | sendReport call failed =>
      obtain ⟨hinv, -, hgrown, -⟩ := channelInv_setError h failed
      exact ⟨sendHalf_report hinv.send (outstanding_grown hgrown henabled.1) henabled.2, hinv.recv⟩
  | recvReport call failed =>
      obtain ⟨hinv, -, -, hgrown⟩ := channelInv_setError h failed
      exact ⟨hinv.send, recvHalf_report hinv.recv (outstanding_grown hgrown henabled.1) henabled.2⟩
  | sendOther slot => exact ⟨halfInv_other h.send slot, h.recv⟩
  | recvOther slot => exact ⟨h.send, halfInv_other h.recv slot⟩

/-- **Run lemma.** -/
theorem channelInv_reachable {allowed : ChannelImpl → Task → Prop}
    (h : ChannelImpl.Reachable allowed x) : ChannelInv x := by
  induction h with
  | init contextClosed => exact ⟨halfInv_init, halfInv_init⟩
  | step _ task henabled _ ih => exact channelInv_step ih task henabled

end Channel

end TpCudaBasic
