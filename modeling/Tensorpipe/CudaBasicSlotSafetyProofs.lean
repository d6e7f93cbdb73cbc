import Mathlib.Tactic.Common
import Tensorpipe.CudaBasicRunProofs

/-! # Slots are granted in order and returned once

    What was promised about the staging slots: an earlier chunk never waits for a slot while a
    later one holds one, and a slot goes back once, when no copy and no transfer works on it
    any more. -/

namespace TpCudaBasic

open TpStateMachine TpAllocator

-- ── Where a slot is ──────────────────────────────────────────────────────────

section Stages

variable {Call : Type} {onSlot : Call → Option Nat} {n : Nat}

/-- The slot that an entry returns for a chunk. -/
def Event.returned? (n : Nat) : Event Call → Option Nat
  | returned m slot => if m = n then some slot else none
  | _ => none

/-- The slots that went back for a chunk: from its operation, then from its callback. -/
def returns (n : Nat) (log : List (Event Call)) : List Nat :=
  log.filterMap (Event.returned? n)
    ++ (drops log).filterMap (fun p => if p.1 = n then some p.2 else none)

/-- Where the slot of chunk `n` is, by the history of the chunk: nothing was delivered; it was
    delivered and not stored; the operation holds it; or it went back. -/
inductive SlotStage (onSlot : Call → Option Nat) (n : Nat) :
    Option Nat → List (Event Call) → Prop where
  | waiting {w : List (Event Call)} (hno : ∀ slot stored, .delivered n slot stored ∉ w)
      (hret : ∀ slot, .returned n slot ∉ w) : SlotStage onSlot n none w
  | refused {w : List (Event Call)} {slot : Option Nat} (hmem : .delivered n slot false ∈ w)
      (hret : ∀ slot, .returned n slot ∉ w)
      (hcalls : ∀ c, onSlot c = some n → .issued c ∉ w) : SlotStage onSlot n none w
  | held {w : List (Event Call)} {slot : Nat} (hmem : .delivered n (some slot) true ∈ w)
      (hret : ∀ slot, .returned n slot ∉ w) : SlotStage onSlot n (some slot) w
  | back {w : List (Event Call)} {slot : Nat} (hmem : .delivered n (some slot) true ∈ w)
      (hret : ∀ slot, .returned n slot ∉ w)
      (hcalls : ∀ c, onSlot c = some n → .issued c ∈ w → .reported c ∈ w) :
      SlotStage onSlot n none (w ++ [.returned n slot])

/-- The answers among the entries of a log. -/
theorem mem_allocations {log : List (Event Call)} {slot : Option Nat} :
    (n, slot) ∈ allocations log ↔ .allocated n slot ∈ log := by
  rw [allocations, List.mem_filterMap]
  constructor
  · rintro ⟨e, he, hsome⟩
    cases e with
    | allocated m slot' =>
        obtain ⟨rfl, rfl⟩ := Prod.mk.inj (Option.some.inj hsome)
        exact he
    | _ => cases hsome
  · intro h
    exact ⟨_, h, rfl⟩

/-- The deliveries among the entries of a log. -/
theorem mem_deliveries {log : List (Event Call)} {slot : Option Nat} :
    (n, slot) ∈ deliveries log ↔ ∃ stored, .delivered n slot stored ∈ log := by
  rw [deliveries, List.mem_filterMap]
  constructor
  · rintro ⟨e, he, hsome⟩
    cases e with
    | delivered m slot' stored =>
        obtain ⟨rfl, rfl⟩ := Prod.mk.inj (Option.some.inj hsome)
        exact ⟨stored, he⟩
    | _ => cases hsome
  · rintro ⟨stored, h⟩
    exact ⟨_, h, rfl⟩

/-- The slots not kept, among the entries of a log. -/
theorem mem_unstored {log : List (Event Call)} {slot : Nat} :
    (n, slot) ∈ unstored log ↔ .delivered n (some slot) false ∈ log := by
  rw [unstored, List.mem_filterMap]
  constructor
  · rintro ⟨e, he, hsome⟩
    cases e with
    | delivered m slot' stored =>
        cases slot' with
        | none => exact nomatch hsome
        | some slot' =>
            cases stored with
            | true => exact nomatch hsome
            | false =>
                obtain ⟨rfl, rfl⟩ := Prod.mk.inj (Option.some.inj hsome)
                exact he
    | _ => exact nomatch hsome
  · intro h
    exact ⟨_, h, rfl⟩

/-- In a log whose numbers increase, a number belongs to one event. -/
theorem eq_of_sorted {β : Type} {f : Event Call → Option (Nat × β)} {log : List (Event Call)}
    (hsorted : (log.filterMap f).Pairwise (fun a b => a.1 < b.1)) {e e' : Event Call}
    (he : e ∈ log) (he' : e' ∈ log) {b b' : β} (hb : f e = some (n, b))
    (hb' : f e' = some (n, b')) : e = e' := by
  rw [List.pairwise_filterMap] at hsorted
  induction log with
  | nil => exact nomatch he
  | cons hd tl ih =>
      obtain ⟨hhead, htail⟩ := List.pairwise_cons.mp hsorted
      rcases List.mem_cons.mp he with rfl | hmem
      · rcases List.mem_cons.mp he' with rfl | hmem'
        · rfl
        · exact absurd (hhead e' hmem' _ hb _ hb') (Nat.lt_irrefl n)
      · rcases List.mem_cons.mp he' with rfl | hmem'
        · exact absurd (hhead e hmem _ hb' _ hb) (Nat.lt_irrefl n)
        · exact ih htail hmem hmem'

/-- What a number has in a list without it. -/
theorem keyed_nil {l : List (Nat × Nat)} (h : ∀ slot, (n, slot) ∉ l) :
    l.filterMap (fun p => if p.1 = n then some p.2 else none) = [] := by
  refine List.filterMap_eq_nil_iff.mpr (fun p hp => ?_)
  rw [if_neg]
  rintro rfl
  exact h p.2 hp

/-- What a number has in a list where numbers increase. -/
theorem keyed_single {l : List (Nat × Nat)} (hsorted : l.Pairwise (fun a b => a.1 < b.1))
    {slot : Nat} (hmem : (n, slot) ∈ l) :
    l.filterMap (fun p => if p.1 = n then some p.2 else none) = [slot] := by
  induction l with
  | nil => exact nomatch hmem
  | cons hd tl ih =>
      obtain ⟨hhead, htail⟩ := List.pairwise_cons.mp hsorted
      rcases List.mem_cons.mp hmem with rfl | hrest
      · rw [List.filterMap_cons, if_pos rfl]
        refine congrArg (slot :: ·) (keyed_nil (fun slot' hslot' => ?_))
        exact Nat.lt_irrefl n (hhead _ hslot')
      · rw [List.filterMap_cons, if_neg (Nat.ne_of_lt (hhead _ hrest))]
        exact ih htail hrest

/-- What an operation returned stands in the history of its chunk. -/
theorem returned_history (captures : Call → Option Nat) (log : List (Event Call)) :
    log.filterMap (Event.returned? n)
      = (history (Event.about captures) n log).filterMap (Event.returned? n) := by
  refine (filterMap_history (fun e he => ?_) log).symm
  cases e with
  | returned m slot =>
      by_cases hm : m = n
      · rw [hm]; rfl
      · exact absurd (if_neg hm) he
  | _ => exact absurd rfl he

/-- A history in which nothing was returned. -/
theorem returned_nil {w : List (Event Call)} (h : ∀ slot, .returned n slot ∉ w) :
    w.filterMap (Event.returned? n) = [] := by
  refine List.filterMap_eq_nil_iff.mpr (fun e he => ?_)
  cases e with
  | returned m slot =>
      refine if_neg ?_
      rintro rfl
      exact h slot he
  | _ => rfl

/-- A history which ends with the return of the slot. -/
theorem returned_snoc {w : List (Event Call)} (h : ∀ slot, .returned n slot ∉ w) (slot : Nat) :
    (w ++ [.returned n slot] : List (Event Call)).filterMap (Event.returned? n) = [slot] := by
  rw [List.filterMap_append, returned_nil h]
  exact List.filterMap_cons_some (if_pos rfl)

end Stages

/-- The calls that work on the slot of a chunk. -/
def SendCall.onSlot : SendCall → Option Nat
  | copyFromGpuToCpu n _ _ => some n
  | sendCpuBuffer n (.staging _) _ => some n
  | _ => none

/-- The chunk whose staging slot a call works on. -/
def RecvCall.onSlot : RecvCall → Option Nat
  | receiveCpuBuffer n (.staging _) _ => some n
  | copyFromCpuToGpu n _ _ => some n
  | _ => none

/-- A chunk that is gone holds no slot. -/
theorem sendGone_stage {error : Bool} {n : Nat} {k : Chunk} {w : SendHistory}
    (h : SendGone error n k w) : SlotStage SendCall.onSlot n none w := by
  cases h with
  | skipped _ => exact .waiting (by simp) (by simp)
  | refused slot _ _ =>
      refine .refused (List.mem_append_right _ (List.mem_singleton_self _)) (by simp [sendAsked]) ?_
      intro c hc hmem
      simp [sendAsked] at hmem
      subst hmem
      cases hc
  | unused slot _ _ =>
      refine .back (by simp [sendGot]) (by simp [sendGot, sendAsked]) ?_
      intro c hc hmem
      simp [sendGot, sendAsked] at hmem
      subst hmem
      cases hc
  | copied slot _ _ =>
      refine .back (by simp [sendGot, sendCopying, sendCopied])
        (by simp [sendGot, sendAsked, sendCopying, sendCopied]) ?_
      intro c hc hmem
      simp [sendGot, sendAsked, sendCopying, sendCopied] at hmem ⊢
      rcases hmem with rfl | rfl
      · cases hc
      · rfl
  | sent slot _ =>
      refine .back (by simp [sendGot, sendCopying, sendCopied, sendSending, sendSent])
        (by simp [sendGot, sendAsked, sendCopying, sendCopied, sendSending, sendSent]) ?_
      intro c hc hmem
      simp [sendGot, sendAsked, sendCopying, sendCopied, sendSending, sendSent] at hmem ⊢
      rcases hmem with rfl | rfl | rfl
      · cases hc
      · exact Or.inl rfl
      · exact Or.inr rfl
  | sentCpu _ =>
      refine .waiting ?_ ?_
      · simp [sendSentCpu, sendSendingCpu]
      · simp [sendSentCpu, sendSendingCpu]

/-- A chunk in the queue holds the slot that it stores. -/
theorem sendStored_stage {error : Bool} {op : ChunkSendOperation} {w : SendHistory}
    (h : SendStored error op w) : SlotStage SendCall.onSlot op.sequenceNumber none w
      ∨ SlotStage SendCall.onSlot op.sequenceNumber op.tmpBuffer w := by
  cases h with
  | uninitialized => exact Or.inl (.waiting (by simp) (by simp))
  | allocating _ => exact Or.inl (.waiting (by simp [sendAsked]) (by simp [sendAsked]))
  | refused slot _ _ =>
      refine Or.inl (.refused (List.mem_append_right _ (List.mem_singleton_self _))
        (by simp [sendAsked]) ?_)
      intro c hc hmem
      simp [sendAsked] at hmem
      subst hmem
      cases hc
  | sendingCpu _ =>
      exact Or.inl (.waiting (by simp [sendSendingCpu]) (by simp [sendSendingCpu]))
  | sentCpu _ =>
      refine Or.inl (.waiting ?_ ?_)
      · simp [sendSentCpu, sendSendingCpu]
      · simp [sendSentCpu, sendSendingCpu]
  | finished _ hgone => exact Or.inl (sendGone_stage hgone)
  | _ =>
      refine Or.inr (.held ?_ ?_)
      · simp [sendGot, sendCopying, sendCopied, sendSending, sendSent]
      · simp [sendAsked, sendGot, sendCopying, sendCopied, sendSending, sendSent]

/-- Without an error, a chunk that is gone kept the slot it was given. -/
theorem sendGone_stored {n : Nat} {k : Chunk} {w : SendHistory} (h : SendGone false n k w)
    {m : Nat} {slot : Option Nat} {stored : Bool} (hmem : .delivered m slot stored ∈ w) :
    stored = true ∧ slot.isSome = true := by
  cases h <;> simp_all [sendAsked, sendGot, sendCopying, sendCopied, sendSending, sendSent,
    sendSendingCpu, sendSentCpu]

/-- Without an error, a chunk keeps the slot it is given. -/
theorem sendStored_delivered {op : ChunkSendOperation} {w : SendHistory}
    (h : SendStored false op w) {m : Nat} {slot : Option Nat} {stored : Bool}
    (hmem : .delivered m slot stored ∈ w) : stored = true ∧ slot.isSome = true := by
  cases h with
  | finished _ hgone => exact sendGone_stored hgone hmem
  | _ => simp_all [sendAsked, sendGot, sendCopying, sendCopied, sendSending, sendSent,
      sendSendingCpu, sendSentCpu]

/-- What a front that is not enabled waits for. -/
theorem sendStored_waits {error : Bool} {op : ChunkSendOperation} {w : SendHistory}
    (h : SendStored error op w) (hstate : op.state ≠ .finished)
    (hfront : ¬ Enabled (advanceChunkSendOperation error) .finished op) :
    (∃ c, .issued c ∈ w ∧ .reported c ∉ w ∧ c.captures = some op.sequenceNumber ∧ c.asks = none)
      ∨ ((∃ c, .issued c ∈ w ∧ c.asks = some op.sequenceNumber)
        ∧ ∀ slot stored, .delivered op.sequenceNumber slot stored ∉ w) := by
  cases h with
  | finished hfin _ => exact absurd hfin hstate
  | allocating hk =>
      exact Or.inr ⟨⟨_, List.mem_cons_of_mem _ (List.mem_cons_self ..), rfl⟩, by simp [sendAsked]⟩
  | copying slot hk =>
      refine Or.inl ⟨_, List.mem_append_right _ (List.mem_singleton_self _), ?_, rfl, rfl⟩
      simp [sendAsked, sendGot, sendCopying]
  | sending slot hk =>
      refine Or.inl ⟨_, List.mem_append_right _ (List.mem_singleton_self _), ?_, rfl, rfl⟩
      simp [sendAsked, sendGot, sendCopying, sendCopied, sendSending]
  | sendingCpu hk =>
      refine Or.inl ⟨_, List.mem_cons_of_mem _ (List.mem_cons_self ..), ?_, rfl, rfl⟩
      simp [sendSendingCpu]
  | _ => cases error <;> simp_all +decide [Enabled, advanceChunkSendOperation, Operation.state]

/-- A chunk that is gone holds no slot. -/
theorem recvGone_stage {error : Bool} {n : Nat} {k : Chunk} {w : RecvHistory}
    (h : RecvGone error n k w) : SlotStage RecvCall.onSlot n none w := by
  cases h with
  | skipped _ => exact .waiting (by simp) (by simp)
  | ready _ =>
      refine .waiting ?_ ?_
      · simp [recvReading, recvReady]
      · simp [recvReading, recvReady]
  | refused slot _ _ =>
      refine .refused (List.mem_append_right _ (List.mem_singleton_self _))
        (by simp [recvReading, recvReady, recvAsked]) ?_
      intro c hc hmem
      simp [recvReading, recvReady, recvAsked] at hmem
      rcases hmem with rfl | rfl
      · cases hc
      · cases hc
  | unused slot _ _ =>
      refine .back (by simp [recvGot]) (by simp [recvReading, recvReady, recvAsked, recvGot]) ?_
      intro c hc hmem
      simp [recvReading, recvReady, recvAsked, recvGot] at hmem
      rcases hmem with rfl | rfl
      · cases hc
      · cases hc
  | received slot _ _ =>
      refine .back ?_ ?_ ?_
      · simp [recvGot, recvReceiving, recvReceived]
      · simp [recvReading, recvReady, recvAsked, recvGot, recvReceiving, recvReceived]
      · intro c hc hmem
        simp [recvReading, recvReady, recvAsked, recvGot, recvReceiving, recvReceived] at hmem ⊢
        rcases hmem with rfl | rfl | rfl
        · cases hc
        · cases hc
        · exact Or.inr rfl
  | copied slot _ =>
      refine .back ?_ ?_ ?_
      · simp [recvGot, recvReceiving, recvReceived, recvCopying, recvCopied]
      · simp [recvReading, recvReady, recvAsked, recvGot, recvReceiving, recvReceived, recvCopying,
          recvCopied]
      · intro c hc hmem
        simp [recvReading, recvReady, recvAsked, recvGot, recvReceiving, recvReceived, recvCopying,
          recvCopied] at hmem ⊢
        rcases hmem with rfl | rfl | rfl | rfl
        · cases hc
        · cases hc
        · exact Or.inr (Or.inl rfl)
        · exact Or.inr (Or.inr rfl)
  | receivedCpu _ =>
      refine .waiting ?_ ?_
      · simp [recvReading, recvReady, recvReceivingCpu, recvReceivedCpu]
      · simp [recvReading, recvReady, recvReceivingCpu, recvReceivedCpu]

/-- A chunk in the queue holds the slot that it stores. -/
theorem recvStored_stage {error : Bool} {op : ChunkRecvOperation} {w : RecvHistory}
    (h : RecvStored error op w) : SlotStage RecvCall.onSlot op.sequenceNumber none w
      ∨ SlotStage RecvCall.onSlot op.sequenceNumber op.tmpBuffer w := by
  cases h with
  | uninitialized => exact Or.inl (.waiting (by simp) (by simp))
  | reading => exact Or.inl (.waiting (by simp [recvReading]) (by simp [recvReading]))
  | ready =>
      refine Or.inl (.waiting ?_ ?_)
      · simp [recvReading, recvReady]
      · simp [recvReading, recvReady]
  | allocating _ =>
      refine Or.inl (.waiting ?_ ?_)
      · simp [recvReading, recvReady, recvAsked]
      · simp [recvReading, recvReady, recvAsked]
  | refused slot _ _ =>
      refine Or.inl (.refused (List.mem_append_right _ (List.mem_singleton_self _))
        (by simp [recvReading, recvReady, recvAsked]) ?_)
      intro c hc hmem
      simp [recvReading, recvReady, recvAsked] at hmem
      rcases hmem with rfl | rfl
      · cases hc
      · cases hc
  | receivingCpu _ =>
      refine Or.inl (.waiting ?_ ?_)
      · simp [recvReading, recvReady, recvReceivingCpu]
      · simp [recvReading, recvReady, recvReceivingCpu]
  | receivedCpu _ =>
      refine Or.inl (.waiting ?_ ?_)
      · simp [recvReading, recvReady, recvReceivingCpu, recvReceivedCpu]
      · simp [recvReading, recvReady, recvReceivingCpu, recvReceivedCpu]
  | finished _ hgone => exact Or.inl (recvGone_stage hgone)
  | _ =>
      refine Or.inr (.held ?_ ?_)
      · simp [recvGot, recvReceiving, recvReceived, recvCopying, recvCopied]
      · simp [recvReading, recvReady, recvAsked, recvGot, recvReceiving, recvReceived, recvCopying,
          recvCopied]

/-- Without an error, a chunk that is gone kept the slot it was given. -/
theorem recvGone_stored {n : Nat} {k : Chunk} {w : RecvHistory} (h : RecvGone false n k w)
    {m : Nat} {slot : Option Nat} {stored : Bool} (hmem : .delivered m slot stored ∈ w) :
    stored = true ∧ slot.isSome = true := by
  cases h <;> simp_all [recvReading, recvReady, recvAsked, recvGot, recvReceiving, recvReceived,
    recvCopying, recvCopied, recvReceivingCpu, recvReceivedCpu]

/-- Without an error, a chunk keeps the slot it is given. -/
theorem recvStored_delivered {op : ChunkRecvOperation} {w : RecvHistory}
    (h : RecvStored false op w) {m : Nat} {slot : Option Nat} {stored : Bool}
    (hmem : .delivered m slot stored ∈ w) : stored = true ∧ slot.isSome = true := by
  cases h with
  | finished _ hgone => exact recvGone_stored hgone hmem
  | _ => simp_all [recvReading, recvReady, recvAsked, recvGot, recvReceiving, recvReceived,
      recvCopying, recvCopied, recvReceivingCpu, recvReceivedCpu]

/-- A chunk at the front that cannot move waits for a report or for its slot. -/
theorem recvStored_waits {error : Bool} {op : ChunkRecvOperation} {w : RecvHistory}
    (h : RecvStored error op w) (hstate : op.state ≠ .finished)
    (hfront : ¬ Enabled (advanceChunkRecvOperation error) .finished op) :
    (∃ c, .issued c ∈ w ∧ .reported c ∉ w ∧ c.captures = some op.sequenceNumber ∧ c.asks = none)
      ∨ ((∃ c, .issued c ∈ w ∧ c.asks = some op.sequenceNumber)
        ∧ ∀ slot stored, .delivered op.sequenceNumber slot stored ∉ w) := by
  cases h with
  | finished hfin _ => exact absurd hfin hstate
  | reading =>
      refine Or.inl ⟨_, List.mem_cons_of_mem _ (List.mem_cons_self ..), ?_, rfl, rfl⟩
      simp [recvReading]
  | allocating hk =>
      refine Or.inr ⟨⟨_, List.mem_append_right _ (List.mem_singleton_self _), rfl⟩, ?_⟩
      simp [recvReading, recvReady, recvAsked]
  | receiving slot hk =>
      refine Or.inl ⟨_, List.mem_append_right _ (List.mem_singleton_self _), ?_, rfl, rfl⟩
      simp [recvReading, recvReady, recvAsked, recvGot, recvReceiving]
  | receivingCpu hk =>
      refine Or.inl ⟨_, List.mem_append_right _ (List.mem_singleton_self _), ?_, rfl, rfl⟩
      simp [recvReading, recvReady, recvReceivingCpu]
  | invokedCopying slot hk =>
      refine Or.inl ⟨_, List.mem_append_right _ (List.mem_singleton_self _), ?_, rfl, rfl⟩
      simp [recvReading, recvReady, recvAsked, recvGot, recvReceiving, recvReceived, recvCopying]
  | _ => cases error <;> simp_all +decide [Enabled, advanceChunkRecvOperation, Operation.state]

-- ── What is promised ─────────────────────────────────────────────────────────

/-- The promises about the slots of one half. -/
structure SlotSafety {Op State Call : Type} [Operation Op State]
    (captures asks onSlot : Call → Option Nat) (tmpBuffer : Op → Option Nat) (error : Bool)
    (x : Queue Op (Staging Call)) : Prop where
  /-- Requests are issued in chunk order, and answered in the order in which they are issued. -/
  asksInOrder : (requests asks x.outside.log).Pairwise (· < ·)
  grantsInOrder : (allocations x.outside.log).map Prod.fst <+: requests asks x.outside.log
  /-- A later chunk that was granted a slot, or holds one, waited for the earlier ones. -/
  noHoldAndWait : error = false → ∀ i j k callback slot, i < j →
    .emplaced i k callback ∈ x.outside.log → k.isCpuBuffer = false →
    (.allocated j (some slot) ∈ x.outside.log →
      ∃ slot', .allocated i (some slot') ∈ x.outside.log)
    ∧ (.delivered j (some slot) true ∈ x.outside.log →
      ∃ slot', .delivered i (some slot') true ∈ x.outside.log)
  /-- A slot is on its way to the operation, held by it, or was returned, once. -/
  returnedOnce : ∀ n slot, .allocated n (some slot) ∈ x.outside.log →
    ((n, some slot) ∈ x.outside.grants ∧ returns n x.outside.log = [])
    ∨ (∃ op ∈ x.ops, sequenceNumber op = n ∧ tmpBuffer op = some slot
        ∧ returns n x.outside.log = [])
    ∨ returns n x.outside.log = [slot]
  returnedGranted : ∀ n, ∀ slot ∈ returns n x.outside.log,
    .allocated n (some slot) ∈ x.outside.log
  /-- Whatever works on a slot has reported when the slot goes back. -/
  notEarly : Always (fun before e => ∀ n slot, e = .returned n slot ∨ e = .dropped n slot →
    ∀ c, onSlot c = some n → .issued c ∈ x.outside.log → .reported c ∈ before) x.outside.log
  /-- Once everything has reported and every request was answered, nothing is held. -/
  settled : (∀ c, (captures c).isSome = true → asks c = none → ¬ x.outside.outstanding c) →
    (deliveries x.outside.log).map Prod.fst = requests asks x.outside.log →
    x.outside.grants = [] ∧ x.ops = []

/-- What the histories of a half say about its slots. -/
structure SlotLaws {Op State Call : Type} [Operation Op State] (K : Kind Op State Call)
    (ts : Bool → List (Transition (Staging Call) Op State)) (onSlot : Call → Option Nat)
    (tmpBuffer : Op → Option Nat) : Prop where
  captures_onSlot : ∀ c n, onSlot c = some n → K.captures c = some n
  stored : ∀ e op w, K.Stored e op w → SlotStage onSlot (sequenceNumber op) none w
    ∨ SlotStage onSlot (sequenceNumber op) (tmpBuffer op) w
  gone : ∀ e n k w, K.Gone e n k w → SlotStage onSlot n none w
  stored_delivered : ∀ op w, K.Stored false op w → ∀ m slot stored, .delivered m slot stored ∈ w →
    stored = true ∧ slot.isSome = true
  gone_delivered : ∀ n k w, K.Gone false n k w → ∀ m slot stored, .delivered m slot stored ∈ w →
    stored = true ∧ slot.isSome = true
  waits : ∀ e op w, K.Stored e op w → Operation.state op ≠ finished Op →
    ¬ Enabled (ts e) (finished Op) op →
    (∃ c, .issued c ∈ w ∧ .reported c ∉ w ∧ K.captures c = some (sequenceNumber op)
        ∧ K.asks c = none)
      ∨ ((∃ c, .issued c ∈ w ∧ K.asks c = some (sequenceNumber op))
        ∧ ∀ slot stored, .delivered (sequenceNumber op) slot stored ∉ w)

section Safety

variable {Op State Call : Type} [Operation Op State] {K : Kind Op State Call}
  {ts : Bool → List (Transition (Staging Call) Op State)} {onSlot : Call → Option Nat}
  {tmpBuffer : Op → Option Nat} {error : Bool} {next n : Nat} {s : Staging Call} {ops : List Op}

/-- Where the slot of chunk `n` is. -/
theorem slotStage_of (hL : SlotLaws K ts onSlot tmpBuffer) (h : ChunkInv K error next s ops)
    (n : Nat) :
    ∃ held, SlotStage onSlot n held (history (Event.about K.captures) n s.log)
      ∧ ∀ slot, held = some slot → ∃ op ∈ ops, sequenceNumber op = n ∧ tmpBuffer op = some slot := by
  by_cases hn : n < next
  · rcases h.tracked.cases_lt hn with ⟨op, hop, rfl, hstored⟩ | ⟨-, k, hgone⟩
    · rcases hL.stored _ _ _ hstored with hnone | hheld
      · exact ⟨none, hnone, nofun⟩
      · exact ⟨_, hheld, fun slot hslot => ⟨op, hop, rfl, hslot⟩⟩
    · exact ⟨none, hL.gone _ _ _ _ hgone, nofun⟩
  · rw [h.tracked.fresh n (Nat.le_of_not_lt hn)]
    exact ⟨none, .waiting nofun nofun, nofun⟩

/-- The answers, and so the deliveries, come in chunk order. -/
theorem allocations_sorted (h : ChunkInv K error next s ops) :
    (allocations s.log).Pairwise (fun a b => a.1 < b.1) := by
  have hsorted := h.sorted
  rw [← h.slots.fifo] at hsorted
  exact List.pairwise_map.mp (List.pairwise_append.mp hsorted).1

/-- The answers are delivered in the order of the chunks. -/
theorem deliveries_sorted (h : ChunkInv K error next s ops) :
    (deliveries s.log).Pairwise (fun a b => a.1 < b.1) := by
  have hsorted := allocations_sorted h
  rw [h.slots.deferred] at hsorted
  exact (List.pairwise_append.mp hsorted).1

/-- A chunk gets one answer. -/
theorem delivered_unique (h : ChunkInv K error next s ops) {slot slot' : Option Nat}
    {stored stored' : Bool} (hmem : .delivered n slot stored ∈ s.log)
    (hmem' : .delivered n slot' stored' ∈ s.log) : slot = slot' ∧ stored = stored' := by
  have heq := eq_of_sorted (deliveries_sorted h) hmem hmem' rfl rfl
  obtain ⟨-, hslot, hstored⟩ := Event.delivered.inj heq
  exact ⟨hslot, hstored⟩

/-- An answer that is still to run was not delivered. -/
theorem not_delivered_of_grant (h : ChunkInv K error next s ops) {slot : Option Nat}
    (hgrant : (n, slot) ∈ s.grants) : ∀ slot stored, .delivered n slot stored ∉ s.log := by
  intro slot' stored hmem
  have hsorted := allocations_sorted h
  rw [h.slots.deferred] at hsorted
  have hlt := (List.pairwise_append.mp hsorted).2.2 (n, slot') (mem_deliveries.mpr ⟨stored, hmem⟩)
    (n, slot) hgrant
  exact Nat.lt_irrefl n hlt

/-- A delivered slot was granted. -/
theorem allocated_of_delivered (h : ChunkInv K error next s ops) {slot : Option Nat} {stored : Bool}
    (hmem : .delivered n slot stored ∈ s.log) : .allocated n slot ∈ s.log := by
  rw [← mem_allocations, h.slots.deferred]
  exact List.mem_append_left _ (mem_deliveries.mpr ⟨stored, hmem⟩)

/-- The slots that were not stored, and so the ones dropped, have increasing numbers. -/
theorem unstored_sorted (h : ChunkInv K error next s ops) :
    (unstored s.log).Pairwise (fun a b => a.1 < b.1) := by
  have hsorted := deliveries_sorted h
  rw [deliveries, List.pairwise_filterMap] at hsorted
  rw [unstored, List.pairwise_filterMap]
  refine hsorted.imp ?_
  intro e e' hlt b hb b' hb'
  cases e with
  | delivered m slot stored =>
      cases e' with
      | delivered m' slot' stored' =>
          have hm := hlt _ rfl _ rfl
          cases slot with
          | none => cases hb
          | some slot =>
              cases slot' with
              | none => cases hb'
              | some slot' =>
                  cases stored with
                  | true => cases hb
                  | false =>
                      cases stored' with
                      | true => cases hb'
                      | false =>
                          rw [← Option.some.inj hb, ← Option.some.inj hb']
                          exact hm
      | _ => cases hb'
  | _ => cases hb

section Promises

variable {x : Queue Op (Staging Call)}

/-- A slot that was allocated is on its way, held or returned, once. -/
theorem safety_returnedOnce (hL : SlotLaws K ts onSlot tmpBuffer) (h : HalfInv K ts error x)
    {slot : Nat} (hmem : .allocated n (some slot) ∈ x.outside.log) :
    ((n, some slot) ∈ x.outside.grants ∧ returns n x.outside.log = [])
    ∨ (∃ op ∈ x.ops, sequenceNumber op = n ∧ tmpBuffer op = some slot
        ∧ returns n x.outside.log = [])
    ∨ returns n x.outside.log = [slot] := by
  have hinv := h.quiet.inv
  obtain ⟨held, hstage, hheld⟩ := slotStage_of hL hinv n
  have hreturns : returns n x.outside.log
      = (history (Event.about K.captures) n x.outside.log).filterMap (Event.returned? n)
        ++ (unstored x.outside.log).filterMap (fun p => if p.1 = n then some p.2 else none) := by
    rw [returns, returned_history K.captures, h.ledger]
  have hsettled : ∀ slot' stored, .delivered n slot' stored ∈ x.outside.log → stored = true →
      (unstored x.outside.log).filterMap (fun p => if p.1 = n then some p.2 else none) = [] := by
    rintro slot' stored hdelivered rfl
    refine keyed_nil (fun slot'' hmem'' => ?_)
    exact nomatch (delivered_unique hinv hdelivered (mem_unstored.mp hmem'')).2
  rw [hreturns]
  rw [← mem_allocations, hinv.slots.deferred] at hmem
  generalize hw : history (Event.about K.captures) n x.outside.log = w at hstage
  have hlog : ∀ e ∈ w, e ∈ x.outside.log := fun e he => (mem_history.mp (hw ▸ he)).1
  rcases List.mem_append.mp hmem with hdeliveries | hgrants
  · obtain ⟨stored, hdelivered⟩ := mem_deliveries.mp hdeliveries
    have hin : .delivered n (some slot) stored ∈ w := hw ▸ mem_history.mpr ⟨hdelivered, rfl⟩
    cases hstage with
    | waiting hno _ => exact absurd hin (hno _ _)
    | refused hstored hret _ =>
        obtain ⟨rfl, rfl⟩ := delivered_unique hinv (hlog _ hstored) hdelivered
        refine Or.inr (Or.inr ?_)
        rw [returned_nil hret, keyed_single (unstored_sorted hinv) (mem_unstored.mpr hdelivered)]
        rfl
    | held hstored hret =>
        obtain ⟨heq, -⟩ := delivered_unique hinv (hlog _ hstored) hdelivered
        obtain rfl := Option.some.inj heq
        obtain ⟨op, hop, hn, htmp⟩ := hheld _ rfl
        refine Or.inr (Or.inl ⟨op, hop, hn, htmp, ?_⟩)
        rw [returned_nil hret, hsettled _ _ (hlog _ hstored) rfl]
        rfl
    | back hstored hret _ =>
        have hold := hlog _ (List.mem_append_left _ hstored)
        obtain ⟨heq, -⟩ := delivered_unique hinv hold hdelivered
        obtain rfl := Option.some.inj heq
        refine Or.inr (Or.inr ?_)
        rw [returned_snoc hret, hsettled _ _ hold rfl]
        rfl
  · have hno := not_delivered_of_grant hinv hgrants
    refine Or.inl ⟨hgrants, ?_⟩
    rw [keyed_nil (fun slot' hmem' => hno _ _ (mem_unstored.mp hmem')), List.append_nil]
    cases hstage with
    | waiting _ hret => exact returned_nil hret
    | refused hstored _ _ => exact absurd (hlog _ hstored) (hno _ _)
    | held hstored _ => exact absurd (hlog _ hstored) (hno _ _)
    | back hstored _ _ => exact absurd (hlog _ (List.mem_append_left _ hstored)) (hno _ _)

/-- A slot that is returned was allocated to the chunk. -/
theorem safety_returnedGranted (hL : SlotLaws K ts onSlot tmpBuffer) (h : HalfInv K ts error x)
    {slot : Nat} (hmem : slot ∈ returns n x.outside.log) :
    .allocated n (some slot) ∈ x.outside.log := by
  have hinv := h.quiet.inv
  rcases List.mem_append.mp hmem with hreturned | hdropped
  · obtain ⟨held, hstage, -⟩ := slotStage_of hL hinv n
    rw [returned_history K.captures] at hreturned
    generalize hw : history (Event.about K.captures) n x.outside.log = w at hstage hreturned
    cases hstage with
    | waiting _ hret => rw [returned_nil hret] at hreturned; exact nomatch hreturned
    | refused _ hret _ => rw [returned_nil hret] at hreturned; exact nomatch hreturned
    | held _ hret => rw [returned_nil hret] at hreturned; exact nomatch hreturned
    | back hstored hret _ =>
        rw [returned_snoc hret] at hreturned
        obtain rfl := List.mem_singleton.mp hreturned
        have hin : .delivered n (some slot) true
            ∈ history (Event.about K.captures) n x.outside.log := by
          rw [hw]
          exact List.mem_append_left _ hstored
        exact allocated_of_delivered hinv (mem_history.mp hin).1
  · obtain ⟨p, hp, hslot⟩ := List.mem_filterMap.mp hdropped
    by_cases hn : p.1 = n
    · rw [if_pos hn] at hslot
      rw [h.ledger] at hp
      obtain rfl := Option.some.inj hslot
      obtain rfl := hn
      exact allocated_of_delivered hinv (mem_unstored.mp hp)
    · rw [if_neg hn] at hslot
      exact nomatch hslot

/-- No slot is returned while a call works on it. -/
theorem safety_notEarly (hL : SlotLaws K ts onSlot tmpBuffer) (h : HalfInv K ts error x) :
    Always (fun before e => ∀ n slot, e = .returned n slot ∨ e = .dropped n slot →
      ∀ c, onSlot c = some n → .issued c ∈ x.outside.log → .reported c ∈ before)
      x.outside.log := by
  intro before e after hlog n slot he c hc hissued
  have hinv := h.quiet.inv
  obtain ⟨held, hstage, -⟩ := slotStage_of hL hinv n
  have hin : .issued c ∈ history (Event.about K.captures) n x.outside.log :=
    mem_history.mpr ⟨hissued, hL.captures_onSlot c n hc⟩
  rcases he with rfl | rfl
  · have hsplit : history (Event.about K.captures) n x.outside.log
        = history (Event.about K.captures) n before
          ++ .returned n slot :: history (Event.about K.captures) n after := by
      rw [hlog]
      exact history_split rfl
    have hret : .returned n slot ∈ history (Event.about K.captures) n x.outside.log := by
      rw [hsplit]
      exact List.mem_append_right _ (List.mem_cons_self ..)
    generalize history (Event.about K.captures) n x.outside.log = w at hstage hin hsplit hret
    cases hstage with
    | waiting _ hno => exact absurd hret (hno slot)
    | refused _ hno _ => exact absurd hret (hno slot)
    | held _ hno => exact absurd hret (hno slot)
    | @back w' slot' _ hno hcalls =>
        -- the return is the last event of the history
        rcases List.eq_nil_or_concat (history (Event.about K.captures) n after) with hnil | ⟨r, l, hl⟩
        · rw [hnil] at hsplit
          obtain ⟨rfl, -⟩ := List.append_inj' hsplit rfl
          rcases List.mem_append.mp hin with hold | hlast
          · exact (mem_history.mp (hcalls c hc hold)).1
          · exact nomatch List.mem_singleton.mp hlast
        · rw [hl, List.concat_eq_append, ← List.cons_append, ← List.append_assoc] at hsplit
          obtain ⟨rfl, -⟩ := List.append_inj' hsplit rfl
          exact absurd (List.mem_append_right _ (List.mem_cons_self ..)) (hno slot)
  · have hdrop : (n, slot) ∈ drops x.outside.log := by
      rw [hlog, drops_append]
      exact List.mem_append_right _ (List.mem_cons_self ..)
    rw [h.ledger] at hdrop
    have hdelivered := mem_unstored.mp hdrop
    have hheld : .delivered n (some slot) false
        ∈ history (Event.about K.captures) n x.outside.log := mem_history.mpr ⟨hdelivered, rfl⟩
    generalize hw : history (Event.about K.captures) n x.outside.log = w at hstage hin hheld
    have hmem : ∀ e ∈ w, e ∈ x.outside.log := fun e he => (mem_history.mp (hw ▸ he)).1
    cases hstage with
    | waiting hno _ => exact absurd hheld (hno _ _)
    | refused _ _ hcalls => exact absurd hin (hcalls c hc)
    | held hstored _ => exact nomatch (delivered_unique hinv hdelivered (hmem _ hstored)).2
    | back hstored _ _ =>
        exact nomatch (delivered_unique hinv hdelivered
          (hmem _ (List.mem_append_left _ hstored))).2

/-- When nothing is under way, all slots have been returned. -/
theorem safety_settled (hL : SlotLaws K ts onSlot tmpBuffer) (h : HalfInv K ts error x)
    (hcalls : ∀ c, (K.captures c).isSome = true → K.asks c = none → ¬ x.outside.outstanding c)
    (hanswered : (deliveries x.outside.log).map Prod.fst = requests K.asks x.outside.log) :
    x.outside.grants = [] ∧ x.ops = [] := by
  have hinv := h.quiet.inv
  constructor
  · have hfifo := hinv.slots.fifo
    rw [hinv.slots.deferred, ← hanswered, List.map_append, List.append_assoc] at hfifo
    have hnil := (List.append_eq_nil_iff.mp (List.append_right_eq_self.mp hfifo)).1
    exact List.map_eq_nil_iff.mp hnil
  · cases hops : x.ops with
    | nil => rfl
    | cons front rest =>
        exfalso
        have hstable := h.quiet.stable
        rw [Stable, hops] at hstable
        have hstored := hinv.tracked.stored front (by rw [hops]; exact List.mem_cons_self ..)
        rcases hL.waits _ _ _ hstored (h.quiet.frontOpen front rest hops) hstable.1 with
          ⟨c, hissued, hreported, hcaptures, hasks⟩ | ⟨⟨c, hissued, hasks⟩, hno⟩
        · refine hcalls c (by rw [hcaptures]; rfl) hasks ⟨(mem_history.mp hissued).1, ?_⟩
          exact fun hmem => hreported (mem_history.mpr ⟨hmem, hcaptures⟩)
        · have hrequest : sequenceNumber front ∈ requests K.asks x.outside.log :=
            mem_requests.mpr ⟨c, (mem_history.mp hissued).1, hasks⟩
          rw [← hanswered] at hrequest
          obtain ⟨⟨m, slot⟩, hmem, rfl⟩ := List.mem_map.mp hrequest
          obtain ⟨stored, hdelivered⟩ := mem_deliveries.mp hmem
          exact hno slot stored (mem_history.mpr ⟨hdelivered, rfl⟩)

/-- A chunk before one that was answered was answered too, if it has a slot to ask for. -/
theorem answered_before (h : ChunkInv K error next s ops) {i j : Nat} (hlt : i < j) {k : Chunk}
    {callback : Bool} (hemplaced : .emplaced i k callback ∈ s.log) (hk : k.isCpuBuffer = false)
    {slot : Option Nat} (hj : .allocated j slot ∈ s.log) : ∃ slot', .allocated i slot' ∈ s.log := by
  have hfifo := h.slots.fifo
  have hmem : j ∈ (allocations s.log).map Prod.fst :=
    List.mem_map.mpr ⟨(j, slot), mem_allocations.mpr hj, rfl⟩
  have hi : i ∈ requests K.asks s.log := by
    refine h.asked j ?_ i hlt k callback hemplaced hk
    rw [← hfifo]
    exact List.mem_append_left _ hmem
  rw [← hfifo] at hi
  rcases List.mem_append.mp hi with hanswered | hpending
  · obtain ⟨⟨m, slot'⟩, hmem', rfl⟩ := List.mem_map.mp hanswered
    exact ⟨slot', mem_allocations.mp hmem'⟩
  · have hsorted := h.sorted
    rw [← hfifo] at hsorted
    have := (List.pairwise_append.mp hsorted).2.2 j hmem i hpending
    omega

/-- A chunk gets a slot only when the CUDA chunks before it got theirs. -/
theorem safety_granted (h : ChunkInv K error next s ops) {i j : Nat} (hlt : i < j) {k : Chunk}
    {callback : Bool} (hemplaced : .emplaced i k callback ∈ s.log) (hk : k.isCpuBuffer = false)
    {slot : Nat} (hj : .allocated j (some slot) ∈ s.log) :
    ∃ slot', .allocated i (some slot') ∈ s.log := by
  obtain ⟨slot', hi⟩ := answered_before h hlt hemplaced hk hj
  cases slot' with
  | some slot' => exact ⟨slot', hi⟩
  | none =>
      -- a refusal comes before the grant, and after it nothing is granted
      exfalso
      obtain ⟨before, after, hlog⟩ := List.append_of_mem hj
      refine h.slots.granted before _ after hlog j slot rfl i ?_
      have hsorted := allocations_sorted h
      rw [← mem_allocations, hlog, allocations_append] at hi
      rw [hlog, allocations_append] at hsorted
      rcases List.mem_append.mp hi with hbefore | hafter
      · exact mem_allocations.mp hbefore
      · rcases List.mem_cons.mp hafter with heq | hrest
        · exact nomatch (Prod.mk.inj heq).2
        · have htail := (List.pairwise_append.mp hsorted).2.1
          have := (List.pairwise_cons.mp htail).1 _ hrest
          exact absurd this (Nat.lt_asymm hlt)

/-- Without an error, a chunk is told its slot after the CUDA chunks before it keep theirs. -/
theorem safety_held (hL : SlotLaws K ts onSlot tmpBuffer) (h : ChunkInv K false next s ops)
    {i j : Nat} (hlt : i < j) {k : Chunk} {callback : Bool}
    (hemplaced : .emplaced i k callback ∈ s.log) (hk : k.isCpuBuffer = false) {slot : Nat}
    {stored : Bool} (hj : .delivered j (some slot) stored ∈ s.log) :
    ∃ slot', .delivered i (some slot') true ∈ s.log := by
  obtain ⟨slot', hi⟩ := answered_before h hlt hemplaced hk (allocated_of_delivered h hj)
  rw [← mem_allocations, h.slots.deferred] at hi
  rcases List.mem_append.mp hi with hdelivered | hgrant
  · obtain ⟨stored', hmem⟩ := mem_deliveries.mp hdelivered
    have hin : .delivered i slot' stored' ∈ history (Event.about K.captures) i s.log :=
      mem_history.mpr ⟨hmem, rfl⟩
    have hgot : stored' = true ∧ slot'.isSome = true := by
      rcases h.tracked.cases_lt (h.lt_next hemplaced rfl) with ⟨op, -, -, hstored⟩ | ⟨-, k', hgone⟩
      · exact hL.stored_delivered op _ hstored i slot' stored' hin
      · exact hL.gone_delivered i k' _ hgone i slot' stored' hin
    obtain ⟨rfl, hsome⟩ := hgot
    obtain ⟨slot', rfl⟩ := Option.isSome_iff_exists.mp hsome
    exact ⟨slot', hmem⟩
  · have hsorted := allocations_sorted h
    rw [h.slots.deferred] at hsorted
    have := (List.pairwise_append.mp hsorted).2.2 _ (mem_deliveries.mpr ⟨stored, hj⟩) _ hgrant
    exact absurd this (Nat.lt_asymm hlt)

/-- The promises hold of a half whose invariant holds. -/
theorem slotSafety_of (hL : SlotLaws K ts onSlot tmpBuffer) (h : HalfInv K ts error x) :
    SlotSafety K.captures K.asks onSlot tmpBuffer error x where
  asksInOrder := h.quiet.inv.sorted
  grantsInOrder := ⟨_, h.quiet.inv.slots.fifo⟩
  noHoldAndWait := by
    rintro rfl i j k callback slot hlt hemplaced hk
    exact ⟨safety_granted h.quiet.inv hlt hemplaced hk, safety_held hL h.quiet.inv hlt hemplaced hk⟩
  returnedOnce := fun _ _ hmem => safety_returnedOnce hL h hmem
  returnedGranted := fun _ _ hmem => safety_returnedGranted hL h hmem
  notEarly := safety_notEarly hL h
  settled := safety_settled hL h

end Promises

end Safety

-- ── The two halves ───────────────────────────────────────────────────────────

/-- The sending half treats its slots by these laws. -/
theorem sendLaws : SlotLaws sendKind advanceChunkSendOperation SendCall.onSlot
    ChunkSendOperation.tmpBuffer where
  captures_onSlot := by
    intro c n hc
    cases c with
    | copyFromGpuToCpu m tmp k => exact hc
    | sendCpuBuffer m ptr length =>
        cases ptr with
        | staging slot => exact hc
        | user ptr => exact nomatch hc
    | _ => exact nomatch hc
  stored := fun _ _ _ h => sendStored_stage h
  gone := fun _ _ _ _ h => sendGone_stage h
  stored_delivered := fun _ _ h _ _ _ hmem => sendStored_delivered h hmem
  gone_delivered := fun _ _ _ h _ _ _ hmem => sendGone_stored h hmem
  waits := fun _ _ _ h hstate hfront => sendStored_waits h hstate hfront

/-- The receiving half treats its slots by these laws. -/
theorem recvLaws : SlotLaws recvKind advanceChunkRecvOperation RecvCall.onSlot
    ChunkRecvOperation.tmpBuffer where
  captures_onSlot := by
    intro c n hc
    cases c with
    | copyFromCpuToGpu m tmp k => exact hc
    | receiveCpuBuffer m ptr length =>
        cases ptr with
        | staging slot => exact hc
        | user ptr => exact nomatch hc
    | _ => exact nomatch hc
  stored := fun _ _ _ h => recvStored_stage h
  gone := fun _ _ _ _ h => recvGone_stage h
  stored_delivered := fun _ _ h _ _ _ hmem => recvStored_delivered h hmem
  gone_delivered := fun _ _ _ h _ _ _ hmem => recvGone_stored h hmem
  waits := fun _ _ _ h hstate hfront => recvStored_waits h hstate hfront

/-- **Staging slots.**  In every state of every run, whatever mix of buffers is sent and
    received and whenever errors come, the slots of both directions are granted in chunk order
    and returned exactly once, never while something works on them. -/
theorem staging_slots {x : ChannelImpl} (h : ChannelImpl.Reachable (fun _ _ => True) x) :
    SlotSafety SendCall.captures SendCall.asks SendCall.onSlot ChunkSendOperation.tmpBuffer x.error
        x.send
      ∧ SlotSafety RecvCall.captures RecvCall.asks RecvCall.onSlot ChunkRecvOperation.tmpBuffer
        x.error x.recv :=
  ⟨slotSafety_of sendLaws (channelInv_reachable h).send,
    slotSafety_of recvLaws (channelInv_reachable h).recv⟩

/-- Two chunks of a CUDA buffer get a slot each; the first one is copied and sent, and gives its
    slot back while the second one is still being copied. -/
def slotTasks : List Task :=
  [.send (.cuda 0 0 0) (kSlotSize + 1), .sendGrant, .sendGrant,
    .sendReport (.copyFromGpuToCpu 0 (some 0) ((Buffer.cuda 0 0 0).chunk 0 (kSlotSize + 1) 0)) false,
    .sendReport (.sendCpuBuffer 0 (.staging (some 0)) kSlotSize) false]

theorem staging_slots_two :
    (.allocated 1 (some 1) ∈ (slotTasks.foldl ChannelImpl.step (.init false)).send.outside.log
        ∧ .returned 0 0 ∈ (slotTasks.foldl ChannelImpl.step (.init false)).send.outside.log)
      ∧ SlotSafety SendCall.captures SendCall.asks SendCall.onSlot ChunkSendOperation.tmpBuffer
        false (slotTasks.foldl ChannelImpl.step (.init false)).send := by
  have hgranted : ChannelImpl.Reachable (fun _ _ => True)
      ((slotTasks.take 3).foldl ChannelImpl.step (.init false)) :=
    .step (.step (.step (.init false) (.send (.cuda 0 0 0) (kSlotSize + 1)) trivial trivial)
      .sendGrant trivial trivial) .sendGrant trivial trivial
  have hreturned : ChannelImpl.Reachable (fun _ _ => True)
      (slotTasks.foldl ChannelImpl.step (.init false)) :=
    .step (.step hgranted (.sendReport (.copyFromGpuToCpu 0 (some 0)
        ((Buffer.cuda 0 0 0).chunk 0 (kSlotSize + 1) 0)) false)
        ⟨⟨by decide +kernel, by decide +kernel⟩, nofun⟩ trivial)
      (.sendReport (.sendCpuBuffer 0 (.staging (some 0)) kSlotSize) false)
      ⟨⟨by decide +kernel, by decide +kernel⟩, nofun⟩ trivial
  exact ⟨⟨by decide +kernel, by decide +kernel⟩, (staging_slots hreturned).1⟩

end TpCudaBasic
