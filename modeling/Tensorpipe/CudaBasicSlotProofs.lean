import Mathlib.Tactic.Common
import Tensorpipe.CudaBasicHistoryProofs

/-! # The staging slots of the cuda_basic channel

    From the history of a chunk one reads that its slot goes back once, when nothing works on
    it any more.

    Requests are issued in the order of the chunks, because the transition that issues them
    waits for the previous operation to be that far.  The allocator is first come, first
    served, so that the grants come in the same order: no chunk waits for a slot while a later
    one holds one. -/

namespace TpCudaBasic

open TpStateMachine TpAllocator

-- ── Requests and grants ──────────────────────────────────────────────────────

section Slots

variable {Call : Type}

/-- The chunk that a request is for; `asks` tells the requests among the calls. -/
def Event.request? (asks : Call → Option Nat) : Event Call → Option Nat
  | issued call => asks call
  | _ => none

/-- The answer of the allocator that an entry records. -/
def Event.allocated? : Event Call → Option (Nat × Option Nat)
  | allocated n slot => some (n, slot)
  | _ => none

/-- The answer that an entry delivers. -/
def Event.delivered? : Event Call → Option (Nat × Option Nat)
  | delivered n slot _ => some (n, slot)
  | _ => none

/-- What the tasks log, and not the operations as they advance. -/
def Event.isOuter : Event Call → Bool
  | submitted _ _ _ => true
  | emplaced _ _ _ => true
  | reported _ => true
  | delivered _ _ _ => true
  | dropped _ _ => true
  | _ => false

/-- The slot that an entry drops. -/
def Event.dropped? : Event Call → Option (Nat × Nat)
  | dropped n slot => some (n, slot)
  | _ => none

/-- The slot that an entry delivers to a chunk which does not keep it. -/
def Event.unstored? : Event Call → Option (Nat × Nat)
  | delivered n (some slot) false => some (n, slot)
  | _ => none

/-- The chunks that asked for a slot, in the order in which they asked. -/
def requests (asks : Call → Option Nat) (log : List (Event Call)) : List Nat :=
  log.filterMap (Event.request? asks)

/-- The answers of the allocator, and those that the channel was told of. -/
def allocations (log : List (Event Call)) : List (Nat × Option Nat) :=
  log.filterMap Event.allocated?

/-- The answers delivered, in order. -/
def deliveries (log : List (Event Call)) : List (Nat × Option Nat) :=
  log.filterMap Event.delivered?

/-- The slots that went back from a callback, and those that were not stored. -/
def drops (log : List (Event Call)) : List (Nat × Nat) := log.filterMap Event.dropped?

/-- The slots delivered and not kept. -/
def unstored (log : List (Event Call)) : List (Nat × Nat) := log.filterMap Event.unstored?

/-- The requests of a log are those of its parts. -/
theorem requests_append (asks : Call → Option Nat) (log es : List (Event Call)) :
    requests asks (log ++ es) = requests asks log ++ requests asks es := List.filterMap_append ..

/-- The answers of a log are those of its parts. -/
theorem allocations_append (log es : List (Event Call)) :
    allocations (log ++ es) = allocations log ++ allocations es := List.filterMap_append ..

/-- The deliveries of a log are those of its parts. -/
theorem deliveries_append (log es : List (Event Call)) :
    deliveries (log ++ es) = deliveries log ++ deliveries es := List.filterMap_append ..

/-- The drops of a log are those of its parts. -/
theorem drops_append (log es : List (Event Call)) : drops (log ++ es) = drops log ++ drops es :=
  List.filterMap_append ..

/-- The slots not kept in a log are those of its parts. -/
theorem unstored_append (log es : List (Event Call)) :
    unstored (log ++ es) = unstored log ++ unstored es := List.filterMap_append ..

/-- A log that operations went on with. -/
def Grown (log log' : List (Event Call)) : Prop :=
  ∃ es, log' = log ++ es ∧ ∀ e ∈ es, e.isOuter = false

/-- A log has grown by nothing. -/
theorem grown_refl (log : List (Event Call)) : Grown log log :=
  ⟨[], (List.append_nil _).symm, nofun⟩

/-- Entries about the inside only are growth. -/
theorem Grown.append {log log' es : List (Event Call)} (h : Grown log log')
    (hes : ∀ e ∈ es, e.isOuter = false) : Grown log (log' ++ es) := by
  obtain ⟨es', rfl, hes'⟩ := h
  refine ⟨es' ++ es, List.append_assoc .., ?_⟩
  intro e he
  rcases List.mem_append.mp he with hold | hnew
  · exact hes' e hold
  · exact hes e hnew

/-- A log that grew keeps its entries. -/
theorem Grown.mem {log log' : List (Event Call)} (h : Grown log log') {e : Event Call}
    (he : e ∈ log) : e ∈ log' := by
  obtain ⟨es, rfl, -⟩ := h
  exact List.mem_append_left _ he

/-- A log that grew has no new entry about the outside. -/
theorem Grown.mem_outer {log log' : List (Event Call)} (h : Grown log log') {e : Event Call}
    (he : e ∈ log') (houter : e.isOuter = true) : e ∈ log := by
  obtain ⟨es, rfl, hes⟩ := h
  rcases List.mem_append.mp he with hold | hnew
  · exact hold
  · exact nomatch (hes e hnew).symm.trans houter

/-- What is read off the events of the tasks. -/
theorem Grown.filterMap {β : Type} {f : Event Call → Option β}
    (hf : ∀ e, e.isOuter = false → f e = none) {log log' : List (Event Call)}
    (h : Grown log log') : log'.filterMap f = log.filterMap f := by
  obtain ⟨es, rfl, hes⟩ := h
  have hnone : es.filterMap f = [] :=
    List.filterMap_eq_nil_iff.mpr (fun e he => hf e (hes e he))
  rw [List.filterMap_append, hnone, List.append_nil]

/-- Growth drops no slot. -/
theorem Grown.drops {log log' : List (Event Call)} (h : Grown log log') :
    drops log' = drops log := by
  refine h.filterMap (fun e he => ?_)
  cases e with
  | dropped n slot => exact nomatch he
  | _ => rfl

/-- Growth leaves no slot unstored. -/
theorem Grown.unstored {log log' : List (Event Call)} (h : Grown log log') :
    unstored log' = unstored log := by
  refine h.filterMap (fun e he => ?_)
  cases e with
  | delivered n slot stored => exact nomatch he
  | _ => rfl

/-- Growth delivers nothing. -/
theorem Grown.deliveries {log log' : List (Event Call)} (h : Grown log log') :
    deliveries log' = deliveries log := by
  refine h.filterMap (fun e he => ?_)
  cases e with
  | delivered n slot stored => exact nomatch he
  | _ => rfl

/-- An event that concerns no request. -/
def Event.Idle (asks : Call → Option Nat) (e : Event Call) : Prop :=
  e.request? asks = none ∧ e.allocated? = none ∧ e.delivered? = none

/-- Once a request has been refused, no other is granted. -/
def GrantedBefore (before : List (Event Call)) (e : Event Call) : Prop :=
  ∀ n slot, e = .allocated n (some slot) → ∀ m, .allocated m none ∉ before

/-- The requests, in order, are the ones answered and the ones pending; the answers, in
    order, are the ones delivered and the ones deferred to the loop. -/
structure SlotInv (asks : Call → Option Nat) (s : Staging Call) : Prop where
  fifo : (allocations s.log).map Prod.fst ++ s.allocator.pendingAllocations.filterMap id
    = requests asks s.log
  deferred : allocations s.log = deliveries s.log ++ s.grants
  refused : ∀ n, .allocated n none ∈ s.log → s.allocator.closed = true
  granted : Always GrantedBefore s.log

variable {asks : Call → Option Nat} {s : Staging Call}

/-- Before any request every slot is free. -/
theorem slotInv_init : SlotInv asks ({} : Staging Call) :=
  ⟨rfl, rfl, nofun, always_nil⟩

/-- An entry that is about no slot keeps the account. -/
theorem slotInv_record (h : SlotInv asks s) {e : Event Call} (he : e.Idle asks) :
    SlotInv asks (s.record e) := by
  obtain ⟨hrequest, hallocated, hdelivered⟩ := he
  have hnot : ∀ n slot, e ≠ .allocated n slot := by
    rintro n slot rfl
    exact nomatch hallocated
  have hnoRequest : requests asks [e] = [] := List.filterMap_cons_none hrequest
  have hnoAnswer : allocations [e] = [] := List.filterMap_cons_none hallocated
  have hnoDelivery : deliveries [e] = [] := List.filterMap_cons_none hdelivered
  refine ⟨?_, ?_, ?_, ?_⟩
  · show (allocations (s.log ++ [e])).map Prod.fst ++ _ = requests asks (s.log ++ [e])
    rw [allocations_append, requests_append, hnoAnswer, hnoRequest, List.append_nil,
      List.append_nil]
    exact h.fifo
  · show allocations (s.log ++ [e]) = deliveries (s.log ++ [e]) ++ s.grants
    rw [allocations_append, deliveries_append, hnoAnswer, hnoDelivery, List.append_nil,
      List.append_nil]
    exact h.deferred
  · intro n hn
    rcases List.mem_append.mp hn with hold | hnew
    · exact h.refused n hold
    · exact absurd (List.mem_singleton.mp hnew).symm (hnot n none)
  · exact always_snoc.mpr ⟨h.granted, fun n slot heq => absurd heq (hnot n (some slot))⟩

/-- The answers of a half are those to its own chunks. -/
theorem own_owners (answers : List (Answer (Option Nat))) :
    (Staging.own answers).map Prod.fst = (answers.map Prod.fst).filterMap id := by
  induction answers with
  | nil => rfl
  | cons answer rest ih =>
      obtain ⟨owner, slot⟩ := answer
      cases owner with
      | none => exact ih
      | some n => exact congrArg (n :: ·) ih

/-- An answer is one of the half's when its owner is a chunk of the half. -/
theorem mem_own {answers : List (Answer (Option Nat))} {n : Nat} {slot : Option Nat} :
    (n, slot) ∈ Staging.own answers ↔ (some n, slot) ∈ answers := by
  rw [Staging.own, List.mem_filterMap]
  constructor
  · rintro ⟨⟨owner, slot'⟩, hmem, heq⟩
    cases owner with
    | none => exact nomatch heq
    | some m =>
        obtain ⟨rfl, rfl⟩ := Prod.mk.inj (Option.some.inj heq)
        exact hmem
  · intro hmem
    exact ⟨(some n, slot), hmem, rfl⟩

/-- The answers that the allocator gives are those that are logged. -/
theorem allocations_events (answers : List (Nat × Option Nat)) :
    allocations (allocatedEvents answers : List (Event Call)) = answers := by
  rw [allocations, allocatedEvents, List.filterMap_map]
  exact List.filterMap_some

/-- What the allocator logs is seen by no reading that ignores answers. -/
theorem filterMap_events {β : Type} {f : Event Call → Option β}
    (hf : ∀ n slot, f (.allocated n slot) = none) (answers : List (Nat × Option Nat)) :
    (allocatedEvents answers).filterMap f = [] := by
  rw [allocatedEvents, List.filterMap_map]
  exact List.filterMap_eq_nil_iff.mpr (fun a _ => hf a.1 a.2)

/-- The allocator goes through its pending requests. -/
theorem slotInv_processAllocations {a : Allocator (Option Nat)}
    (hfifo : (allocations s.log).map Prod.fst ++ a.pendingAllocations.filterMap id
      = requests asks s.log)
    (hdeferred : allocations s.log = deliveries s.log ++ s.grants)
    (hrefused : ∀ n, .allocated n none ∈ s.log → a.closed = true)
    (hgranted : Always GrantedBefore s.log) : SlotInv asks (s.answered a.processAllocations) := by
  have hpending := Allocator.processAllocationsLoop_fifo a.pendingAllocations a
  obtain ⟨hclosed, hanswers⟩ := Allocator.processAllocationsLoop_closed a.pendingAllocations a
  rw [← Allocator.processAllocations] at hpending hclosed hanswers
  generalize a.processAllocations = y at hpending hclosed hanswers
  have hclosing : ∀ n, .allocated n none ∈ s.log ++ allocatedEvents (Staging.own y.2) →
      a.closed = true := by
    intro n hn
    rcases List.mem_append.mp hn with hold | hnew
    · exact hrefused n hold
    · obtain ⟨⟨m, slot⟩, hmem, heq⟩ := List.mem_map.mp hnew
      obtain ⟨rfl, rfl⟩ := Event.allocated.inj heq
      exact (hanswers _ (mem_own.mp hmem)).mp rfl
  refine ⟨?_, ?_, ?_, ?_⟩
  · rw [answered_log, allocations_append, requests_append, allocations_events, requests,
      requests, filterMap_events (fun _ _ => rfl), List.append_nil, ← requests, List.map_append,
      own_owners, List.append_assoc]
    show _ ++ (_ ++ y.1.pendingAllocations.filterMap id) = _
    rw [← List.filterMap_append, hpending]
    exact hfifo
  · rw [answered_log, allocations_append, deliveries_append, allocations_events, hdeferred,
      deliveries, deliveries, filterMap_events (fun _ _ => rfl), List.append_nil,
      List.append_assoc]
    rfl
  · intro n hn
    exact hclosed.trans (hclosing n hn)
  · rw [answered_log]
    -- the answers of one round are all grants or all refusals
    by_cases hyes : a.closed = true
    · refine always_append hgranted ?_
      intro e he before n slot heq
      obtain ⟨⟨m, slot'⟩, hmem, rfl⟩ := List.mem_map.mp he
      obtain ⟨rfl, rfl⟩ := Event.allocated.inj heq
      exact nomatch (hanswers _ (mem_own.mp hmem)).mpr hyes
    · intro before e after hlog n slot heq m hm
      refine hyes (hclosing m ?_)
      rw [hlog]
      exact List.mem_append_left _ hm

/-- A request keeps the account, answered at once or not. -/
theorem slotInv_alloc (h : SlotInv asks s) {n : Nat} {call : Call} (hcall : asks call = some n) :
    SlotInv asks (s.alloc n call) := by
  refine slotInv_processAllocations (s := s.issue call) ?_ ?_ ?_ ?_
  · show (allocations (s.log ++ [_])).map Prod.fst
      ++ (s.allocator.pendingAllocations ++ [some n]).filterMap id = requests asks (s.log ++ [_])
    have hrequest : requests asks [.issued call] = [n] :=
      List.filterMap_cons_some (by exact hcall)
    have hanswer : allocations [.issued call] = [] := rfl
    rw [allocations_append, requests_append, hrequest, hanswer, List.append_nil, ← h.fifo,
      List.filterMap_append, List.append_assoc]
    rfl
  · show allocations (s.log ++ [_]) = deliveries (s.log ++ [_]) ++ s.grants
    have hanswer : allocations [.issued call] = [] := rfl
    have hdelivery : deliveries [.issued call] = [] := rfl
    rw [allocations_append, deliveries_append, hanswer, hdelivery, List.append_nil,
      List.append_nil]
    exact h.deferred
  · intro m hm
    rcases List.mem_append.mp hm with hold | hnew
    · exact h.refused m hold
    · exact nomatch List.mem_singleton.mp hnew
  · exact always_snoc.mpr ⟨h.granted, fun _ _ heq => (nomatch heq)⟩

/-- A returned slot keeps the account, and may be given out again at once. -/
theorem slotInv_release (h : SlotInv asks s) (n slot : Nat) : SlotInv asks (s.release n slot) := by
  have hrecord := slotInv_record h (e := .returned n slot) ⟨rfl, rfl, rfl⟩
  exact slotInv_processAllocations (s := s.record (.returned n slot)) hrecord.fifo
    hrecord.deferred hrecord.refused hrecord.granted

/-- Closing the allocator keeps the account. -/
theorem slotInv_close (h : SlotInv asks s) : SlotInv asks s.close := by
  rw [Staging.close, Allocator.close]
  by_cases hclosed : s.allocator.closed = true
  · rw [if_pos hclosed]
    have hsame : s.answered (s.allocator, []) = s := by
      simp [Staging.answered, Staging.own, Staging.foreign]
    rw [hsame]
    exact h
  · rw [if_neg hclosed]
    exact slotInv_processAllocations (a := { s.allocator with closed := true }) h.fifo h.deferred
      (fun _ _ => rfl) h.granted

/-- What the other users of the allocator do keeps the account. -/
theorem slotInv_other (h : SlotInv asks s) (slot : Option Nat) : SlotInv asks (s.other slot) := by
  cases slot with
  | none =>
      refine slotInv_processAllocations (s := s) ?_ h.deferred h.refused h.granted
      show _ ++ (s.allocator.pendingAllocations ++ [none]).filterMap id = _
      rw [List.filterMap_append, ← h.fifo]
      simp
  | some slot =>
      exact slotInv_processAllocations (s := { s with others := s.others.erase slot }) h.fifo
        h.deferred h.refused h.granted

/-- Delivering the first answer keeps the account. -/
theorem slotInv_deliver (h : SlotInv asks s) {n : Nat} {slot : Option Nat}
    {rest : List (Nat × Option Nat)} (error : Bool) (hgrants : s.grants = (n, slot) :: rest) :
    SlotInv asks (s.deliver error n slot) := by
  refine ⟨?_, ?_, ?_, ?_⟩
  · show (allocations (s.log ++ [_])).map Prod.fst ++ _ = requests asks (s.log ++ [_])
    have hrequest : requests asks [.delivered n slot !error] = [] := rfl
    have hanswer : allocations ([.delivered n slot !error] : List (Event Call)) = [] := rfl
    rw [allocations_append, requests_append, hrequest, hanswer, List.append_nil, List.append_nil]
    exact h.fifo
  · show allocations (s.log ++ [_]) = deliveries (s.log ++ [_]) ++ s.grants.tail
    have hanswer : allocations ([.delivered n slot !error] : List (Event Call)) = [] := rfl
    have hdelivery : deliveries ([.delivered n slot !error] : List (Event Call)) = [(n, slot)] := rfl
    rw [allocations_append, deliveries_append, hanswer, hdelivery, List.append_nil, h.deferred,
      hgrants, List.append_assoc]
    rfl
  · intro m hm
    rcases List.mem_append.mp hm with hold | hnew
    · exact h.refused m hold
    · exact nomatch List.mem_singleton.mp hnew
  · exact always_snoc.mpr ⟨h.granted, fun _ _ heq => (nomatch heq)⟩

end Slots

-- ── The invariant of a half ──────────────────────────────────────────────────

/-- What the two halves differ in: their calls and the requests among them, how far an
    operation must be for its request to be out, and the histories of its chunks.  Without
    an error the `order` of the operations never increases along the queue. -/
structure Kind (Op State Call : Type) where
  captures : Call → Option Nat
  asks : Call → Option Nat
  order : State → Nat
  stage : Nat
  chunk : Op → Chunk
  Stored : Bool → Op → List (Event Call) → Prop
  Gone : Bool → Nat → Chunk → List (Event Call) → Prop

section Halves

variable {Op State Call : Type} [Operation Op State]

/-- What the two kinds of chunk operations have in common. -/
structure Kind.Lawful (K : Kind Op State Call) : Prop where
  captures_asks : ∀ c n, K.asks c = some n → K.captures c = some n
  stage_le : K.stage ≤ K.order (finished Op)
  finished_gone : ∀ e op w, K.Stored e op w → Operation.state op = finished Op →
    K.Gone e (sequenceNumber op) (K.chunk op) w
  stored_error : ∀ e op w, K.Stored e op w → K.Stored true op w
  gone_error : ∀ e n k w, K.Gone e n k w → K.Gone true n k w
  stored_emplaced : ∀ e op w, K.Stored e op w → ∀ n k callback, .emplaced n k callback ∈ w →
    k = K.chunk op
  gone_emplaced : ∀ e n k w, K.Gone e n k w → ∀ m k' callback, .emplaced m k' callback ∈ w →
    k' = k
  stored_asked : ∀ op w, K.Stored false op w → (K.chunk op).isCpuBuffer = false →
    K.stage ≤ K.order (Operation.state op) → sequenceNumber op ∈ requests K.asks w
  stored_unasked : ∀ e op w, K.Stored e op w → K.order (Operation.state op) < K.stage →
    requests K.asks w = []
  gone_asked : ∀ n k w, K.Gone false n k w → k.isCpuBuffer = false → n ∈ requests K.asks w

/-- The chunks have the histories they should have; the chunks that asked for a slot did so
    in order, and none was passed over. -/
structure ChunkInv (K : Kind Op State Call) (error : Bool) (next : Nat) (s : Staging Call)
    (ops : List Op) : Prop where
  tracked : Tracked (Event.about K.captures) (K.Stored error)
    (fun n w => ∃ k, K.Gone error n k w) next s.log ops
  chained : error = false →
    Chained (fun prev op => K.order (Operation.state op) ≤ K.order prev) (finished Op) ops
  sorted : (requests K.asks s.log).Pairwise (· < ·)
  asked : ∀ m ∈ requests K.asks s.log, ∀ n < m, ∀ k callback, .emplaced n k callback ∈ s.log →
    k.isCpuBuffer = false → n ∈ requests K.asks s.log
  slots : SlotInv K.asks s

/-- What a move owes: its events continue the history `w`, a state later in the order is reached
    behind a previous operation that is as far, and so is a request issued. -/
structure Moved (K : Kind Op State Call) (error : Bool) (prev : State) (w : List (Event Call))
    (op op' : Op) (es : List (Event Call)) : Prop where
  number : sequenceNumber op' = sequenceNumber op
  concerns : Concerns K.captures (sequenceNumber op) es
  stored : K.Stored error op' (w ++ history (Event.about K.captures) (sequenceNumber op) es)
  order : K.order (Operation.state op) ≤ K.order (Operation.state op')
  gate : error = false → K.order (Operation.state op') ≤ K.order prev
    ∨ K.order (Operation.state op') = K.order (Operation.state op)
  emplaced : ∀ n k callback, .emplaced n k callback ∉ es
  requests : requests K.asks es = [] ∨ (requests K.asks es = [sequenceNumber op] ∧ error = false
    ∧ K.order (Operation.state op) < K.stage ∧ K.stage ≤ K.order prev)

variable {K : Kind Op State Call} {error : Bool} {next : Nat} {s s' : Staging Call}
  {ops pre post : List Op} {op op' : Op} {es : List (Event Call)}

omit [Operation Op State] in
/-- A chunk is among the requests when it issued a call that asks. -/
theorem mem_requests {asks : Call → Option Nat} {log : List (Event Call)} {n : Nat} :
    n ∈ requests asks log ↔ ∃ c, .issued c ∈ log ∧ asks c = some n := by
  rw [requests, List.mem_filterMap]
  constructor
  · rintro ⟨e, he, hn⟩
    cases e with
    | issued c => exact ⟨c, he, hn⟩
    | _ => exact nomatch hn
  · rintro ⟨c, hc, hn⟩
    exact ⟨.issued c, hc, hn⟩

/-- A request is part of the history of the chunk that it is for. -/
theorem mem_requests_history (hK : K.Lawful) {log : List (Event Call)} {n : Nat} :
    n ∈ requests K.asks (history (Event.about K.captures) n log) ↔ n ∈ requests K.asks log := by
  rw [mem_requests, mem_requests]
  constructor
  · rintro ⟨c, hc, hn⟩
    exact ⟨c, (mem_history.mp hc).1, hn⟩
  · rintro ⟨c, hc, hn⟩
    exact ⟨c, mem_history.mpr ⟨hc, hK.captures_asks c n hn⟩, hn⟩

/-- What an event of a chunk tells about the operation of that chunk. -/
theorem ChunkInv.lt_next (h : ChunkInv K error next s ops) {e : Event Call} (he : e ∈ s.log)
    {n : Nat} (hn : e.about K.captures = some n) : n < next := by
  refine Nat.lt_of_not_le (fun hle => ?_)
  have hmem := mem_history.mpr ⟨he, hn⟩
  rw [h.tracked.fresh n hle] at hmem
  exact nomatch hmem

/-- A chunk that is not far enough has no request out, and neither has one behind it. -/
theorem request_lt (hK : K.Lawful) (h : ChunkInv K false next s (pre ++ op :: post))
    (hstage : K.order (Operation.state op) < K.stage) {m : Nat}
    (hm : m ∈ requests K.asks s.log) : m < sequenceNumber op := by
  refine Nat.lt_of_not_le (fun hle => ?_)
  have hhist := (mem_requests_history hK).mpr hm
  have hlt : m < next := by
    obtain ⟨c, hc, hn⟩ := mem_requests.mp hm
    exact h.lt_next hc (hK.captures_asks c m hn)
  have hlast := numbered_mid h.tracked.numbered
  -- the operation of `m` is this one or stands behind it
  have hstored : ∃ o ∈ op :: post, sequenceNumber o = m := by
    have hnum := numbered_append h.tracked.numbered
    have hrange := numbered_range hnum
    have hmem : m ∈ (op :: post).map sequenceNumber := by
      rw [hrange, List.mem_range'_1, List.length_cons]
      omega
    obtain ⟨o, ho, rfl⟩ := List.mem_map.mp hmem
    exact ⟨o, ho, rfl⟩
  obtain ⟨o, ho, rfl⟩ := hstored
  have horder : K.order (Operation.state o) ≤ K.order (Operation.state op) := by
    have hch := (chained_append.mp (h.chained rfl)).2
    rcases List.mem_cons.mp ho with rfl | hpost
    · exact Nat.le_refl _
    · exact chained_rank_post (fun _ _ hR => hR) post _ hch.2 o hpost
  rw [hK.stored_unasked false o _ (h.tracked.stored o (List.mem_append_right _ ho)) (by omega)]
    at hhist
  exact nomatch hhist

/-- A chunk with a slot to ask for has asked, if a chunk behind it may ask. -/
theorem request_mem (hK : K.Lawful) (h : ChunkInv K false next s (pre ++ op :: post))
    (hstage : K.stage ≤ K.order (lastState (finished Op) pre)) {n : Nat}
    (hn : n < sequenceNumber op) {k : Chunk} {callback : Bool}
    (hemplaced : .emplaced n k callback ∈ s.log) (hk : k.isCpuBuffer = false) :
    n ∈ requests K.asks s.log := by
  have hlt : n < next := h.lt_next hemplaced rfl
  have hhist : .emplaced n k callback ∈ history (Event.about K.captures) n s.log :=
    mem_history.mpr ⟨hemplaced, rfl⟩
  rw [← mem_requests_history hK]
  rcases h.tracked.cases_lt hlt with ⟨o, ho, rfl, hstored⟩ | ⟨-, k', hgone⟩
  · obtain rfl := hK.stored_emplaced _ _ _ hstored _ _ _ hhist
    refine hK.stored_asked o _ hstored hk ?_
    rcases List.mem_append.mp ho with hpre | hrest
    · have hch := (chained_append.mp (h.chained rfl)).1
      exact Nat.le_trans hstage ((chained_rank_pre (fun _ _ hR => hR) pre _ hch).1 o hpre)
    · exfalso
      rcases List.mem_cons.mp hrest with rfl | hpost
      · exact Nat.lt_irrefl _ hn
      · have hnum := numbered_append h.tracked.numbered
        have := numbered_front hnum hpost
        omega
  · obtain rfl := hK.gone_emplaced _ _ _ _ hgone _ _ _ hhist
    exact hK.gone_asked n k _ hgone hk

/-- A lawful move of one operation keeps the invariant of the sequence. -/
theorem chunkInv_moved (hK : K.Lawful) (h : ChunkInv K error next s (pre ++ op :: post))
    (hm : Moved K error (lastState (finished Op) pre)
      (history (Event.about K.captures) (sequenceNumber op) s.log) op op' es)
    (hlog : s'.log = s.log ++ es) (hslots : SlotInv K.asks s') :
    ChunkInv K error next s' (pre ++ op' :: post) := by
  have hemplaced : ∀ n k callback, .emplaced n k callback ∈ s.log ++ es →
      .emplaced n k callback ∈ s.log := by
    intro n k callback hmem
    rcases List.mem_append.mp hmem with hold | hnew
    · exact hold
    · exact absurd hnew (hm.emplaced n k callback)
  refine ⟨?_, ?_, ?_, ?_, hslots⟩
  · rw [hlog]
    exact tracked_replace h.tracked hm.number hm.concerns hm.stored
  · intro herror
    have hch := h.chained herror
    refine chained_set hch ?_ (fun o ho => Nat.le_trans ho hm.order)
    rcases hm.gate herror with hgate | hsame
    · exact hgate
    · rw [hsame]
      exact (chained_append.mp hch).2.1
  · rw [hlog, requests_append]
    rcases hm.requests with hnone | ⟨hone, rfl, hstage, -⟩
    · rw [hnone, List.append_nil]
      exact h.sorted
    · rw [hone]
      refine List.pairwise_append.mpr ⟨h.sorted, List.pairwise_singleton _ _, ?_⟩
      intro m hmem n hn
      rw [List.mem_singleton.mp hn]
      exact request_lt hK h hstage hmem
  · rw [hlog, requests_append]
    intro m hmem n hn k callback hold hk
    replace hold := hemplaced n k callback hold
    rcases List.mem_append.mp hmem with hmold | hmnew
    · exact List.mem_append_left _ (h.asked m hmold n hn k callback hold hk)
    · rcases hm.requests with hnone | ⟨hone, rfl, -, hprev⟩
      · rw [hnone] at hmnew
        exact nomatch hmnew
      · rw [hone] at hmnew
        rw [List.mem_singleton.mp hmnew] at hn
        exact List.mem_append_left _ (request_mem hK h hprev hn hold hk)

/-- A finished operation at the front may be popped. -/
theorem chunkInv_pop (hK : K.Lawful) (h : ChunkInv K error next s (op :: post))
    (hfin : Operation.state op = finished Op) : ChunkInv K error next s post := by
  refine ⟨?_, ?_, h.sorted, h.asked, h.slots⟩
  · exact tracked_pop h.tracked (fun w hw => ⟨_, hK.finished_gone error op w hw hfin⟩)
  · intro herror
    have hch := (h.chained herror).2
    rw [hfin] at hch
    exact hch

/-- A new chunk at the back. -/
theorem chunkInv_push (hK : K.Lawful) (h : ChunkInv K error next s ops) {k : Chunk}
    {callback : Bool} (hnumber : sequenceNumber op = next)
    (horder : K.order (Operation.state op) = 0)
    (hstored : K.Stored error op [.emplaced next k callback]) :
    ChunkInv K error (next + 1) (s.record (.emplaced next k callback)) (ops ++ [op]) := by
  have hrequests : requests K.asks (s.log ++ [.emplaced next k callback])
      = requests K.asks s.log := by
    rw [requests_append]
    exact List.append_nil _
  refine ⟨?_, ?_, ?_, ?_, slotInv_record h.slots ⟨rfl, rfl, rfl⟩⟩
  · refine tracked_push h.tracked hnumber ?_ ?_
    · intro e he m hm
      rw [List.mem_singleton.mp he] at hm
      exact (Option.some.inj hm).symm
    · rw [history_cons (by rfl)]
      exact hstored
  · intro herror
    refine chained_snoc (h.chained herror) ?_
    rw [horder]
    exact Nat.zero_le _
  · show (requests K.asks (s.log ++ [_])).Pairwise _
    rw [hrequests]
    exact h.sorted
  · show ∀ m ∈ requests K.asks (s.log ++ [_]), ∀ n < m, ∀ k' callback', _ ∈ s.log ++ [_] → _ →
      n ∈ requests K.asks (s.log ++ [_])
    rw [hrequests]
    intro m hm n hn k' callback' hmem hk
    rcases List.mem_append.mp hmem with hold | hnew
    · exact h.asked m hm n hn k' callback' hold hk
    · -- the new chunk stands behind every chunk that asked
      obtain ⟨c, hc, hcm⟩ := mem_requests.mp hm
      have hlt := h.lt_next hc (hK.captures_asks c m hcm)
      obtain ⟨rfl, -, -⟩ := Event.emplaced.inj (List.mem_singleton.mp hnew)
      omega

/-- Events that concern no chunk and no request. -/
theorem chunkInv_append (h : ChunkInv K error next s ops) (hlog : s'.log = s.log ++ es)
    (habout : ∀ e ∈ es, e.about K.captures = none) (hes : requests K.asks es = [])
    (hslots : SlotInv K.asks s') : ChunkInv K error next s' ops := by
  refine ⟨?_, h.chained, ?_, ?_, hslots⟩
  · rw [hlog]
    exact tracked_append h.tracked habout
  · rw [hlog, requests_append, hes, List.append_nil]
    exact h.sorted
  · rw [hlog, requests_append, hes, List.append_nil]
    intro m hm n hn k callback hmem hk
    rcases List.mem_append.mp hmem with hold | hnew
    · exact h.asked m hm n hn k callback hold hk
    · exact nomatch habout _ hnew

/-- Setting the error keeps the invariant of the sequence. -/
theorem chunkInv_error (hK : K.Lawful) (h : ChunkInv K error next s ops) :
    ChunkInv K true next s ops :=
  ⟨tracked_imp h.tracked (hK.stored_error error)
    (fun n w hgone => hgone.imp (fun k hk => hK.gone_error error n k w hk)),
    nofun, h.sorted, h.asked, h.slots⟩

/-- The empty sequence. -/
theorem chunkInv_init : ChunkInv K error 0 ({} : Staging Call) [] :=
  ⟨⟨trivial, nofun, nofun, fun _ _ => rfl⟩, fun _ => trivial, List.Pairwise.nil, nofun,
    slotInv_init⟩

end Halves

-- ── A half and its tasks ─────────────────────────────────────────────────────

section Machines

variable {Op State Call : Type} [Operation Op State]

/-- A half with its transitions, which depend on whether there is an error.  Every transition
    that fires makes a move; a front that waits for something waits for it with an error
    too. -/
structure Machine (K : Kind Op State Call)
    (ts : Bool → List (Transition (Staging Call) Op State)) : Prop where
  lawful : K.Lawful
  forward : ∀ error, Forward (ts error)
  keeps : ∀ error, Keeps (ts error) (SlotInv K.asks)
  fire : ∀ error, ∀ t ∈ ts error, ∀ s op w prev, K.Stored error op w →
    Operation.state op = t.source → t.cond op prev = true →
    ∃ y es, runActions t.actions (s, op) = .returns y ∧ y.1.log = s.log ++ es
      ∧ Moved K error prev w op (withState y.2 t.target) es ∧ ∀ e ∈ es, e.isOuter = false
  front : ∀ op w, K.Stored false op w → Operation.state op ≠ finished Op →
    ¬ Enabled (ts false) (finished Op) op → ¬ Enabled (ts true) (finished Op) op

variable {K : Kind Op State Call} {ts : Bool → List (Transition (Staging Call) Op State)}
  {error : Bool} {next n : Nat} {log : List (Event Call)}

/-- The invariant in the middle of a walk that started with the log `log`. -/
def Walked (K : Kind Op State Call) (error : Bool) (next : Nat) (log : List (Event Call))
    (s : Staging Call) (ops : List Op) : Prop :=
  ChunkInv K error next s ops ∧ Grown log s.log

/-- **Walk rule.**  What every firing transition owes, the walks keep. -/
theorem Machine.preserves (hM : Machine K ts) :
    Preserves (ts error) (Walked K error next log) (fun _ _ => False) where
  numbered := fun _ _ h => ⟨next, h.1.tracked.numbered⟩
  fire := by
    rintro s pre op post t ⟨h, hgrown⟩ ht hsource hcond
    have hstored := h.tracked.stored op (List.mem_append_right _ (List.mem_cons_self ..))
    obtain ⟨y, es, hrun, hlog, hmoved, hinner⟩ :=
      hM.fire error t ht s op _ _ hstored hsource hcond
    have hslots := runActions_keeps (hM.keeps error t ht) (s, op) h.slots
    rw [hrun] at hslots ⊢
    refine ⟨chunkInv_moved hM.lawful h hmoved hlog hslots, ?_⟩
    rw [hlog]
    exact hgrown.append hinner
  pop := fun _ _ _ h hfin => ⟨chunkInv_pop hM.lawful h.1 hfin, h.2⟩

/-- One half between two tasks.  Every slot that a callback did not store went back. -/
structure HalfInv (K : Kind Op State Call)
    (ts : Bool → List (Transition (Staging Call) Op State)) (error : Bool)
    (x : Queue Op (Staging Call)) : Prop where
  quiet : Quiet (ts error) (ChunkInv K error x.next) x
  ledger : drops x.outside.log = unstored x.outside.log

/-- A half before its first chunk. -/
theorem halfInv_init : HalfInv K ts error { outside := {} } :=
  ⟨⟨chunkInv_init, nofun, trivial⟩, rfl⟩

/-- Only chunk `n` may be enabled, and it is about to be advanced. -/
structure Ready (K : Kind Op State Call)
    (ts : Bool → List (Transition (Staging Call) Op State)) (error : Bool) (n : Nat)
    (x : Queue Op (Staging Call)) : Prop where
  inv : ChunkInv K error x.next x.outside x.ops
  frontOpen : FrontOpen x.ops
  mem : ∃ o ∈ x.ops, sequenceNumber o = n
  chained : Chained (fun p o => sequenceNumber o = n ∨ ¬ Enabled (ts error) p o) (finished Op) x.ops

variable {x : Queue Op (Staging Call)} {op : Op} {f : Op → Op} {e : Event Call}

/-- A new chunk was put at the back. -/
theorem Machine.ready_emplace (hM : Machine K ts) (h : HalfInv K ts error x) {k : Chunk}
    {callback : Bool} (hnumber : sequenceNumber op = x.next)
    (horder : K.order (Operation.state op) = 0) (hstate : Operation.state op ≠ finished Op)
    (hstored : K.Stored error op [.emplaced x.next k callback]) :
    Ready K ts error x.next
      { next := x.next + 1, ops := x.ops ++ [op]
        outside := x.outside.record (.emplaced x.next k callback) } := by
  have hch := stable_push op h.quiet.stable
  rw [hnumber] at hch
  refine ⟨chunkInv_push hM.lawful h.quiet.inv hnumber horder hstored, ?_,
    ⟨op, List.mem_append_right _ (List.mem_singleton_self _), hnumber⟩, hch⟩
  intro front rest hfront
  cases hops : x.ops with
  | nil =>
      rw [hops] at hfront
      obtain ⟨rfl, -⟩ := List.cons.inj hfront
      exact hstate
  | cons hd tl =>
      rw [hops] at hfront
      obtain ⟨rfl, -⟩ := List.cons.inj hfront
      exact h.quiet.frontOpen hd tl hops

/-- A task writes `f` in the operation of chunk `n`, at the event `e`. -/
structure Tells (K : Kind Op State Call) (n : Nat) (f : Op → Op) (e : Event Call) : Prop where
  about : e.about K.captures = some n
  state : ∀ op, Operation.state (f op) = Operation.state op
  number : ∀ op, sequenceNumber (f op) = sequenceNumber op
  request : e.request? K.asks = none
  emplaced : ∀ m k callback, e ≠ .emplaced m k callback

/-- What one operation is told keeps the invariant of the sequence. -/
theorem chunkInv_tell (hK : K.Lawful) {s s' : Staging Call} {pre post : List Op}
    (h : ChunkInv K error next s (pre ++ op :: post))
    (ht : Tells K (sequenceNumber op) f e)
    (hstored : K.Stored error (f op)
      (history (Event.about K.captures) (sequenceNumber op) s.log ++ [e]))
    (hlog : s'.log = s.log ++ [e]) (hslots : SlotInv K.asks s') :
    ChunkInv K error next s' (pre ++ f op :: post) := by
  refine chunkInv_moved hK h ⟨ht.number op, ?_, ?_, ?_, ?_, ?_, ?_⟩ hlog hslots
  · intro e' he' m hm
    rw [List.mem_singleton.mp he', ht.about] at hm
    exact (Option.some.inj hm).symm
  · rw [history_cons ht.about]
    exact hstored
  · exact Nat.le_of_eq (congrArg _ (ht.state op).symm)
  · intro _
    rw [ht.state]
    exact Or.inr rfl
  · intro m k callback hmem
    exact ht.emplaced m k callback (List.mem_singleton.mp hmem).symm
  · exact Or.inl (List.filterMap_cons_none ht.request)

/-- A task wrote a flag of one operation. -/
theorem Machine.ready_tell (hM : Machine K ts) (h : HalfInv K ts error x) {s : Staging Call}
    (hop : op ∈ x.ops) (ht : Tells K (sequenceNumber op) f e)
    (hstored : K.Stored error (f op)
      (history (Event.about K.captures) (sequenceNumber op) x.outside.log ++ [e]))
    (hlog : s.log = x.outside.log ++ [e]) (hslots : SlotInv K.asks s) :
    Ready K ts error (sequenceNumber op)
      { x with outside := s, ops := modifyOperation (sequenceNumber op) f x.ops } := by
  obtain ⟨pre, post, hsplit⟩ := List.append_of_mem hop
  have hinv := h.quiet.inv
  rw [hsplit] at hinv
  have hmod : modifyOperation (sequenceNumber op) f x.ops = pre ++ f op :: post := by
    rw [hsplit]
    exact modifyOperation_mid hinv.tracked.numbered f
  have htold := chunkInv_tell hM.lawful hinv ht hstored hlog hslots
  have hopen : FrontOpen (pre ++ f op :: post) := by
    intro front rest hfront
    cases pre with
    | nil =>
        obtain ⟨rfl, -⟩ := List.cons.inj hfront
        rw [ht.state]
        exact h.quiet.frontOpen op post hsplit
    | cons hd tl =>
        obtain ⟨rfl, -⟩ := List.cons.inj hfront
        exact h.quiet.frontOpen hd _ hsplit
  rw [← hmod] at htold hopen
  refine ⟨htold, hopen, ⟨f op, ?_, ht.number op⟩,
    stable_modify (n := sequenceNumber op) ht.state ht.number h.quiet.stable⟩
  show f op ∈ modifyOperation _ f x.ops
  rw [hmod]
  exact List.mem_append_right _ (List.mem_cons_self ..)

/-- The front waits, with an error too. -/
theorem Machine.front_waits (hM : Machine K ts) (h : HalfInv K ts false x) {front : Op}
    {rest : List Op} (hops : x.ops = front :: rest) : ¬ Enabled (ts true) (finished Op) front := by
  have hstable := h.quiet.stable
  have hstored := h.quiet.inv.tracked.stored front
  rw [Stable, hops] at hstable
  rw [hops] at hstored
  exact hM.front front _ (hstored (List.mem_cons_self ..)) (h.quiet.frontOpen front rest hops)
    hstable.1

variable [DecidableEq State]

/-- Advancing a sequence that is ready leaves it quiet, and its log grown. -/
theorem Machine.advance (hM : Machine K ts) (h : Ready K ts error n x) :
    Quiet (ts error) (ChunkInv K error x.next) (x.advance (ts error) n)
      ∧ Grown x.outside.log (x.advance (ts error) n).outside.log := by
  have hquiet := quiet_advance (x := x) hM.preserves (hM.forward error)
    ⟨h.inv, grown_refl _⟩ h.frontOpen h.mem h.chained
  exact ⟨⟨hquiet.inv.1, hquiet.frontOpen, hquiet.stable⟩, hquiet.inv.2⟩

/-- **Emplace rule.** -/
theorem Machine.emplace (hM : Machine K ts) (h : HalfInv K ts error x) {k : Chunk}
    {callback : Bool} (hnumber : sequenceNumber op = x.next)
    (horder : K.order (Operation.state op) = 0) (hstate : Operation.state op ≠ finished Op)
    (hstored : K.Stored error op [.emplaced x.next k callback]) :
    HalfInv K ts error (Queue.advance (ts error)
      { next := x.next + 1, ops := x.ops ++ [op]
        outside := x.outside.record (.emplaced x.next k callback) } x.next) := by
  obtain ⟨hquiet, hgrown⟩ := hM.advance (hM.ready_emplace h hnumber horder hstate hstored)
  refine ⟨hquiet, ?_⟩
  rw [hgrown.drops, hgrown.unstored]
  show drops (x.outside.log ++ [_]) = unstored (x.outside.log ++ [_])
  rw [drops_append, unstored_append]
  exact congrArg (· ++ []) h.ledger

/-- **Tell rule.**  A task writes a flag of one operation and advances it. -/
theorem Machine.tell (hM : Machine K ts) (h : HalfInv K ts error x) {s : Staging Call}
    (hop : op ∈ x.ops) (ht : Tells K (sequenceNumber op) f e)
    (hstored : K.Stored error (f op)
      (history (Event.about K.captures) (sequenceNumber op) x.outside.log ++ [e]))
    (hlog : s.log = x.outside.log ++ [e]) (hslots : SlotInv K.asks s) :
    Quiet (ts error) (ChunkInv K error x.next) (Queue.advance (ts error)
      { x with outside := s, ops := modifyOperation (sequenceNumber op) f x.ops }
        (sequenceNumber op))
    ∧ Grown (x.outside.log ++ [e]) (Queue.advance (ts error)
      { x with outside := s, ops := modifyOperation (sequenceNumber op) f x.ops }
        (sequenceNumber op)).outside.log := by
  rw [← hlog]
  exact hM.advance (hM.ready_tell h hop ht hstored hlog hslots)

/-- **Error rule.**  The front waits, so that nothing cuts the walk short. -/
theorem Machine.fail (hM : Machine K ts) (h : HalfInv K ts false x) :
    HalfInv K ts true (x.advanceAll (ts true))
      ∧ Grown x.outside.log (x.advanceAll (ts true)).outside.log := by
  have hquiet := quiet_advanceAll (x := x) hM.preserves (hM.forward true)
    ⟨chunkInv_error hM.lawful h.quiet.inv, grown_refl _⟩ h.quiet.frontOpen
    (fun _ _ hops => hM.front_waits h hops)
  refine ⟨⟨⟨hquiet.inv.1, hquiet.frontOpen, hquiet.stable⟩, ?_⟩, hquiet.inv.2⟩
  rw [hquiet.inv.2.drops, hquiet.inv.2.unstored]
  exact h.ledger

omit [DecidableEq State] in
/-- **Append rule.**  Nothing happens to the chunks. -/
theorem halfInv_append (h : HalfInv K ts error x) {s : Staging Call} {es : List (Event Call)}
    (hlog : s.log = x.outside.log ++ es) (habout : ∀ e ∈ es, e.about K.captures = none)
    (hrequests : requests K.asks es = []) (hslots : SlotInv K.asks s)
    (hledger : drops es = unstored es) : HalfInv K ts error { x with outside := s } := by
  refine ⟨⟨?_, h.quiet.frontOpen, h.quiet.stable⟩, ?_⟩
  · exact chunkInv_append h.quiet.inv hlog habout hrequests hslots
  · rw [hlog, drops_append, unstored_append]
    exact congrArg₂ (· ++ ·) h.ledger hledger

end Machines

-- ── The two halves ───────────────────────────────────────────────────────────

section Kinds

variable {Call : Type} {asks : Call → Option Nat}

/-- A callback asks for no slot. -/
theorem requests_callback (callback : Bool) (b : Nat) (error : Bool) :
    requests asks (callbackEvents callback b error) = [] := by
  cases callback <;> rfl

/-- An answer asks for no slot. -/
theorem requests_allocated (answers : List (Nat × Option Nat)) :
    requests asks (allocatedEvents answers) = [] :=
  filterMap_events (fun _ _ => rfl) answers

/-- A returned slot asks for no slot. -/
theorem requests_returned (n slot : Nat) (answers : List (Nat × Option Nat)) :
    requests asks (.returned n slot :: allocatedEvents answers) = [] :=
  requests_allocated answers

/-- A callback is an entry about the inside. -/
theorem inner_callback (callback : Bool) (b : Nat) (error : Bool) :
    ∀ e ∈ (callbackEvents callback b error : List (Event Call)), e.isOuter = false := by
  intro e he
  rw [(mem_callbackEvents he).2]
  rfl

/-- An answer is an entry about the inside. -/
theorem inner_allocated (answers : List (Nat × Option Nat)) :
    ∀ e ∈ (allocatedEvents answers : List (Event Call)), e.isOuter = false := by
  intro e he
  obtain ⟨answer, -, rfl⟩ := List.mem_map.mp he
  rfl

/-- Entries about the inside, one by one. -/
theorem inner_cons {e : Event Call} {es : List (Event Call)} (he : e.isOuter = false)
    (hes : ∀ e ∈ es, e.isOuter = false) : ∀ e' ∈ e :: es, e'.isOuter = false :=
  List.forall_mem_cons.mpr ⟨he, hes⟩

/-- Entries about the inside, list by list. -/
theorem inner_append {es es' : List (Event Call)} (hes : ∀ e ∈ es, e.isOuter = false)
    (hes' : ∀ e ∈ es', e.isOuter = false) : ∀ e ∈ es ++ es', e.isOuter = false := by
  intro e he
  rcases List.mem_append.mp he with hmem | hmem
  · exact hes e hmem
  · exact hes' e hmem

end Kinds

/-- No operation overtakes an earlier one on the way to the inner channel. -/
def SendState.order (st : SendState) : Nat := min st.rank 4

/-- The order of the stages follows that of the states. -/
theorem SendState.order_le {a b : SendState} (h : a.rank ≤ b.rank) : a.order ≤ b.order := by
  rw [SendState.order, SendState.order]
  omega

/-- The chunks being sent. -/
def sendKind : Kind ChunkSendOperation SendState SendCall where
  captures := SendCall.captures
  asks := SendCall.asks
  order := SendState.order
  stage := 1
  chunk := ChunkSendOperation.chunk
  Stored := SendStored
  Gone := SendGone

/-- The stage of a receiving chunk, by which chunks are kept in order. -/
def RecvState.order (st : RecvState) : Nat := min st.rank 3

/-- The order of the stages follows that of the states. -/
theorem RecvState.order_le {a b : RecvState} (h : a.rank ≤ b.rank) : a.order ≤ b.order := by
  rw [RecvState.order, RecvState.order]
  omega

/-- The chunks being received. -/
def recvKind : Kind ChunkRecvOperation RecvState RecvCall where
  captures := RecvCall.captures
  asks := RecvCall.asks
  order := RecvState.order
  stage := 2
  chunk := ChunkRecvOperation.chunk
  Stored := RecvStored
  Gone := RecvGone

/-- The chunk of a history is the one that it begins with. -/
theorem sendGone_emplaced {error : Bool} {n : Nat} {k : Chunk} {w : SendHistory}
    (h : SendGone error n k w) {m : Nat} {k' : Chunk} {callback : Bool}
    (hmem : .emplaced m k' callback ∈ w) : k' = k := by
  cases h <;> simp_all [sendAsked, sendGot, sendCopying, sendCopied, sendSending, sendSent,
    sendSendingCpu, sendSentCpu]

/-- What is asked of a chunk that is gone is no more after an error. -/
theorem sendGone_error {error : Bool} {n : Nat} {k : Chunk} {w : SendHistory}
    (h : SendGone error n k w) : SendGone true n k w := by
  cases h <;> constructor <;> first | rfl | assumption

/-- Without an error every chunk of a CUDA buffer went through a slot. -/
theorem sendGone_asked {n : Nat} {k : Chunk} {w : SendHistory} (h : SendGone false n k w)
    (hk : k.isCpuBuffer = false) : n ∈ requests SendCall.asks w := by
  cases h with
  | sent slot _ => exact List.mem_cons_self ..
  | sentCpu hk' => exact nomatch hk'.symm.trans hk
  | skipped herror => exact nomatch herror
  | refused _ herror _ => exact nomatch herror
  | unused _ herror _ => exact nomatch herror
  | copied _ herror _ => exact nomatch herror

/-- The chunks being sent follow the common laws. -/
theorem sendKind_lawful : sendKind.Lawful where
  captures_asks := by
    intro c n hc
    cases c with
    | allocate m length => exact hc
    | _ => exact nomatch hc
  stage_le := by decide
  finished_gone := by
    intro e op w hw hfin
    cases hw with
    | finished _ hgone => exact hgone
    | _ => exact nomatch hfin
  stored_error := by
    intro e op w hw
    cases hw with
    | finished hstate hgone => exact .finished hstate (sendGone_error hgone)
    | _ => constructor <;> first | rfl | assumption
  gone_error := fun _ _ _ _ h => sendGone_error h
  stored_emplaced := by
    intro e op w hw m k callback hmem
    cases hw with
    | finished _ hgone => exact sendGone_emplaced hgone hmem
    | _ => simp_all [sendKind, sendAsked, sendGot, sendCopying, sendCopied, sendSending, sendSent,
        sendSendingCpu, sendSentCpu]
  gone_emplaced := fun _ _ _ _ h _ _ _ hmem => sendGone_emplaced h hmem
  stored_asked := by
    intro op w hw hk hstage
    cases hw with
    | uninitialized => exact nomatch hstage
    | finished _ hgone => exact sendGone_asked hgone hk
    | sendingCpu hk' => exact nomatch hk'.symm.trans hk
    | sentCpu hk' => exact nomatch hk'.symm.trans hk
    | _ => exact List.mem_cons_self ..
  stored_unasked := by
    intro e op w hw hstage
    cases hw with
    | uninitialized => rfl
    | finished hstate _ =>
        rw [show Operation.state op = SendState.finished from hstate] at hstage
        exact nomatch hstage
    | _ => exact nomatch hstage
  gone_asked := fun _ _ _ h hk => sendGone_asked h hk

/-- A chunk that is gone was emplaced once, as it was. -/
theorem recvGone_emplaced {error : Bool} {n : Nat} {k : Chunk} {w : RecvHistory}
    (h : RecvGone error n k w) {m : Nat} {k' : Chunk} {callback : Bool}
    (hmem : .emplaced m k' callback ∈ w) : k' = k := by
  cases h <;> simp_all [recvReading, recvReady, recvAsked, recvGot, recvReceiving, recvReceived,
    recvCopying, recvCopied, recvReceivingCpu, recvReceivedCpu]

/-- What is asked of a chunk that is gone is no more after an error. -/
theorem recvGone_error {error : Bool} {n : Nat} {k : Chunk} {w : RecvHistory}
    (h : RecvGone error n k w) : RecvGone true n k w := by
  cases h <;> constructor <;> first | rfl | assumption

/-- Without an error, a CUDA chunk that is gone asked for a slot. -/
theorem recvGone_asked {n : Nat} {k : Chunk} {w : RecvHistory} (h : RecvGone false n k w)
    (hk : k.isCpuBuffer = false) : n ∈ requests RecvCall.asks w := by
  cases h with
  | copied slot _ => exact List.mem_cons_self ..
  | receivedCpu hk' => exact nomatch hk'.symm.trans hk
  | skipped herror => exact nomatch herror
  | ready herror => exact nomatch herror
  | refused _ herror _ => exact nomatch herror
  | unused _ herror _ => exact nomatch herror
  | received _ herror _ => exact nomatch herror

/-- The chunks being received follow the common laws. -/
theorem recvKind_lawful : recvKind.Lawful where
  captures_asks := by
    intro c n hc
    cases c with
    | allocate m length => exact hc
    | _ => exact nomatch hc
  stage_le := by decide
  finished_gone := by
    intro e op w hw hfin
    cases hw with
    | finished _ hgone => exact hgone
    | _ => exact nomatch hfin
  stored_error := by
    intro e op w hw
    cases hw with
    | finished hstate hgone => exact .finished hstate (recvGone_error hgone)
    | _ => constructor <;> first | rfl | assumption
  gone_error := fun _ _ _ _ h => recvGone_error h
  stored_emplaced := by
    intro e op w hw m k callback hmem
    cases hw with
    | finished _ hgone => exact recvGone_emplaced hgone hmem
    | _ => simp_all [recvKind, recvReading, recvReady, recvAsked, recvGot, recvReceiving,
        recvReceived, recvCopying, recvCopied, recvReceivingCpu, recvReceivedCpu]
  gone_emplaced := fun _ _ _ _ h _ _ _ hmem => recvGone_emplaced h hmem
  stored_asked := by
    intro op w hw hk hstage
    cases hw with
    | uninitialized => exact nomatch hstage
    | reading => exact nomatch hstage
    | ready => exact nomatch hstage
    | finished _ hgone => exact recvGone_asked hgone hk
    | receivingCpu hk' => exact nomatch hk'.symm.trans hk
    | receivedCpu hk' => exact nomatch hk'.symm.trans hk
    | _ => exact List.mem_cons_self ..
  stored_unasked := by
    intro e op w hw hstage
    cases hw with
    | uninitialized => rfl
    | reading => rfl
    | ready => rfl
    | finished hstate _ =>
        rw [show Operation.state op = RecvState.finished from hstate] at hstage
        exact nomatch hstage
    | _ => exact nomatch hstage
  gone_asked := fun _ _ _ h hk => recvGone_asked h hk

/-- The actions of a send operation. -/
theorem sendActions {error : Bool} {t : Transition SendStaging ChunkSendOperation SendState}
    (ht : t ∈ advanceChunkSendOperation error)
    {a : SendStaging → ChunkSendOperation → Outcome (SendStaging × ChunkSendOperation)}
    (ha : a ∈ t.actions) :
    a = callSendCallback error ∨ a = returnSendCpuBuffer ∨ a = allocateSendCpuBuffer
      ∨ a = writeReadyToSend ∨ a = copyFromGpuToCpu ∨ a = sendCpuBuffer := by
  simp only [advanceChunkSendOperation, List.mem_cons, List.not_mem_nil, or_false] at ht
  rcases ht with rfl | rfl | rfl | rfl | rfl | rfl | rfl | rfl | rfl | rfl | rfl <;>
    simp only [List.mem_cons, List.not_mem_nil, or_false] at ha <;>
    rcases ha with rfl | rfl <;> simp

/-- A chunk being sent never goes back. -/
theorem sendForward (error : Bool) : Forward (advanceChunkSendOperation error) where
  later := by simp [advanceChunkSendOperation]
  moves := by simp [advanceChunkSendOperation]
  notFinished := by simp [advanceChunkSendOperation, finished, Operation.finished]
  keepsNumber := by
    intro t ht a ha s op
    rcases sendActions ht ha with rfl | rfl | rfl | rfl | rfl | rfl
    · rw [callSendCallback_eq]
      rfl
    · rw [returnSendCpuBuffer]
      cases op.tmpBuffer with
      | none => rfl
      | some slot => rfl
    all_goals rfl

/-- No action of a chunk being sent breaks the account of the slots. -/
theorem sendKeeps (error : Bool) :
    Keeps (advanceChunkSendOperation error) (SlotInv SendCall.asks) := by
  intro t ht a ha s op hs
  rcases sendActions ht ha with rfl | rfl | rfl | rfl | rfl | rfl
  · rw [callSendCallback]
    cases op.callback with
    | true => exact slotInv_record hs ⟨rfl, rfl, rfl⟩
    | false => exact hs
  · rw [returnSendCpuBuffer]
    cases op.tmpBuffer with
    | none => exact hs
    | some slot => exact slotInv_release hs _ _
  · exact slotInv_alloc hs rfl
  · exact slotInv_record hs ⟨rfl, rfl, rfl⟩
  · exact slotInv_record hs ⟨rfl, rfl, rfl⟩
  · exact slotInv_record hs ⟨rfl, rfl, rfl⟩

/-- The actions of a recv operation. -/
theorem recvActions {error : Bool} {t : Transition RecvStaging ChunkRecvOperation RecvState}
    (ht : t ∈ advanceChunkRecvOperation error)
    {a : RecvStaging → ChunkRecvOperation → Outcome (RecvStaging × ChunkRecvOperation)}
    (ha : a ∈ t.actions) :
    a = callRecvCallback error ∨ a = returnRecvCpuBuffer ∨ a = allocateRecvCpuBuffer
      ∨ a = readReadyToSend ∨ a = receiveCpuBuffer ∨ a = copyFromCpuToGpu := by
  simp only [advanceChunkRecvOperation, List.mem_cons, List.not_mem_nil, or_false] at ht
  rcases ht with rfl | rfl | rfl | rfl | rfl | rfl | rfl | rfl | rfl | rfl | rfl | rfl <;>
    simp only [List.mem_cons, List.not_mem_nil, or_false] at ha <;>
    rcases ha with rfl | rfl <;> simp

/-- A chunk being received never goes back. -/
theorem recvForward (error : Bool) : Forward (advanceChunkRecvOperation error) where
  later := by simp [advanceChunkRecvOperation]
  moves := by simp [advanceChunkRecvOperation]
  notFinished := by simp [advanceChunkRecvOperation, finished, Operation.finished]
  keepsNumber := by
    intro t ht a ha s op
    rcases recvActions ht ha with rfl | rfl | rfl | rfl | rfl | rfl
    · rw [callRecvCallback_eq]
      rfl
    · rw [returnRecvCpuBuffer]
      cases op.tmpBuffer with
      | none => rfl
      | some slot => rfl
    all_goals rfl

/-- No action of a chunk being received breaks the account of the slots. -/
theorem recvKeeps (error : Bool) :
    Keeps (advanceChunkRecvOperation error) (SlotInv RecvCall.asks) := by
  intro t ht a ha s op hs
  rcases recvActions ht ha with rfl | rfl | rfl | rfl | rfl | rfl
  · rw [callRecvCallback]
    cases op.callback with
    | true => exact slotInv_record hs ⟨rfl, rfl, rfl⟩
    | false => exact hs
  · rw [returnRecvCpuBuffer]
    cases op.tmpBuffer with
    | none => exact hs
    | some slot => exact slotInv_release hs _ _
  · exact slotInv_alloc hs rfl
  · exact slotInv_record hs ⟨rfl, rfl, rfl⟩
  · exact slotInv_record hs ⟨rfl, rfl, rfl⟩
  · exact slotInv_record hs ⟨rfl, rfl, rfl⟩

section SendMachine

variable {error : Bool} {prev : SendState} {op op' : ChunkSendOperation} {es : SendHistory}

/-- What a move logs is about the inside. -/
theorem sendMoves_inner (h : SendMoves error prev op op' es) : ∀ e ∈ es, e.isOuter = false := by
  cases h with
  | skip _ _ => exact inner_callback _ _ _
  | giveUp _ _ => exact inner_callback _ _ _
  | invoke _ _ _ => exact inner_callback _ _ _
  | finishCpu _ => exact inner_callback _ _ _
  | shortcut _ _ _ => exact inner_cons rfl (inner_cons rfl nofun)
  | copy _ _ _ => exact inner_cons rfl (inner_cons rfl nofun)
  | send _ _ _ _ => exact inner_cons rfl nofun
  | ask _ _ _ _ => exact inner_cons rfl (inner_allocated _)
  | invokedFailed _ _ _ => exact inner_cons rfl (inner_allocated _)
  | finish _ _ _ => exact inner_cons rfl (inner_allocated _)
  | giveBack _ _ _ _ =>
      exact inner_append (inner_callback _ _ _) (inner_cons rfl (inner_allocated _))
  | copyFailed _ _ _ _ =>
      exact inner_append (inner_callback _ _ _) (inner_cons rfl (inner_allocated _))

/-- A move goes forward and, without an error, stays behind the chunk before. -/
theorem sendMoves_order (h : SendMoves error prev op op' es) :
    op.state.order ≤ op'.state.order ∧ (error = false →
      op'.state.order ≤ prev.order ∨ op'.state.order = op.state.order) := by
  cases h with
  | shortcut _ _ hprev => exact ⟨Nat.zero_le _, fun _ => Or.inl (SendState.order_le hprev)⟩
  | ask _ _ _ hprev => exact ⟨Nat.zero_le _, fun _ => Or.inl (SendState.order_le hprev)⟩
  | copy _ _ hprev => exact ⟨Nat.le_succ _, fun _ => Or.inl (SendState.order_le hprev)⟩
  | invoke _ _ hprev => exact ⟨Nat.le_succ _, fun _ => Or.inl (SendState.order_le hprev)⟩
  | send _ _ _ hprev => exact ⟨Nat.le_succ _, fun _ => Or.inl (SendState.order_le hprev)⟩
  | finishCpu _ => exact ⟨Nat.le_refl _, fun _ => Or.inr rfl⟩
  | finish _ _ _ => exact ⟨Nat.le_refl _, fun _ => Or.inr rfl⟩
  | skip herror _ => exact ⟨Nat.zero_le _, fun h => nomatch herror.symm.trans h⟩
  | giveUp herror _ =>
      exact ⟨SendState.order_le (Nat.le_of_ble_eq_true rfl), fun h => nomatch herror.symm.trans h⟩
  | giveBack _ _ herror _ =>
      exact ⟨SendState.order_le (Nat.le_of_ble_eq_true rfl), fun h => nomatch herror.symm.trans h⟩
  | copyFailed _ _ herror _ =>
      exact ⟨SendState.order_le (Nat.le_of_ble_eq_true rfl), fun h => nomatch herror.symm.trans h⟩
  | invokedFailed _ _ herror => exact ⟨Nat.le_succ _, fun h => nomatch herror.symm.trans h⟩

/-- Only one move issues a request. -/
theorem sendMoves_requests (h : SendMoves error prev op op' es) :
    requests SendCall.asks es = [] ∨ (requests SendCall.asks es = [op.sequenceNumber]
      ∧ error = false ∧ op.state.order < 1 ∧ 1 ≤ prev.order) := by
  cases h with
  | ask answers herror hk hprev =>
      refine Or.inr ⟨congrArg (_ :: ·) (requests_allocated answers), herror, Nat.zero_lt_one, ?_⟩
      rw [SendState.order]
      omega
  | skip _ _ => exact Or.inl (requests_callback _ _ _)
  | giveUp _ _ => exact Or.inl (requests_callback _ _ _)
  | invoke _ _ _ => exact Or.inl (requests_callback _ _ _)
  | finishCpu _ => exact Or.inl (requests_callback _ _ _)
  | shortcut _ _ _ => exact Or.inl rfl
  | copy _ _ _ => exact Or.inl rfl
  | send _ _ _ _ => exact Or.inl rfl
  | invokedFailed _ _ _ => exact Or.inl (requests_returned _ _ _)
  | finish _ _ _ => exact Or.inl (requests_returned _ _ _)
  | giveBack slot answers _ _ =>
      rw [requests_append, requests_callback]
      exact Or.inl (requests_allocated answers)
  | copyFailed slot answers _ _ =>
      rw [requests_append, requests_callback]
      exact Or.inl (requests_allocated answers)

/-- Each move of a chunk being sent is lawful. -/
theorem sendMoved {w : SendHistory} (hw : SendStored error op w)
    (h : SendMoves error prev op op' es) : Moved sendKind error prev w op op' es where
  number := (sendMoves_chunk h).1
  concerns := sendMoves_concerns h
  stored := sendStored_moves hw h
  order := (sendMoves_order h).1
  gate := (sendMoves_order h).2
  emplaced := fun _ _ _ hmem => (nomatch sendMoves_inner h _ hmem)
  requests := sendMoves_requests h

/-- A front that waits, waits for its slot, for a copy or for the inner channel. -/
theorem sendFront {w : SendHistory} (hw : SendStored false op w) (hstate : op.state ≠ .finished)
    (hfront : ¬ Enabled (advanceChunkSendOperation false) .finished op) :
    ¬ Enabled (advanceChunkSendOperation true) .finished op := by
  cases hw with
  | finished hfin _ => exact absurd hfin hstate
  | _ => simp_all +decide [Enabled, advanceChunkSendOperation, Operation.state]

/-- The sending of chunks, as an instance of what both halves share. -/
theorem sendMachine : Machine sendKind advanceChunkSendOperation where
  lawful := sendKind_lawful
  forward := sendForward
  keeps := sendKeeps
  fire := by
    intro error t ht s op w prev hw hsource hcond
    obtain ⟨y, es, hrun, hlog, hmoves⟩ := sendMoves_of_fire s hw ht hsource hcond
    exact ⟨y, es, hrun, hlog, sendMoved hw hmoves, sendMoves_inner hmoves⟩
  front := fun _ _ hw hstate hfront => sendFront hw hstate hfront

end SendMachine

section RecvMachine

variable {error : Bool} {prev : RecvState} {op op' : ChunkRecvOperation} {es : RecvHistory}

/-- What a move logs is about the inside. -/
theorem recvMoves_inner (h : RecvMoves error prev op op' es) : ∀ e ∈ es, e.isOuter = false := by
  cases h with
  | skip _ _ => exact inner_callback _ _ _
  | readyFailed _ _ => exact inner_callback _ _ _
  | giveUp _ _ => exact inner_callback _ _ _
  | finishCpu _ => exact inner_callback _ _ _
  | invoke _ _ => exact inner_callback _ _ _
  | read _ _ => exact inner_cons rfl nofun
  | shortcut _ _ _ => exact inner_cons rfl nofun
  | receive _ _ _ _ => exact inner_cons rfl nofun
  | copy _ _ _ => exact inner_cons rfl nofun
  | ask _ _ _ _ => exact inner_cons rfl (inner_allocated _)
  | finish _ _ => exact inner_cons rfl (inner_allocated _)
  | giveBack _ _ _ _ =>
      exact inner_append (inner_callback _ _ _) (inner_cons rfl (inner_allocated _))
  | receiveFailed _ _ _ _ _ =>
      exact inner_append (inner_callback _ _ _) (inner_cons rfl (inner_allocated _))

/-- A move goes forward and, without an error, stays behind the chunk before. -/
theorem recvMoves_order (h : RecvMoves error prev op op' es) :
    op.state.order ≤ op'.state.order ∧ (error = false →
      op'.state.order ≤ prev.order ∨ op'.state.order = op.state.order) := by
  cases h with
  | read _ hprev => exact ⟨Nat.zero_le _, fun _ => Or.inl (RecvState.order_le hprev)⟩
  | shortcut _ _ hprev =>
      exact ⟨RecvState.order_le (Nat.le_of_ble_eq_true rfl),
        fun _ => Or.inl (RecvState.order_le hprev)⟩
  | ask _ _ _ hprev => exact ⟨Nat.le_succ _, fun _ => Or.inl (RecvState.order_le hprev)⟩
  | receive _ _ _ hprev => exact ⟨Nat.le_succ _, fun _ => Or.inl (RecvState.order_le hprev)⟩
  | finishCpu _ => exact ⟨Nat.le_refl _, fun _ => Or.inr rfl⟩
  | copy _ _ _ => exact ⟨Nat.le_refl _, fun _ => Or.inr rfl⟩
  | invoke _ _ => exact ⟨Nat.le_refl _, fun _ => Or.inr rfl⟩
  | finish _ _ => exact ⟨Nat.le_refl _, fun _ => Or.inr rfl⟩
  | receiveFailed _ _ _ _ _ => exact ⟨Nat.le_refl _, fun _ => Or.inr rfl⟩
  | skip herror _ => exact ⟨Nat.zero_le _, fun h => nomatch herror.symm.trans h⟩
  | readyFailed herror _ =>
      exact ⟨RecvState.order_le (Nat.le_of_ble_eq_true rfl), fun h => nomatch herror.symm.trans h⟩
  | giveUp herror _ => exact ⟨Nat.le_succ _, fun h => nomatch herror.symm.trans h⟩
  | giveBack _ _ herror _ => exact ⟨Nat.le_succ _, fun h => nomatch herror.symm.trans h⟩

/-- A move asks for at most one slot, and only when the chunk before has asked. -/
theorem recvMoves_requests (h : RecvMoves error prev op op' es) :
    requests RecvCall.asks es = [] ∨ (requests RecvCall.asks es = [op.sequenceNumber]
      ∧ error = false ∧ op.state.order < 2 ∧ 2 ≤ prev.order) := by
  cases h with
  | ask answers herror hk hprev =>
      refine Or.inr ⟨congrArg (_ :: ·) (requests_allocated answers), herror, Nat.one_lt_two, ?_⟩
      rw [RecvState.order]
      omega
  | skip _ _ => exact Or.inl (requests_callback _ _ _)
  | readyFailed _ _ => exact Or.inl (requests_callback _ _ _)
  | giveUp _ _ => exact Or.inl (requests_callback _ _ _)
  | finishCpu _ => exact Or.inl (requests_callback _ _ _)
  | invoke _ _ => exact Or.inl (requests_callback _ _ _)
  | read _ _ => exact Or.inl rfl
  | shortcut _ _ _ => exact Or.inl rfl
  | receive _ _ _ _ => exact Or.inl rfl
  | copy _ _ _ => exact Or.inl rfl
  | finish _ _ => exact Or.inl (requests_returned _ _ _)
  | giveBack slot answers _ _ =>
      rw [requests_append, requests_callback]
      exact Or.inl (requests_allocated answers)
  | receiveFailed slot answers _ _ _ =>
      rw [requests_append, requests_callback]
      exact Or.inl (requests_allocated answers)

/-- Each move of a chunk being received is lawful. -/
theorem recvMoved {w : RecvHistory} (hw : RecvStored error op w)
    (h : RecvMoves error prev op op' es) : Moved recvKind error prev w op op' es where
  number := (recvMoves_chunk h).1
  concerns := recvMoves_concerns h
  stored := recvStored_moves hw h
  order := (recvMoves_order h).1
  gate := (recvMoves_order h).2
  emplaced := fun _ _ _ hmem => (nomatch recvMoves_inner h _ hmem)
  requests := recvMoves_requests h

/-- A chunk at the front that cannot move cannot do so after an error either. -/
theorem recvFront {w : RecvHistory} (hw : RecvStored false op w) (hstate : op.state ≠ .finished)
    (hfront : ¬ Enabled (advanceChunkRecvOperation false) .finished op) :
    ¬ Enabled (advanceChunkRecvOperation true) .finished op := by
  cases hw with
  | finished hfin _ => exact absurd hfin hstate
  | _ => simp_all +decide [Enabled, advanceChunkRecvOperation, Operation.state]

/-- The receiving of chunks, as an instance of what both halves share. -/
theorem recvMachine : Machine recvKind advanceChunkRecvOperation where
  lawful := recvKind_lawful
  forward := recvForward
  keeps := recvKeeps
  fire := by
    intro error t ht s op w prev hw hsource hcond
    obtain ⟨y, es, hrun, hlog, hmoves⟩ := recvMoves_of_fire s hw ht hsource hcond
    exact ⟨y, es, hrun, hlog, recvMoved hw hmoves, recvMoves_inner hmoves⟩
  front := fun _ _ hw hstate hfront => recvFront hw hstate hfront

end RecvMachine

end TpCudaBasic
