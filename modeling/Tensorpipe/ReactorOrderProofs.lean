import Mathlib.Tactic.Common
import Tensorpipe.CreditQueueProofs
import Tensorpipe.ReactorProofs

/-! # The order in which the reactor posts

    The writes and the acks of a reactor are two credit queues over one device.  A call, also one
    by a handler in the middle of a batch, makes a request to one of them or to none; the end of a
    poll refunds both.

    So the order of the posts, and that they wait for nothing but credits, are the library's
    facts about a credit queue, for the writes and for the acks. -/

namespace TpIbv

open TpCreditQueue TpStateMachine

namespace Reactor

-- ── The two queues ───────────────────────────────────────────────────────────

/-- The request for a write, as it is handed to the device. -/
def writeRequest (x : UInt32 × WriteInfo) : SendWr :=
  .rdmaWriteWithImm kWriteRequestId x.1 x.2 (UInt32.ofNat x.2.length)

/-- The request for an acknowledgement, as it is handed to the device. -/
def ackRequest (x : UInt32 × AckInfo) : SendWr :=
  .sendWithImm kAckRequestId x.1 (UInt32.ofNat x.2.length)

/-- The requests with this id that were handed to the device, in order. -/
def handed (s : Reactor) (wrId : Nat) : List SendWr :=
  s.device.posted.filter (fun wr => wr.wrId == wrId)

/-- The writes of a reactor, as a queue with credits. -/
def writeQueue (s : Reactor) : CreditQueue SendWr where
  available := s.numAvailableWrites
  pending := s.pendingQpWrites.map writeRequest
  handed := s.handed kWriteRequestId

/-- The acknowledgements of a reactor, as a queue with credits. -/
def ackQueue (s : Reactor) : CreditQueue SendWr where
  available := s.numAvailableAcks
  pending := s.pendingQpAcks.map ackRequest
  handed := s.handed kAckRequestId

end Reactor

/-- The RDMA write that a call asks for. -/
def Call.writes : Call → List SendWr
  | .postWrite qpNum info => [Reactor.writeRequest (qpNum, info)]
  | _ => []

/-- The send that a call asks for. -/
def Call.acks : Call → List SendWr
  | .postAck qpNum info => [Reactor.ackRequest (qpNum, info)]
  | _ => []

namespace Reactor

-- ── What a call does to them ─────────────────────────────────────────────────

theorem postWrite_queues (s : Reactor) (qpNum : UInt32) (info : WriteInfo) :
    (s.postWrite qpNum info).writeQueue = s.writeQueue.request (writeRequest (qpNum, info))
      ∧ (s.postWrite qpNum info).ackQueue = s.ackQueue := by
  rw [postWrite, CreditQueue.request]
  by_cases havail : 0 < s.numAvailableWrites
  · have havail' : 0 < s.writeQueue.available := havail
    rw [if_pos havail, if_pos havail']
    constructor
    · simp only [writeQueue, handed, Device.postSend, List.filter_append]
      rfl
    · simp only [ackQueue, handed, Device.postSend, List.filter_append]
      exact congrArg _ (List.append_nil _)
  · have havail' : ¬ 0 < s.writeQueue.available := havail
    rw [if_neg havail, if_neg havail']
    constructor
    · simp only [writeQueue, List.map_append, List.map_singleton]
      rfl
    · rfl

theorem postAck_queues (s : Reactor) (qpNum : UInt32) (info : AckInfo) :
    (s.postAck qpNum info).ackQueue = s.ackQueue.request (ackRequest (qpNum, info))
      ∧ (s.postAck qpNum info).writeQueue = s.writeQueue := by
  rw [postAck, CreditQueue.request]
  by_cases havail : 0 < s.numAvailableAcks
  · have havail' : 0 < s.ackQueue.available := havail
    rw [if_pos havail, if_pos havail']
    constructor
    · simp only [ackQueue, handed, Device.postSend, List.filter_append]
      rfl
    · simp only [writeQueue, handed, Device.postSend, List.filter_append]
      exact congrArg _ (List.append_nil _)
  · have havail' : ¬ 0 < s.ackQueue.available := havail
    rw [if_neg havail, if_neg havail']
    constructor
    · simp only [ackQueue, List.map_append, List.map_singleton]
      rfl
    · rfl

theorem call_queues (s : Reactor) (c : Call) :
    (s.call c).writeQueue = s.writeQueue.requests c.writes
      ∧ (s.call c).ackQueue = s.ackQueue.requests c.acks := by
  cases c with
  | registerQp qpNum =>
      rw [call]
      by_cases hmem : qpNum ∈ s.queuePairEventHandler
      · rw [if_pos hmem]
        exact ⟨rfl, rfl⟩
      · rw [if_neg hmem]
        exact ⟨rfl, rfl⟩
  | unregisterQp qpNum => exact ⟨rfl, rfl⟩
  | postWrite qpNum info => exact postWrite_queues s qpNum info
  | postAck qpNum info => exact ⟨(postAck_queues s qpNum info).2, (postAck_queues s qpNum info).1⟩

theorem calls_queues (cs : List Call) (s : Reactor) :
    (s.calls cs).writeQueue = s.writeQueue.requests (cs.flatMap Call.writes)
      ∧ (s.calls cs).ackQueue = s.ackQueue.requests (cs.flatMap Call.acks) := by
  induction cs generalizing s with
  | nil => exact ⟨rfl, rfl⟩
  | cons c cs ih =>
      obtain ⟨hwrites, hacks⟩ := ih (s.call c)
      obtain ⟨hwrite, hack⟩ := call_queues s c
      rw [List.flatMap_cons, List.flatMap_cons, CreditQueue.requests_append,
        CreditQueue.requests_append, ← hwrite, ← hack]
      exact ⟨hwrites, hacks⟩

-- ── A poll ───────────────────────────────────────────────────────────────────

/-- The calls that the handlers made for a batch. -/
def callsOf (batch : List (Wc × List Call)) : List Call := batch.flatMap Prod.snd

/-- However a completion turned out, its handler's calls are all that it does to the queues. -/
theorem handleCompletion_queues {x x' : Reactor × Tally} {wc : Wc} {cs : List Call}
    (h : handleCompletion x wc cs = .returns x') :
    x'.1.writeQueue = x.1.writeQueue.requests (cs.flatMap Call.writes)
      ∧ x'.1.ackQueue = x.1.ackQueue.requests (cs.flatMap Call.acks) := by
  obtain ⟨s, tally⟩ := x
  have hinvoke : ∀ (event : IbvEvent) (tally' : Tally),
      (s.invoke wc.qpNum event cs, tally') = x' →
      x'.1.writeQueue = s.writeQueue.requests (cs.flatMap Call.writes)
        ∧ x'.1.ackQueue = s.ackQueue.requests (cs.flatMap Call.acks) := by
    rintro event tally' rfl
    exact calls_queues cs { s with events := s.events ++ [(wc.qpNum, event)] }
  simp only [handleCompletion] at h
  by_cases hqp : wc.qpNum ∉ s.queuePairEventHandler
  · rw [if_pos hqp] at h
    exact absurd h (by simp)
  rw [if_neg hqp] at h
  by_cases hstatus : wc.status ≠ .WC_SUCCESS
  · rw [if_pos hstatus] at h
    exact hinvoke _ _ (Outcome.returns.inj h)
  rw [if_neg hstatus] at h
  cases hop : wc.opcode with
  | WC_RDMA_WRITE =>
      rw [hop] at h
      exact hinvoke _ _ (Outcome.returns.inj h)
  | WC_SEND =>
      rw [hop] at h
      exact hinvoke _ _ (Outcome.returns.inj h)
  | other code =>
      rw [hop] at h
      exact absurd h (by simp)
  | WC_RECV_RDMA_WITH_IMM | WC_RECV =>
      rw [hop] at h
      by_cases himm : wc.withImm = false
      · simp only [if_pos himm] at h
        exact absurd h (by simp)
      · simp only [if_neg himm] at h
        exact hinvoke _ _ (Outcome.returns.inj h)

theorem handleCompletions_queues (batch : List (Wc × List Call)) {x x' : Reactor × Tally}
    (h : handleCompletions batch x = .returns x') :
    x'.1.writeQueue = x.1.writeQueue.requests ((callsOf batch).flatMap Call.writes)
      ∧ x'.1.ackQueue = x.1.ackQueue.requests ((callsOf batch).flatMap Call.acks) := by
  induction batch generalizing x with
  | nil =>
      obtain rfl := Outcome.returns.inj h
      exact ⟨rfl, rfl⟩
  | cons entry rest ih =>
      obtain ⟨wc, cs⟩ := entry
      rw [handleCompletions] at h
      cases hfirst : handleCompletion x wc cs with
      | throws y =>
          rw [hfirst] at h
          exact absurd h (by simp)
      | returns y =>
          rw [hfirst] at h
          obtain ⟨hwrites, hacks⟩ := ih h
          obtain ⟨hwrite, hack⟩ := handleCompletion_queues hfirst
          rw [callsOf, List.flatMap_cons, List.flatMap_append, List.flatMap_append,
            CreditQueue.requests_append, CreditQueue.requests_append, ← hwrite, ← hack]
          exact ⟨hwrites, hacks⟩

/-- Round by round, the loop over the queued writes is that of the credit queue. -/
theorem drainWrites_queues (fuel : Nat) (s : Reactor) :
    (drainWrites fuel s).writeQueue = s.writeQueue.drain fuel
      ∧ (drainWrites fuel s).ackQueue = s.ackQueue := by
  refine ⟨?_, drainWrites_keeps ackQueue
    (fun s qpNum info _ _ _ => (postWrite_queues s qpNum info).2) fuel s⟩
  fun_induction drainWrites fuel s with
  | case1 s => rfl
  | case2 fuel s hpending =>
      have hnone : s.writeQueue.pending = [] := List.map_eq_nil_iff.mpr hpending
      rw [CreditQueue.drain_done _ (Or.inl hnone)]
  | case3 fuel s qpNum info rest hpending havail s' ih =>
      have hsome : s.writeQueue.pending = writeRequest (qpNum, info) :: rest.map writeRequest := by
        rw [writeQueue, hpending]
        rfl
      rw [ih, CreditQueue.drain_round fuel hsome havail, ← (postWrite_queues s qpNum info).1]
      simp only [writeQueue, List.map_tail]
      rfl
  | case4 fuel s qpNum info rest hpending havail =>
      rw [CreditQueue.drain_done _ (Or.inr havail)]

theorem drainAcks_queues (fuel : Nat) (s : Reactor) :
    (drainAcks fuel s).ackQueue = s.ackQueue.drain fuel
      ∧ (drainAcks fuel s).writeQueue = s.writeQueue := by
  refine ⟨?_, drainAcks_keeps writeQueue
    (fun s qpNum info _ _ _ => (postAck_queues s qpNum info).2) fuel s⟩
  fun_induction drainAcks fuel s with
  | case1 s => rfl
  | case2 fuel s hpending =>
      have hnone : s.ackQueue.pending = [] := List.map_eq_nil_iff.mpr hpending
      rw [CreditQueue.drain_done _ (Or.inl hnone)]
  | case3 fuel s qpNum info rest hpending havail s' ih =>
      have hsome : s.ackQueue.pending = ackRequest (qpNum, info) :: rest.map ackRequest := by
        rw [ackQueue, hpending]
        rfl
      rw [ih, CreditQueue.drain_round fuel hsome havail, ← (postAck_queues s qpNum info).1]
      simp only [ackQueue, List.map_tail]
      rfl
  | case4 fuel s qpNum info rest hpending havail =>
      rw [CreditQueue.drain_done _ (Or.inr havail)]

/-- The end of a poll refunds both queues. -/
theorem settle_queues (s : Reactor) (tally : Tally) :
    (s.settle tally).writeQueue = s.writeQueue.refund tally.numWrites
      ∧ (s.settle tally).ackQueue = s.ackQueue.refund tally.numAcks := by
  rw [settle, postRecvRequestsOnSRQ, postRecvLoop_eq _ _ _ (Nat.le_refl _)]
  dsimp only
  generalize hpaid : ({ s with
      device := { s.device with recvsPosted := s.device.recvsPosted + tally.numRecvs }
      numAvailableWrites := s.numAvailableWrites + tally.numWrites } : Reactor) = paid
  obtain ⟨hwrites, hsame⟩ := drainWrites_queues paid.pendingQpWrites.length paid
  have hpending : s.pendingQpWrites = paid.pendingQpWrites := by rw [← hpaid]
  rw [hpending]
  generalize drainWrites paid.pendingQpWrites.length paid = drained at hwrites hsame ⊢
  obtain ⟨hacks, hkept⟩ := drainAcks_queues drained.pendingQpAcks.length
    { drained with numAvailableAcks := drained.numAvailableAcks + tally.numAcks }
  constructor
  · have hlength : paid.pendingQpWrites.length = s.writeQueue.pending.length := by
      rw [← hpending]
      exact (List.length_map _).symm
    have hrefund : paid.writeQueue
        = { s.writeQueue with available := s.writeQueue.available + tally.numWrites } := by
      rw [← hpaid]
      rfl
    rw [hkept, CreditQueue.refund, ← hlength, ← hrefund]
    exact hwrites
  · have hlength : drained.pendingQpAcks.length = drained.ackQueue.pending.length :=
      (List.length_map _).symm
    have hsame' : paid.ackQueue = s.ackQueue := by
      rw [← hpaid]
      rfl
    have hrefund : ackQueue
          { drained with numAvailableAcks := drained.numAvailableAcks + tally.numAcks }
        = { s.ackQueue with available := s.ackQueue.available + tally.numAcks } := by
      rw [← hsame', ← hsame]
      rfl
    rw [hacks, hrefund, CreditQueue.refund, hlength, hsame, hsame']

-- ── Runs ─────────────────────────────────────────────────────────────────────

/-- A batch is taken from the completion queue; what was posted stays posted. -/
theorem pollCq_posted (wcs : List Wc) {d d' : Device} (h : d.pollCq wcs = some d') :
    d'.posted = d.posted := by
  induction wcs generalizing d with
  | nil =>
      obtain rfl := Option.some.inj h
      rfl
  | cons wc rest ih =>
      obtain ⟨d₁, hfirst, hrest⟩ := Option.bind_eq_some_iff.mp h
      have hone : d₁.posted = d.posted := by
        rw [Device.complete] at hfirst
        split at hfirst
        · exact absurd hfirst (by simp)
        · split at hfirst
          · split at hfirst
            · obtain rfl := Option.some.inj hfirst
              rfl
            · exact absurd hfirst (by simp)
          · split at hfirst
            · obtain rfl := Option.some.inj hfirst
              rfl
            · exact absurd hfirst (by simp)
      exact (ih hrest).trans hone

/-- The runs of the reactor, with the completions of the polls that have ended and all calls so
    far in their order, those by handlers included. -/
inductive Run : Reactor → List Wc → List Call → Prop where
  | make : Run make [] []
  | call {s : Reactor} {polled : List Wc} {calls : List Call} (h : Run s polled calls) (c : Call) :
      Run (s.call c) polled (calls ++ [c])
  | poll {s s' : Reactor} {polled : List Wc} {calls : List Call} {device' : Device}
      (h : Run s polled calls) (batch : List (Wc × List Call))
      (hsize : batch.length ≤ kNumPolledWorkCompletions)
      (hpoll : s.device.pollCq (batch.map Prod.fst) = some device')
      (hstep : pollOnce { s with device := device' } batch = .returns s') :
      Run s' (polled ++ batch.map Prod.fst) (calls ++ callsOf batch)

/-- The states outside of the drain loops: those between two polls, and those within one, when
    some completions were handled and the handler of the last of them may not be done with its
    calls. -/
inductive Outside : Reactor → List Wc → List Call → Prop where
  | between {s : Reactor} {polled : List Wc} {calls : List Call} (h : Run s polled calls) :
      Outside s polled calls
  | within {s : Reactor} {polled : List Wc} {calls : List Call} {device' : Device}
      {x : Reactor × Tally} (h : Run s polled calls) (wcs : List Wc)
      (hpoll : s.device.pollCq wcs = some device') (handled : List (Wc × List Call))
      (hbegins : handled.map Prod.fst <+: wcs)
      (hstep : handleCompletions handled ({ s with device := device' }, {}) = .returns x) :
      Outside x.1 polled (calls ++ callsOf handled)

/-- The completed RDMA writes of a list of completions. -/
def writesDone (polled : List Wc) : Nat := polled.countP (fun wc => wc.isWrite && wc.succeeded)

/-- The acknowledgements that have completed. -/
def acksDone (polled : List Wc) : Nat := polled.countP (fun wc => wc.isAck && wc.succeeded)

theorem writesDone_append (polled wcs : List Wc) :
    writesDone (polled ++ wcs) = writesDone polled + writesDone wcs :=
  List.countP_append

theorem acksDone_append (polled wcs : List Wc) :
    acksDone (polled ++ wcs) = acksDone polled + acksDone wcs :=
  List.countP_append

/-- Both queues are orderly: what was called for is posted or waits, in the order of the calls,
    nothing waits for a credit that is there, and the credits that are not there are those of
    posts that have not completed. -/
structure InOrder (s : Reactor) (polled : List Wc) (calls : List Call) : Prop where
  writes : Orderly s.writeQueue (calls.flatMap Call.writes)
    (kNumPendingWriteReqs + writesDone polled)
  acks : Orderly s.ackQueue (calls.flatMap Call.acks) (kNumPendingAckReqs + acksDone polled)

section InOrder

variable {s s' : Reactor} {polled : List Wc} {calls : List Call}

theorem inOrder_make : InOrder make [] [] := by
  rw [make_eq]
  exact ⟨orderly_init _, orderly_init _⟩

theorem InOrder.called (h : InOrder s polled calls) {cs : List Call}
    (hwrites : s'.writeQueue = s.writeQueue.requests (cs.flatMap Call.writes))
    (hacks : s'.ackQueue = s.ackQueue.requests (cs.flatMap Call.acks)) :
    InOrder s' polled (calls ++ cs) := by
  constructor
  · rw [hwrites, List.flatMap_append]
    exact h.writes.requests _
  · rw [hacks, List.flatMap_append]
    exact h.acks.requests _

/-- The device that a poll leaves has the same posts. -/
theorem InOrder.polling (h : InOrder s polled calls) {wcs : List Wc} {device' : Device}
    (hpoll : s.device.pollCq wcs = some device') :
    InOrder { s with device := device' } polled calls := by
  have hhanded : ∀ wrId, handed { s with device := device' } wrId = s.handed wrId := by
    intro wrId
    rw [handed, handed, pollCq_posted wcs hpoll]
  constructor
  · rw [writeQueue, hhanded]
    exact h.writes
  · rw [ackQueue, hhanded]
    exact h.acks

theorem InOrder.poll (h : InOrder s polled calls) {batch : List (Wc × List Call)}
    {device' : Device} (hpoll : s.device.pollCq (batch.map Prod.fst) = some device')
    (hstep : pollOnce { s with device := device' } batch = .returns s') :
    InOrder s' (polled ++ batch.map Prod.fst) (calls ++ callsOf batch) := by
  have hpolling := h.polling hpoll
  cases batch with
  | nil =>
      obtain rfl := Outcome.returns.inj hstep
      rw [List.map_nil, List.append_nil, callsOf, List.flatMap_nil, List.append_nil]
      exact hpolling
  | cons entry rest =>
      simp only [pollOnce] at hstep
      cases hbatch : handleCompletions (entry :: rest) ({ s with device := device' }, {}) with
      | throws x =>
          rw [hbatch] at hstep
          exact absurd hstep (by simp)
      | returns x =>
          rw [hbatch] at hstep
          obtain rfl := Outcome.returns.inj hstep
          obtain ⟨hwrites, hacks⟩ := handleCompletions_queues _ hbatch
          have hcalls := hpolling.called hwrites hacks
          have htally := handleCompletions_tallied _ (Device.pollCq_polled _ hpoll).opcodes hbatch
          obtain ⟨hwrites', hacks'⟩ := settle_queues x.1 x.2
          have hw : x.2.numWrites = writesDone ((entry :: rest).map Prod.fst) :=
            htally.writes.trans (Nat.zero_add _)
          have ha : x.2.numAcks = acksDone ((entry :: rest).map Prod.fst) :=
            htally.acks.trans (Nat.zero_add _)
          constructor
          · rw [hwrites', hw, writesDone_append, ← Nat.add_assoc]
            exact hcalls.writes.refund _
          · rw [hacks', ha, acksDone_append, ← Nat.add_assoc]
            exact hcalls.acks.refund _

theorem Run.inOrder (h : Run s polled calls) : InOrder s polled calls := by
  induction h with
  | make => exact inOrder_make
  | call _ c ih =>
      obtain ⟨hwrites, hacks⟩ := call_queues _ c
      refine ih.called ?_ ?_
      · rw [List.flatMap_singleton]
        exact hwrites
      · rw [List.flatMap_singleton]
        exact hacks
  | poll _ batch _ hpoll hstep ih => exact ih.poll hpoll hstep

theorem Outside.inOrder (h : Outside s polled calls) : InOrder s polled calls := by
  cases h with
  | between h => exact h.inOrder
  | within h wcs hpoll handled _ hstep =>
      obtain ⟨hwrites, hacks⟩ := handleCompletions_queues handled hstep
      exact (h.inOrder.polling hpoll).called hwrites hacks

end InOrder

/-- What holds of the posts outside of the drain loops. -/
structure PostsInOrder (s : Reactor) (polled : List Wc) (calls : List Call) : Prop where
  writesWait : s.pendingQpWrites ≠ [] → s.numAvailableWrites = 0
  acksWait : s.pendingQpAcks ≠ [] → s.numAvailableAcks = 0
  writes : s.handed kWriteRequestId ++ s.pendingQpWrites.map writeRequest
    = calls.flatMap Call.writes
  acks : s.handed kAckRequestId ++ s.pendingQpAcks.map ackRequest = calls.flatMap Call.acks
  /-- A counter that starts at its constant, goes up with each completion that succeeded and
      down with each post, is not negative. -/
  writeCredits : (kNumPendingWriteReqs : Int) + writesDone polled
    - (s.handed kWriteRequestId).length = s.numAvailableWrites
  ackCredits : (kNumPendingAckReqs : Int) + acksDone polled - (s.handed kAckRequestId).length
    = s.numAvailableAcks

/-- **Posts in request order.**  Whatever is called from outside and by handlers, and whatever the
    batches are. -/
theorem posts_in_order {s : Reactor} {polled : List Wc} {calls : List Call}
    (h : Outside s polled calls) : PostsInOrder s polled calls := by
  obtain ⟨hwrites, hacks⟩ := h.inOrder
  constructor
  case writesWait =>
    intro hpending
    exact hwrites.waits (fun hnone => hpending (List.map_eq_nil_iff.mp hnone))
  case acksWait =>
    intro hpending
    exact hacks.waits (fun hnone => hpending (List.map_eq_nil_iff.mp hnone))
  case writes => exact hwrites.order
  case acks => exact hacks.order
  case writeCredits =>
    have hcredits : s.numAvailableWrites + (s.handed kWriteRequestId).length
      = kNumPendingWriteReqs + writesDone polled := hwrites.credits
    omega
  case ackCredits =>
    have hcredits : s.numAvailableAcks + (s.handed kAckRequestId).length
      = kNumPendingAckReqs + acksDone polled := hacks.credits
    omega

/-- A write, and as many more as there are credits and two. -/
def sampleRewrites : List Call :=
  List.replicate (kNumPendingWriteReqs + 2) (.postWrite 7 ⟨8, 4, 0, 8, 0⟩)

/-- More writes of one queue pair than there are credits for. -/
def sampleCalls : List Call :=
  [.registerQp 7, .postWrite 7 ⟨0, 8, 0, 0, 0⟩] ++ sampleRewrites

/-- A handler that has written all these when its first write completes, and has not returned
    yet: no credit is back, and three writes wait. -/
theorem posts_in_order_midway :
    ∃ s, Outside s [] sampleCalls ∧ s.pendingQpWrites.length = 3
      ∧ PostsInOrder s [] sampleCalls := by
  have hposted := (Run.make.call (.registerQp 7)).call (.postWrite 7 ⟨0, 8, 0, 0, 0⟩)
  rw [make_eq] at hposted
  obtain ⟨s, hmidway⟩ : ∃ s, Outside s [] sampleCalls := by
    have hwithin := Outside.within hposted [writeWc .WC_SUCCESS] rfl
      [(writeWc .WC_SUCCESS, sampleRewrites)] (List.prefix_refl _) rfl
    have hcalls : callsOf [(writeWc .WC_SUCCESS, sampleRewrites)] = sampleRewrites :=
      List.append_nil _
    rw [hcalls] at hwithin
    exact ⟨_, hwithin⟩
  have horder := posts_in_order hmidway
  refine ⟨s, hmidway, ?_, horder⟩
  have hasked : (sampleCalls.flatMap Call.writes).length = kNumPendingWriteReqs + 3 := by
    have hmore : (sampleRewrites.flatMap Call.writes).length = kNumPendingWriteReqs + 2 := by
      rw [sampleRewrites, List.length_flatMap, List.map_replicate, List.sum_replicate_nat]
      exact Nat.mul_one _
    rw [sampleCalls, List.flatMap_append, List.length_append, hmore]
    exact Nat.add_comm 1 _
  have hall := congrArg List.length horder.writes
  rw [List.length_append, List.length_map, hasked] at hall
  have hcredits := horder.writeCredits
  have hnone : writesDone [] = 0 := rfl
  rw [hnone] at hcredits
  have hwait : s.numAvailableWrites = 0 := by
    refine horder.writesWait ?_
    intro hpending
    rw [hpending, List.length_nil] at hall
    omega
  omega

end Reactor

end TpIbv
