import Tensorpipe.PipePairProofs

/-! # Two pipes do not stall

    When nothing is in flight between two pipes that both still work, each waits for its
    user only: a message that was written and for which the other side has called `read`
    has been sent and received, and both callbacks were invoked.

    The argument goes through the fronts of the two queues.  An operation that no
    transition can move waits for a call that is outstanding; the other end has issued the
    call that answers it, because it, too, cannot be moved any further; and then something
    would be in flight.

    `Books` is what has to be known of a run for this: both pipes are at rest between their
    tasks, and what they wait for is what they issued and did not get back. -/

namespace TpStateMachine

namespace Outcome

variable {α : Type} {P : α → Prop} {o : Outcome α}

/-- A computation which returns did so in its first part. -/
theorem bind_eq_returns {f : α → Outcome α} {b : α} (h : o.bind f = .returns b) :
    ∃ a, o = .returns a ∧ f a = .returns b := by
  cases o with
  | returns a => exact ⟨a, rfl, h⟩
  | throws a => exact absurd h (by simp)

/-- A mapped computation which returns did so before. -/
theorem map_eq_returns {β : Type} {f : α → β} {b : β} (h : o.map f = .returns b) :
    ∃ a, o = .returns a ∧ f a = b := by
  cases o with
  | returns a => exact ⟨a, rfl, Outcome.returns.inj h⟩
  | throws a => exact absurd h (by simp)

/-- What holds of the state, however the computation ends. -/
theorem post_of_state (h : P o.state) : o.Post P (fun _ => True) := by
  cases o with
  | returns a => exact h
  | throws a => trivial

end Outcome

variable {σ Op State : Type} [Operation Op State] [DecidableEq State]

omit [DecidableEq State] in
/-- The last state is one of those of the operations, or the first. -/
theorem lastState_of_forall {P : State → Prop} {pre : List Op} :
    ∀ {p : State}, P p → (∀ o ∈ pre, P (Operation.state o)) → P (lastState p pre) := by
  induction pre with
  | nil => exact fun hp _ => hp
  | cons op rest ih => exact fun _ h => ih (h op (by simp)) (fun o ho => h o (by simp [ho]))

omit [DecidableEq State] in
/-- The first operation below a threshold: those before it are not, and no transition of it
    is enabled. -/
theorem stable_first {ts : List (Transition σ Op State)} (rank : State → Nat) {k : Nat}
    {ops : List Op} (h : Stable ts ops) (hfin : k ≤ rank (finished Op))
    (hpos : 0 < ops.countP (fun o => decide (rank (Operation.state o) < k))) :
    ∃ pre op post, ops = pre ++ op :: post ∧ rank (Operation.state op) < k
      ∧ (∀ o ∈ pre, k ≤ rank (Operation.state o))
      ∧ k ≤ rank (lastState (finished Op) pre)
      ∧ ¬ Enabled ts (lastState (finished Op) pre) op := by
  obtain ⟨o, ho, hlow⟩ := List.countP_pos_iff.mp hpos
  have hsome : (ops.find? (fun o => decide (rank (Operation.state o) < k))).isSome = true :=
    List.find?_isSome.mpr ⟨o, ho, hlow⟩
  obtain ⟨op, hfind⟩ := Option.isSome_iff_exists.mp hsome
  obtain ⟨hop, pre, post, rfl, hbefore⟩ := List.find?_eq_some_iff_append.mp hfind
  have hpre : ∀ o ∈ pre, k ≤ rank (Operation.state o) := by
    intro o ho
    have := hbefore o ho
    simpa using this
  refine ⟨pre, op, post, rfl, of_decide_eq_true hop, hpre, ?_, (chained_append.mp h).2.1⟩
  exact lastState_of_forall (P := fun st => k ≤ rank st) hfin hpre

end TpStateMachine

namespace TpPipe

open TpStateMachine TpMessage TpSelect TpStream

-- ── What is pending ──────────────────────────────────────────────────────────

/-- Whatever issuing more calls keeps, the state machine keeps. -/
theorem advanceReadOperation_issues (g : Gate) {I : List ReadCall → List ReadCall → Prop}
    (hI : ∀ p i calls, I p i → I (p ++ calls) (i ++ calls)) :
    Keeps (advanceReadOperation g) (fun r => I r.pending r.issued) := by
  have hrecv : ∀ l (r : ReadSide) (op : ReadOperation), I r.pending r.issued →
      I (receiveTensorsLoop g l r op).state.1.pending
        (receiveTensorsLoop g l r op).state.1.issued := by
    intro l
    induction l with
    | nil => exact fun _ _ hr => hr
    | cons p rest ih =>
        intro r op hr
        rw [receiveTensorsLoop]
        cases g.channelForDevicePair.lookup (p.1.1.buffer.device, p.1.2.sourceDevice) with
        | none => exact hr
        | some channelName =>
            dsimp only
            by_cases hhas : g.hasChannel channelName = false
            · rw [if_pos hhas]
              exact hr
            · rw [if_neg hhas]
              exact ih _ _ (hI _ _ _ hr)
  intro t ht a ha r op hr
  simp only [advanceReadOperation, List.mem_cons, List.not_mem_nil, or_false] at ht
  rcases ht with rfl | rfl | rfl | rfl | rfl | rfl | rfl | rfl <;>
    simp only [List.mem_cons, List.not_mem_nil, or_false] at ha <;>
    rcases ha with rfl | rfl | rfl <;>
    first
      | exact hr
      | exact hI _ _ _ hr
      | exact hrecv _ _ _ hr

/-- Writes only add to what is pending and issued, alike. -/
theorem advanceWriteOperation_issues (g : Gate) {I : List WriteCall → List WriteCall → Prop}
    (hI : ∀ p i calls, I p i → I (p ++ calls) (i ++ calls)) :
    Keeps (advanceWriteOperation g) (fun w => I w.pending w.issued) := by
  have hsend : ∀ l (w : WriteSide) (op : WriteOperation), I w.pending w.issued →
      I (sendTensorsLoop g l w op).state.1.pending
        (sendTensorsLoop g l w op).state.1.issued := by
    intro l
    induction l with
    | nil => exact fun _ _ hw => hw
    | cons p rest ih =>
        intro w op hw
        rw [sendTensorsLoop]
        cases p.1.2.targetDevice with
        | none => exact hw
        | some remoteDevice =>
            dsimp only
            cases g.channelForDevicePair.lookup (p.1.2.sourceDevice, remoteDevice) with
            | none => exact hw
            | some channelName =>
                dsimp only
                by_cases hhas : g.hasChannel channelName = false
                · rw [if_pos hhas]
                  exact hw
                · rw [if_neg hhas]
                  exact ih _ _ (hI _ _ _ hw)
  intro t ht a ha w op hw
  simp only [advanceWriteOperation, List.mem_cons, List.not_mem_nil, or_false] at ht
  rcases ht with rfl | rfl | rfl | rfl | rfl | rfl <;>
    simp only [List.mem_cons, List.not_mem_nil, or_false] at ha <;>
    rcases ha with rfl | rfl | rfl <;>
    first
      | exact hw
      | exact hI _ _ _ hw
      | exact hsend _ _ _ hw

/-- The frames that a pipe still has to read are those it asked for and did not get. -/
def FrameTally (taken : Nat) (r : ReadSide) : Prop :=
  Tally (Option.guard ReadCall.isFrame) taken r.pending r.issued

/-- The same for the replies. -/
def ReplyTally (taken : Nat) (w : WriteSide) : Prop :=
  Tally WriteCall.replyNumber taken w.pending w.issued

/-- The reads keep the account of the frames. -/
theorem frameTally_keeps (g : Gate) (taken : Nat) :
    Keeps (advanceReadOperation g) (FrameTally taken) :=
  advanceReadOperation_issues g (fun _ _ calls h => h.issue calls)

/-- The writes keep the account of the replies. -/
theorem replyTally_keeps (g : Gate) (taken : Nat) :
    Keeps (advanceWriteOperation g) (ReplyTally taken) :=
  advanceWriteOperation_issues g (fun _ _ calls h => h.issue calls)

section Tasks

variable {g : Gate} {taken : Nat} {x : Reads} {y : Writes}

/-- Advancing a read keeps the account of the frames. -/
theorem frameTally_advance (n : Nat) {r : ReadSide} {ops : List ReadOperation}
    (h : FrameTally taken r) :
    (advanceOperation (advanceReadOperation g) r ops n).Post (fun z => FrameTally taken z.1)
      (fun _ => True) :=
  Outcome.post_of_state (advanceOperation_keeps (frameTally_keeps g taken).live h)

/-- Advancing a write keeps the account of the replies. -/
theorem replyTally_advance (n : Nat) {w : WriteSide} {ops : List WriteOperation}
    (h : ReplyTally taken w) :
    (advanceOperation (advanceWriteOperation g) w ops n).Post (fun z => ReplyTally taken z.1)
      (fun _ => True) :=
  Outcome.post_of_state (advanceOperation_keeps (replyTally_keeps g taken).live h)

/-- A call of `read` keeps the account of the frames. -/
theorem frameTally_read (allocation : Allocation) (h : FrameTally taken x.1) :
    (readFromLoop g allocation x).Post (fun z => FrameTally taken z.1) (fun _ => True) := by
  rw [readFromLoop]
  cases x.1.nextMessageGettingAllocation with
  | none => trivial
  | some n =>
      dsimp only
      cases x.2.find? (fun op => op.sequenceNumber == n) with
      | none => trivial
      | some op =>
          dsimp only
          by_cases hcompat : checkAllocationCompatibility op.descriptor allocation = false
          · rw [if_pos hcompat]
            trivial
          · rw [if_neg hcompat]
            exact frameTally_advance n h

/-- The number of frames taken once a call of the reading half has come back. -/
def framesAfter (taken : Nat) (call : ReadCall) : Nat :=
  if call.isFrame then taken + 1 else taken

/-- A call comes back; if it reads a frame, it is the oldest one. -/
theorem frameTally_done (call : ReadCall) (descriptor : Descriptor) (h : FrameTally taken x.1)
    (holdest : call.isFrame = true → (x.1.issued.filter ReadCall.isFrame)[taken]? = some call) :
    (onReadDone g call descriptor x).Post (fun z => FrameTally (framesAfter taken call) z.1)
      (fun _ => True) := by
  have hback : FrameTally (framesAfter taken call)
      { x.1 with pending := x.1.pending.erase call } := by
    rw [framesAfter]
    by_cases hframe : call.isFrame = true
    · rw [if_pos hframe]
      refine h.erase_oldest (b := call) ?_ ?_ ?_
      · rw [List.filterMap_eq_filter]
        exact holdest hframe
      · exact Option.guard_eq_some_iff.mpr ⟨rfl, hframe⟩
      · exact fun _ hx => (Option.guard_eq_some_iff.mp hx).1
    · rw [if_neg hframe]
      exact h.erase_other (Option.guard_eq_none_iff.mpr (Bool.eq_false_iff.mpr hframe))
  cases call with
  | descriptor n => exact frameTally_advance n hback
  | payload n payloadIdx data length => exact frameTally_advance n hback
  | tensor channel n tensorIdx buffer length => exact frameTally_advance n hback
  | descriptorReply n reply => exact hback

/-- The number of replies taken once a call of the writing half has come back. -/
def repliesAfter (taken : Nat) (call : WriteCall) : Nat :=
  if call.replyNumber.isSome then taken + 1 else taken

/-- The oldest reply that comes keeps the account of the replies. -/
theorem replyTally_done (call : WriteCall) (reply : DescriptorReply) (h : ReplyTally taken y.1)
    (holdest : ∀ n, call = .descriptorReply n →
      (y.1.issued.filterMap WriteCall.replyNumber)[taken]? = some n) :
    (onWriteDone g call reply y).Post (fun z => ReplyTally (repliesAfter taken call) z.1)
      (fun _ => True) := by
  cases call with
  | descriptor n descriptor => exact h.erase_other rfl
  | payload n payloadIdx data length => exact replyTally_advance n (h.erase_other rfl)
  | tensor channel n tensorIdx buffer length => exact replyTally_advance n (h.erase_other rfl)
  | descriptorReply n =>
      have hback : ReplyTally (taken + 1)
          { y.1 with pending := y.1.pending.erase (.descriptorReply n) } := by
        refine h.erase_oldest (b := n) (holdest n rfl) rfl ?_
        intro c hc
        cases c with
        | descriptorReply k => exact congrArg WriteCall.descriptorReply (Option.some.inj hc)
        | descriptor k d => exact absurd hc (Option.some_ne_none n).symm
        | payload k i data length => exact absurd hc (Option.some_ne_none n).symm
        | tensor channel k i buffer length => exact absurd hc (Option.some_ne_none n).symm
      rw [onWriteDone]
      cases y.2.find? (fun op => op.sequenceNumber == n) with
      | none => trivial
      | some op =>
          dsimp only
          by_cases herr : g.error.isSome = true
          · rw [if_pos herr]
            exact replyTally_advance n hback
          · rw [if_neg herr]
            cases parseDescriptorReplyOfMessage op.message.tensors op.tensors
                reply.targetDevices with
            | none => trivial
            | some parsed => exact replyTally_advance n hback

end Tasks

-- ── The books of a run ───────────────────────────────────────────────────────

namespace PipeImpl

variable {p q : PipeImpl} {taken : Nat}

/-- A task of one half that returns leaves the rest of the pipe alone. -/
theorem onReads_returns {task : Gate → Reads → Outcome Reads}
    (h : p.onReads task = .returns q) :
    ∃ x, task p.gate p.reads = .returns x ∧ q = { p with reads := x } := by
  obtain ⟨x, hx, hq⟩ := Outcome.map_eq_returns h
  exact ⟨x, hx, hq.symm⟩

/-- What a task of the writing half did to the pipe. -/
theorem onWrites_returns {task : Gate → Writes → Outcome Writes}
    (h : p.onWrites task = .returns q) :
    ∃ y, task p.gate p.writes = .returns y ∧ q = { p with writes := y } := by
  obtain ⟨y, hy, hq⟩ := Outcome.map_eq_returns h
  exact ⟨y, hy, hq.symm⟩

/-- The end of the handshake advances both halves. -/
theorem establish_halves (h : p.establish = .returns q) :
    ∃ x y g g', advanceAllReads g p.reads = .returns x
      ∧ advanceAllWrites g' p.writes = .returns y
      ∧ q = { p with state := .established, reads := x, writes := y } := by
  obtain ⟨p', hreads, hwrites⟩ := Outcome.bind_eq_returns h
  obtain ⟨x, hx, rfl⟩ := onReads_returns hreads
  obtain ⟨y, hy, rfl⟩ := onWrites_returns hwrites
  exact ⟨x, y, _, _, hx, hy, rfl⟩

/-- Without an error afterwards there was none before, and none was set. -/
theorem setError_returns {error : Error} (h : p.setError error = .returns q)
    (hq : q.error = none) : error = none ∧ q = p := by
  have hpost := setError_keeps_both (P := fun _ => True) (p := p) error trivial
    (fun q _ _ _ _ => Outcome.post_of_state trivial) (fun _ _ => trivial)
  rw [h] at hpost
  obtain rfl := hpost.2 hq
  refine ⟨rfl, ?_⟩
  rw [setError, if_pos (by simp)] at h
  exact (Outcome.returns.inj h).symm

end PipeImpl

/-- How many frames, and how many replies, have been taken after a task. -/
def framesTakenAfter (taken : Nat) : PipeImpl.Task → Nat
  | .readDone call none _ => framesAfter taken call
  | _ => taken

/-- How many replies were taken after a task. -/
def repliesTakenAfter (taken : Nat) : PipeImpl.Task → Nat
  | .writeDone call none _ => repliesAfter taken call
  | _ => taken

section Run

variable {p q : PipeImpl} {taken : Nat} {task : PipeImpl.Task}

/-- The frames of a pipe over one of its tasks. -/
theorem run_frames (h : p.error = none → FrameTally taken p.reads.1)
    (hmay : mayRun task p = true) (hrun : p.run task = .returns q)
    (holdest : ∀ call d, task = .readDone call none d → call.isFrame = true →
      (p.reads.1.issued.filter ReadCall.isFrame)[taken]? = some call) :
    q.error = none → FrameTally (framesTakenAfter taken task) q.reads.1 := by
  intro hq
  cases task with
  | readDescriptor =>
      rw [PipeImpl.run] at hrun
      obtain ⟨x, hx, rfl⟩ := PipeImpl.onReads_returns hrun
      have hpost : (readDescriptorFromLoop p.gate p.reads).Post
          (fun z => FrameTally taken z.1) (fun _ => True) := frameTally_advance _ (h hq)
      rw [hx] at hpost
      exact hpost
  | read allocation =>
      rw [PipeImpl.run] at hrun
      obtain ⟨x, hx, rfl⟩ := PipeImpl.onReads_returns hrun
      have hpost := frameTally_read (g := p.gate) allocation (h hq)
      rw [hx] at hpost
      exact hpost
  | write message =>
      rw [PipeImpl.run] at hrun
      obtain ⟨y, hy, rfl⟩ := PipeImpl.onWrites_returns hrun
      exact h hq
  | close => exact absurd (PipeImpl.setError_returns hrun hq).1 (Option.some_ne_none _)
  | readDone call error descriptor =>
      obtain ⟨p', hset, hthen⟩ := Outcome.bind_eq_returns hrun
      obtain ⟨x, hx, rfl⟩ := PipeImpl.onReads_returns hthen
      obtain ⟨rfl, rfl⟩ := PipeImpl.setError_returns hset hq
      have hpost := frameTally_done (g := p'.gate) call descriptor (h hq)
        (holdest call descriptor rfl)
      rw [hx] at hpost
      exact hpost
  | writeDone call error reply =>
      obtain ⟨p', hset, hthen⟩ := Outcome.bind_eq_returns hrun
      obtain ⟨y, hy, rfl⟩ := PipeImpl.onWrites_returns hthen
      obtain ⟨rfl, rfl⟩ := PipeImpl.setError_returns hset hq
      exact h hq
  | handshakeDone index error context brochure answer => exact Bool.noConfusion hmay
  | accepted registrationId error context transport connection => exact Bool.noConfusion hmay

/-- The replies of a pipe over one of its tasks. -/
theorem run_replies (h : p.error = none → ReplyTally taken p.writes.1)
    (hmay : mayRun task p = true) (hrun : p.run task = .returns q)
    (holdest : ∀ n r, task = .writeDone (.descriptorReply n) none r →
      (p.writes.1.issued.filterMap WriteCall.replyNumber)[taken]? = some n) :
    q.error = none → ReplyTally (repliesTakenAfter taken task) q.writes.1 := by
  intro hq
  cases task with
  | readDescriptor =>
      rw [PipeImpl.run] at hrun
      obtain ⟨x, hx, rfl⟩ := PipeImpl.onReads_returns hrun
      exact h hq
  | read allocation =>
      rw [PipeImpl.run] at hrun
      obtain ⟨x, hx, rfl⟩ := PipeImpl.onReads_returns hrun
      exact h hq
  | write message =>
      rw [PipeImpl.run] at hrun
      obtain ⟨y, hy, rfl⟩ := PipeImpl.onWrites_returns hrun
      have hpost : (writeFromLoop p.gate message p.writes).Post
          (fun z => ReplyTally taken z.1) (fun _ => True) := replyTally_advance _ (h hq)
      rw [hy] at hpost
      exact hpost
  | close => exact absurd (PipeImpl.setError_returns hrun hq).1 (Option.some_ne_none _)
  | readDone call error descriptor =>
      obtain ⟨p', hset, hthen⟩ := Outcome.bind_eq_returns hrun
      obtain ⟨x, hx, rfl⟩ := PipeImpl.onReads_returns hthen
      obtain ⟨rfl, rfl⟩ := PipeImpl.setError_returns hset hq
      exact h hq
  | writeDone call error reply =>
      obtain ⟨p', hset, hthen⟩ := Outcome.bind_eq_returns hrun
      obtain ⟨y, hy, rfl⟩ := PipeImpl.onWrites_returns hthen
      obtain ⟨rfl, rfl⟩ := PipeImpl.setError_returns hset hq
      have hpost := replyTally_done (g := p'.gate) call reply (h hq)
        (fun n hc => holdest n reply (by rw [hc]))
      rw [hy] at hpost
      exact hpost
  | handshakeDone index error context brochure answer => exact Bool.noConfusion hmay
  | accepted registrationId error context transport connection => exact Bool.noConfusion hmay

/-- The end of the handshake keeps the account of the frames. -/
theorem establish_frames (h : p.error = none → FrameTally taken p.reads.1)
    (hrun : p.establish = .returns q) : q.error = none → FrameTally taken q.reads.1 := by
  obtain ⟨x, y, g, g', hx, -, rfl⟩ := PipeImpl.establish_halves hrun
  intro hq
  have hkeep : FrameTally taken
      (advanceAllOperations (advanceReadOperation g) p.reads.1 p.reads.2).state.1 :=
    advanceAllOperations_keeps (frameTally_keeps g taken).live (h hq)
  rw [show advanceAllOperations (advanceReadOperation g) p.reads.1 p.reads.2 = .returns x
    from hx] at hkeep
  exact hkeep

/-- The end of the handshake keeps the account of the replies. -/
theorem establish_replies (h : p.error = none → ReplyTally taken p.writes.1)
    (hrun : p.establish = .returns q) : q.error = none → ReplyTally taken q.writes.1 := by
  obtain ⟨x, y, g, g', -, hy, rfl⟩ := PipeImpl.establish_halves hrun
  intro hq
  have hkeep : ReplyTally taken
      (advanceAllOperations (advanceWriteOperation g') p.writes.1 p.writes.2).state.1 :=
    advanceAllOperations_keeps (replyTally_keeps g' taken).live (h hq)
  rw [show advanceAllOperations (advanceWriteOperation g') p.writes.1 p.writes.2 = .returns y
    from hy] at hkeep
  exact hkeep

end Run

/-- What is known of both pipes between two steps of a run.  What is pending matters only
    while there is no error: a call that fails may come back before its turn. -/
structure Books (s : Pair) : Prop where
  writer : s.writer.PipeInv
  reader : s.reader.PipeInv
  frames : s.reader.error = none → FrameTally s.framesTaken s.reader.reads.1
  replies : s.writer.error = none → ReplyTally s.repliesTaken s.writer.writes.1

namespace Pair

variable {s s' : Pair}

/-- What the run has taken after a task of the reader. -/
theorem record_taken (s : Pair) (task : PipeImpl.Task) :
    (s.record .reader task).framesTaken = framesTakenAfter s.framesTaken task
      ∧ (s.record .reader task).repliesTaken = s.repliesTaken
      ∧ (s.record .writer task).framesTaken = s.framesTaken
      ∧ (s.record .writer task).repliesTaken = repliesTakenAfter s.repliesTaken task := by
  cases task with
  | readDone call error descriptor =>
      cases error with
      | none =>
          by_cases hframe : call.isFrame = true
          · simp [record, hframe, framesTakenAfter, framesAfter, repliesTakenAfter]
          · simp [record, hframe, framesTakenAfter, framesAfter, repliesTakenAfter]
      | some error => exact ⟨rfl, rfl, rfl, rfl⟩
  | writeDone call error reply =>
      cases error with
      | none => cases call <;> exact ⟨rfl, rfl, rfl, rfl⟩
      | some error => cases call <;> exact ⟨rfl, rfl, rfl, rfl⟩
  | readDescriptor => exact ⟨rfl, rfl, rfl, rfl⟩
  | read allocation => exact ⟨rfl, rfl, rfl, rfl⟩
  | write message => exact ⟨rfl, rfl, rfl, rfl⟩
  | close => exact ⟨rfl, rfl, rfl, rfl⟩
  | handshakeDone index error context brochure answer => exact ⟨rfl, rfl, rfl, rfl⟩
  | accepted registrationId error context transport connection => exact ⟨rfl, rfl, rfl, rfl⟩

/-- A computation that is run to its end returned. -/
theorem returned_eq {α : Type} {o : Outcome α} {a : α} (h : returned o = some a) :
    o = .returns a := by
  cases o with
  | returns b => exact congrArg Outcome.returns (Option.some.inj h)
  | throws b => exact absurd h (Option.some_ne_none a).symm

/-- Only an outstanding operation reports. -/
theorem mayRun_allowed {task : PipeImpl.Task} {p : PipeImpl} (h : mayRun task p = true) :
    PipeImpl.Allowed task p := by
  cases task with
  | readDone call error descriptor =>
      exact (of_decide_eq_true h : call ∈ p.reads.1.pending)
  | writeDone call error reply => exact (of_decide_eq_true h : call ∈ p.writes.1.pending)
  | readDescriptor => trivial
  | read allocation => trivial
  | write message => trivial
  | close => trivial
  | handshakeDone index error context brochure answer => trivial
  | accepted registrationId error context transport connection => trivial

/-- **A step keeps the books.** -/
theorem step_books (h : Books s) {e : PairEvent} (hstep : s.step e = some s') : Books s' := by
  cases e with
  | establish side =>
      obtain ⟨p, hp, rfl⟩ := Option.map_eq_some_iff.mp hstep
      cases side with
      | writer =>
          refine ⟨post_returned (PipeImpl.establish_inv h.writer (.refl _)) hp, h.reader,
            h.frames, ?_⟩
          exact establish_replies h.replies (returned_eq hp)
      | reader =>
          refine ⟨h.writer, post_returned (PipeImpl.establish_inv h.reader (.refl _)) hp, ?_,
            h.replies⟩
          exact establish_frames h.frames (returned_eq hp)
  | fail side error =>
      obtain ⟨p, hp, rfl⟩ := Option.map_eq_some_iff.mp hstep
      have hfail : p.error ≠ none := fun he =>
        Option.some_ne_none error (PipeImpl.setError_returns (returned_eq hp) he).1
      cases side with
      | writer =>
          exact ⟨post_returned (PipeImpl.setError_inv h.writer _) hp, h.reader, h.frames,
            fun he => absurd he hfail⟩
      | reader =>
          exact ⟨h.writer, post_returned (PipeImpl.setError_inv h.reader _) hp,
            fun he => absurd he hfail, h.replies⟩
  | task side task =>
      rw [step] at hstep
      by_cases hmay : (mayRun task (s.pipe side) && s.promised side task) = true
      · rw [if_pos hmay] at hstep
        obtain ⟨p, hp, rfl⟩ := Option.map_eq_some_iff.mp hstep
        obtain ⟨hrun, hpromised⟩ := Bool.and_eq_true _ _ ▸ hmay
        obtain ⟨h1, h2, h3, h4⟩ := record_taken s task
        obtain ⟨-, -, -, -, h5, h6⟩ := record_sent s task
        cases side with
        | writer =>
            refine ⟨post_returned (PipeImpl.run_inv h.writer task (mayRun_allowed hrun)) hp, ?_,
              ?_, ?_⟩
            · show (s.record .writer task).reader.PipeInv
              rw [h5]
              exact h.reader
            · show (s.record .writer task).reader.error = none →
                FrameTally (s.record .writer task).framesTaken
                  (s.record .writer task).reader.reads.1
              rw [h3, h5]
              exact h.frames
            · show p.error = none → ReplyTally (s.record .writer task).repliesTaken p.writes.1
              rw [h4]
              refine run_replies h.replies hrun (returned_eq hp) ?_
              rintro n r rfl
              exact of_decide_eq_true (Bool.and_eq_true _ _ ▸ hpromised).1
        | reader =>
            refine ⟨?_, post_returned (PipeImpl.run_inv h.reader task (mayRun_allowed hrun)) hp,
              ?_, ?_⟩
            · show (s.record .reader task).writer.PipeInv
              rw [h6]
              exact h.writer
            · show p.error = none → FrameTally (s.record .reader task).framesTaken p.reads.1
              rw [h1]
              refine run_frames h.frames hrun (returned_eq hp) ?_
              rintro call d rfl hframe
              rw [promised, hframe] at hpromised
              exact of_decide_eq_true (Bool.and_eq_true _ _ ▸ hpromised).1
            · show (s.record .reader task).writer.error = none →
                ReplyTally (s.record .reader task).repliesTaken
                  (s.record .reader task).writer.writes.1
              rw [h2, h6]
              exact h.replies
      · rw [if_neg hmay] at hstep
        exact absurd hstep (Option.some_ne_none _).symm

/-- **A run keeps the books.** -/
theorem run_books {events : List PairEvent} (h : Books s) (hrun : s.run events = some s') :
    Books s' := by
  induction events generalizing s with
  | nil =>
      obtain rfl := Option.some.inj hrun
      exact h
  | cons e rest ih =>
      obtain ⟨t, ht, hrest⟩ := Option.bind_eq_some_iff.mp hrun
      exact ih (step_books h ht) hrest

/-- Two unused pipes have nothing to account for. -/
theorem start_books {w r : PipeImpl} (hw : Unused w) (hr : Unused r) : Books (start w r) := by
  have hinv : ∀ p : PipeImpl, Unused p → p.PipeInv := by
    intro p hp
    constructor
    · rw [hp.reads]
      exact readRest_init _
    · rw [hp.writes]
      exact writeRest_init _
  refine ⟨hinv w hw, hinv r hr, fun _ => ?_, fun _ => ?_⟩
  · show FrameTally 0 r.reads.1
    rw [hr.reads]
    exact Tally.init _
  · show ReplyTally 0 w.writes.1
    rw [hw.writes]
    exact Tally.init _

end Pair

-- ── What a queue that cannot move waits for ──────────────────────────────────

section Stuck

variable {g : Gate} {w : WriteSide} {wops : List WriteOperation} {r : ReadSide}
  {rops : List ReadOperation}

/-- An operation past a threshold: at most those behind it are below. -/
theorem writeBelow_at {next : Nat} {pending : List WriteCall} {pre post : List WriteOperation}
    {op : WriteOperation} (h : WriteQueue g next pending (pre ++ op :: post)) {k : Nat}
    (hop : k ≤ op.state.rank) : writeBelow k (pre ++ op :: post) ≤ post.length := by
  have hpre : writeBelow k pre = 0 := by
    refine List.countP_eq_zero.mpr ?_
    intro o ho
    have hchain := chained_append.mp h.chained
    have h1 := (chained_rank_pre (fun _ _ hf => hf) pre _ hchain.1).1 o ho
    have h2 : op.state.rank ≤ (lastState WriteState.finished pre).rank := hchain.2.1
    simp only [decide_eq_true_eq]
    show ¬ o.state.rank < k
    have h3 : (lastState WriteState.finished pre).rank ≤ o.state.rank := h1
    omega
  have hpost : writeBelow k post ≤ post.length := List.countP_le_length
  have hsplit : writeBelow k (pre ++ op :: post)
      = writeBelow k pre + writeBelow k post + writeUnit k op.state := by
    simp [writeBelow, writeUnit, List.countP_append, List.countP_cons, Nat.add_assoc]
  rw [hsplit, hpre, writeUnit, if_neg (Nat.not_lt.mpr hop)]
  omega

/-- The first operation below a rank, and that it cannot move. -/
theorem writes_first (h : WriteRest g (w, wops)) {k : Nat} (hk : k ≤ 3)
    (hpos : 0 < writeBelow k wops) :
    ∃ pre op post, wops = pre ++ op :: post ∧ op.state.rank < k
      ∧ k ≤ (lastState WriteState.finished pre).rank
      ∧ ¬ Enabled (advanceWriteOperation g) (lastState WriteState.finished pre) op := by
  obtain ⟨pre, op, post, hops, hlow, -, hprev, hstuck⟩ := stable_first WriteState.rank
    h.stable hk hpos
  exact ⟨pre, op, post, hops, hlow, hprev, hstuck⟩

/-- Where some read is behind a stage, there is a first one, and it is stuck. -/
theorem reads_first (h : ReadRest g (r, rops)) {k : Nat} (hk : k ≤ 5)
    (hpos : 0 < readBelow k rops) :
    ∃ pre op post, rops = pre ++ op :: post ∧ op.state.rank < k
      ∧ k ≤ (lastState ReadState.finished pre).rank
      ∧ ¬ Enabled (advanceReadOperation g) (lastState ReadState.finished pre) op := by
  obtain ⟨pre, op, post, hops, hlow, -, hprev, hstuck⟩ := stable_first ReadState.rank
    h.stable hk hpos
  exact ⟨pre, op, post, hops, hlow, hprev, hstuck⟩

/-- If not all tensors were sent, the first message whose tensors were not is started, and
    waits for its reply. -/
theorem writes_asking (h : WriteRest g (w, wops)) (herr : g.error = none)
    (hest : g.established = true) (hpos : 0 < writeBelow 2 wops) :
    ∃ n, .descriptorReply n ∈ w.pending ∧ n + writeBelow 2 wops = w.nextMessageBeingWritten
      ∧ n + writeBelow 1 wops < w.nextMessageBeingWritten := by
  have hinv : WriteInv g w wops := h.inv
  obtain ⟨pre, op, post, rfl, hlow, hprev, hstuck⟩ := writes_first h (by decide) hpos
  have hcursor := hinv.queue.cursor hprev hlow
  have hmid : op.sequenceNumber + post.length + 1 = w.nextMessageBeingWritten :=
    numbered_mid hinv.queue.numbered
  have hreply := (hinv.queue.locals op (by simp)).replyRead
  have hsend : WriteState.writingPayloadsAndSendingTensors
      ≤ lastState WriteState.finished pre := hprev
  have hask : WriteState.writingPayloadsAndReadingTargetDevices
      ≤ lastState WriteState.finished pre := Nat.le_trans (by decide) hprev
  cases hst : op.state with
  | uninitialized =>
      refine absurd ?_ hstuck
      cases hm : op.hasMissingTargetDevices with
      | true => simp [Enabled, advanceWriteOperation, hst, herr, hest, hm, hask]
      | false => simp [Enabled, advanceWriteOperation, hst, herr, hest, hm, hsend]
  | writingPayloadsAndReadingTargetDevices =>
      have hdone : op.doneReadingDescriptorReply = false := by
        by_contra hdone
        refine hstuck ?_
        simp [Enabled, advanceWriteOperation, hst, herr, hsend,
          show op.doneReadingDescriptorReply = true by simpa using hdone]
      rw [if_pos ⟨hst, hdone⟩] at hreply
      obtain ⟨call, hcall, hkind⟩ := List.countP_pos_iff.mp (hreply ▸ Nat.one_pos)
      have hstarted := writeBelow_at hinv.queue (k := 1) (by rw [hst]; decide)
      cases call with
      | descriptorReply n =>
          obtain rfl := eq_of_beq hkind
          exact ⟨_, hcall, hcursor, by omega⟩
      | descriptor n d => exact Bool.noConfusion hkind
      | payload n i data length => exact Bool.noConfusion hkind
      | tensor channel n i buffer length => exact Bool.noConfusion hkind
  | writingPayloadsAndSendingTensors => exact absurd hlow (by rw [hst]; decide)
  | finished => exact absurd hlow (by rw [hst]; decide)

/-- If the front of the writes has sent its tensors, it waits for its payloads or its
    tensors. -/
theorem writes_sending (h : WriteRest g (w, wops)) (hpos : 0 < writeBelow 3 wops)
    (hsent : w.nextWriteCallbackToCall + writeBelow 2 wops < w.nextMessageBeingWritten) :
    ∃ c ∈ w.pending, c.isPayload w.nextWriteCallbackToCall = true
      ∨ c.isTensor w.nextWriteCallbackToCall = true := by
  have hinv : WriteInv g w wops := h.inv
  obtain ⟨pre, op, post, rfl, hlow, hprev, hstuck⟩ := writes_first h (by decide) hpos
  have hcur := hinv.cursor
  have hfront := hinv.queue.cursor hprev hlow
  have hseq : op.sequenceNumber = w.nextWriteCallbackToCall := by omega
  have hprevFin : WriteState.finished ≤ lastState WriteState.finished pre := hprev
  have hmid : op.sequenceNumber + post.length + 1 = w.nextMessageBeingWritten :=
    numbered_mid hinv.queue.numbered
  have hloc := hinv.queue.locals op (by simp)
  have hrank : 2 ≤ op.state.rank := by
    by_contra hnot
    have hpre : 2 ≤ (lastState WriteState.finished pre).rank := Nat.le_trans (by decide) hprev
    have := hinv.queue.cursor hpre (Nat.not_le.mp hnot)
    omega
  have hst : op.state = .writingPayloadsAndSendingTensors := by
    cases hs : op.state with
    | uninitialized => exact absurd hrank (by rw [hs]; decide)
    | writingPayloadsAndReadingTargetDevices => exact absurd hrank (by rw [hs]; decide)
    | writingPayloadsAndSendingTensors => rfl
    | finished => exact absurd hlow (by rw [hs]; decide)
  have hcount : 0 < op.numPayloadsBeingWritten ∨ 0 < op.numTensorsBeingSent := by
    by_contra hnot
    obtain ⟨h1, h2⟩ : op.numPayloadsBeingWritten = 0 ∧ op.numTensorsBeingSent = 0 := by omega
    exact hstuck (by simp [Enabled, advanceWriteOperation, hst, h1, h2, hprevFin])
  rw [← hseq]
  rcases hcount with hpay | hten
  · rw [← hloc.payloadWrites] at hpay
    obtain ⟨c, hc, hkind⟩ := List.countP_pos_iff.mp hpay
    exact ⟨c, hc, Or.inl hkind⟩
  · rw [← hloc.tensorSends] at hten
    obtain ⟨c, hc, hkind⟩ := List.countP_pos_iff.mp hten
    exact ⟨c, hc, Or.inr hkind⟩

/-- Every message that was given an allocation has had its payload reads scheduled. -/
theorem reads_started (h : ReadRest g (r, rops)) (herr : g.error = none) :
    r.accepted.length ≤ r.messageBeingReadFromConnection := by
  have hinv : ReadInv g r rops := h.inv
  have hcon := hinv.cursors.connection herr
  have hacc := hinv.cursors.accepted
  have hle : readBelow 4 rops ≤ rops.countP (fun op => !op.doneGettingAllocation) := by
    refine List.countP_mono_left ?_
    intro op hop hlow
    have hrank : op.state.rank < 4 := of_decide_eq_true hlow
    have hloc := hinv.queue.locals op hop
    obtain ⟨pre, post, rfl⟩ := List.append_of_mem hop
    have hstuck := (chained_append.mp h.stable).2.1
    by_contra hdone
    have hgiven : op.doneGettingAllocation = true := by simpa using hdone
    have hst : op.state = .askingForAllocationFirstInLine := by
      have h3 : ¬ op.state.rank < 3 := by
        intro hlt
        rw [hloc.unallocated hlt] at hgiven
        exact Bool.noConfusion hgiven
      cases hs : op.state with
      | uninitialized => exact absurd (by rw [hs]; decide) h3
      | readingDescriptor => exact absurd (by rw [hs]; decide) h3
      | askingForAllocation => exact absurd (by rw [hs]; decide) h3
      | askingForAllocationFirstInLine => rfl
      | readingPayloadsAndReceivingTensors => exact absurd hrank (by rw [hs]; decide)
      | finished => exact absurd hrank (by rw [hs]; decide)
    refine hstuck ?_
    cases hm : op.hasMissingTargetDevices with
    | true => simp [Enabled, advanceReadOperation, hst, herr, hgiven, hm]
    | false => simp [Enabled, advanceReadOperation, hst, herr, hgiven, hm]
  omega

/-- If everything before has been started, the first message whose descriptor callback was
    not invoked waits for its descriptor. -/
theorem reads_describing (h : ReadRest g (r, rops)) (herr : g.error = none)
    (hest : g.established = true) (hpos : 0 < readBelow 2 rops)
    (hstarted : r.nextReadDescriptorCallbackToCall ≤ r.messageBeingReadFromConnection) :
    .descriptor r.nextReadDescriptorCallbackToCall ∈ r.pending := by
  have hinv : ReadInv g r rops := h.inv
  obtain ⟨pre, op, post, rfl, hlow, hprev, hstuck⟩ := reads_first h (by decide) hpos
  have hcursor := hinv.queue.cursor hprev hlow
  have hcb := hinv.cursors.descriptorCallback
  have hseq : op.sequenceNumber = r.nextReadDescriptorCallbackToCall := by omega
  have hask : ReadState.askingForAllocation ≤ lastState ReadState.finished pre := hprev
  have hread := (hinv.queue.locals op (by simp)).descriptorRead
  cases hst : op.state with
  | uninitialized =>
      -- all before it have started, so its descriptor could be read
      have hsched : ∀ o ∈ pre, 4 ≤ o.state.rank := by
        intro o ho
        refine (PipeImpl.connection_scheduled hinv herr (by simp [ho])).mpr ?_
        have h1 := numbered_pre o hinv.queue.numbered ho
        have h2 : op.sequenceNumber + post.length + 1 = r.nextMessageBeingRead :=
          numbered_mid hinv.queue.numbered
        have h3 : o.sequenceNumber + (op :: post).length < r.nextMessageBeingRead := h1
        rw [List.length_cons] at h3
        omega
      have hreading : ReadState.readingPayloadsAndReceivingTensors
          ≤ lastState ReadState.finished pre :=
        lastState_of_forall (P := fun st : ReadState => 4 ≤ st.rank) (by decide) hsched
      exact absurd (by simp [Enabled, advanceReadOperation, hst, herr, hest, hreading]) hstuck
  | readingDescriptor =>
      have hdone : op.doneReadingDescriptor = false := by
        by_contra hdone
        refine hstuck ?_
        simp [Enabled, advanceReadOperation, hst, hask,
          show op.doneReadingDescriptor = true by simpa using hdone]
      rw [if_pos ⟨hst, hdone⟩] at hread
      obtain ⟨call, hcall, hkind⟩ := List.countP_pos_iff.mp (hread ▸ Nat.one_pos)
      cases call with
      | descriptor n =>
          obtain rfl := eq_of_beq hkind
          rw [← hseq]
          exact hcall
      | payload n i data length => exact Bool.noConfusion hkind
      | tensor channel n i buffer length => exact Bool.noConfusion hkind
      | descriptorReply n reply => exact Bool.noConfusion hkind
  | askingForAllocation => exact absurd hlow (by rw [hst]; decide)
  | askingForAllocationFirstInLine => exact absurd hlow (by rw [hst]; decide)
  | readingPayloadsAndReceivingTensors => exact absurd hlow (by rw [hst]; decide)
  | finished => exact absurd hlow (by rw [hst]; decide)

/-- If the front of the reads has been started, it waits for its payloads or its tensors. -/
theorem reads_receiving (h : ReadRest g (r, rops)) (herr : g.error = none)
    (hpos : 0 < readBelow 5 rops)
    (hstarted : r.nextReadCallbackToCall < r.messageBeingReadFromConnection) :
    ∃ c ∈ r.pending, c.isPayload r.nextReadCallbackToCall = true
      ∨ c.isTensor r.nextReadCallbackToCall = true := by
  have hinv : ReadInv g r rops := h.inv
  obtain ⟨pre, op, post, rfl, hlow, hprev, hstuck⟩ := reads_first h (by decide) hpos
  have hcursor := hinv.queue.cursor hprev hlow
  have hcb := hinv.cursors.readCallback
  have hseq : op.sequenceNumber = r.nextReadCallbackToCall := by omega
  have hprevFin : ReadState.finished ≤ lastState ReadState.finished pre := hprev
  have hloc := hinv.queue.locals op (by simp)
  have hrank : 4 ≤ op.state.rank :=
    (PipeImpl.connection_scheduled hinv herr (by simp)).mpr (by omega)
  have hst : op.state = .readingPayloadsAndReceivingTensors := by
    cases hs : op.state with
    | uninitialized => exact absurd hrank (by rw [hs]; decide)
    | readingDescriptor => exact absurd hrank (by rw [hs]; decide)
    | askingForAllocation => exact absurd hrank (by rw [hs]; decide)
    | askingForAllocationFirstInLine => exact absurd hrank (by rw [hs]; decide)
    | readingPayloadsAndReceivingTensors => rfl
    | finished => exact absurd hlow (by rw [hs]; decide)
  have hcount : 0 < op.numPayloadsBeingRead ∨ 0 < op.numTensorsBeingReceived := by
    by_contra hnot
    obtain ⟨h1, h2⟩ : op.numPayloadsBeingRead = 0 ∧ op.numTensorsBeingReceived = 0 := by omega
    exact hstuck (by simp [Enabled, advanceReadOperation, hst, h1, h2, hprevFin])
  rw [← hseq]
  rcases hcount with hpay | hten
  · rw [← hloc.payloadReads] at hpay
    obtain ⟨c, hc, hkind⟩ := List.countP_pos_iff.mp hpay
    exact ⟨c, hc, Or.inl hkind⟩
  · rw [← hloc.tensorRecvs] at hten
    obtain ⟨c, hc, hkind⟩ := List.countP_pos_iff.mp hten
    exact ⟨c, hc, Or.inr hkind⟩

end Stuck

-- ── What has been issued by then ─────────────────────────────────────────────

/-- The message a frame is of. -/
def FrameKind.message : FrameKind → Nat
  | .descriptor n => n
  | .payload n _ _ => n

/-- The place of a frame among those of its kind. -/
def FrameKind.index : FrameKind → Nat
  | .descriptor _ => 0
  | .payload _ payloadIdx _ => payloadIdx

/-- The frames of a message carry its number. -/
theorem frameKinds_message {n : Nat} {message : Message} :
    ∀ k ∈ frameKinds n message, k.message = n := by
  intro k hk
  rcases List.mem_cons.mp hk with rfl | hk
  · rfl
  · obtain ⟨p, -, rfl⟩ := List.mem_map.mp hk
    rfl

/-- No message has the same frame twice. -/
theorem frameKinds_nodup (n : Nat) (message : Message) : (frameKinds n message).Nodup := by
  refine List.nodup_cons.mpr ⟨?_, nodup_map_zipIdx FrameKind.index (fun _ => rfl)⟩
  intro hmem
  obtain ⟨p, -, hp⟩ := List.mem_map.mp hmem
  exact FrameKind.noConfusion hp

/-- The calls of a message carry its number. -/
theorem readCalls_message {g : Gate} {n : Nat} {message : Message} {allocation : Allocation} :
    ∀ c ∈ readCalls g n message allocation, c.message = n := by
  intro c hc
  rcases List.mem_cons.mp hc with rfl | hc
  · rfl
  · rcases List.mem_append.mp hc with hc | hc
    · rcases List.mem_append.mp hc with hc | hc
      · obtain ⟨p, -, rfl⟩ := List.mem_map.mp hc
        rfl
      · rw [replyWrites] at hc
        split at hc
        · obtain rfl := List.mem_singleton.mp hc
          rfl
        · exact (List.not_mem_nil hc).elim
    · obtain ⟨p, -, rfl⟩ := List.mem_map.mp hc
      rfl

section Issued

variable {g g' : Gate} {sent : List Message} {allocated : List Allocation}
  {Targets : Nat → List SentTensor → Prop} {w : WriteSide} {wops : List WriteOperation}
  {r : ReadSide} {rops : List ReadOperation} {n : Nat} {message : Message}
  {allocation : Allocation}

/-- The frames of a message that was started are written. -/
theorem written_frames (hw : WriteStream g sent Targets w wops) (herr : g.error = none)
    (hmsg : sent[n]? = some message) (hn : n + writeBelow 1 wops < sent.length)
    {k : FrameKind} (hk : k ∈ frameKinds n message) : k ∈ w.issued.filterMap WriteCall.frame := by
  obtain ⟨log, hpre, hissued, hlen⟩ := hw.frames
  have hlog : n < log.length := by
    have := hlen herr
    omega
  have hat : log[n]? = some message := by
    have hthere := getElem?_of_beginning hpre (List.getElem?_eq_getElem hlog)
    rw [List.getElem?_eq_getElem hlog]
    exact hthere.symm.trans hmsg
  rw [← startCalls_frames] at hk
  obtain ⟨c, hc, hframe⟩ := List.mem_filterMap.mp hk
  have hmem : c ∈ w.issued.filter (fun c => !c.isSend) := by
    rw [hissued]
    exact List.mem_flatMap.mpr ⟨(message, n), List.mem_zipIdx_iff_getElem?.mpr hat, hc⟩
  exact List.mem_filterMap.mpr ⟨c, (List.mem_filter.mp hmem).1, hframe⟩

/-- The tensors of a message whose tensors were sent. -/
theorem sent_transfers (hw : WriteStream g sent (KnownTargets sent allocated) w wops)
    (herr : g.error = none) (ha : Allocated sent allocated n message allocation)
    (hn : n + writeBelow 2 wops < sent.length) {t : Transfer}
    (ht : t ∈ (sendCalls g n message (resolvedTensors message allocation)).filterMap
      WriteCall.transfer) : t ∈ w.issued.filterMap WriteCall.transfer := by
  obtain ⟨log, hlog, hissued, hlen⟩ := hw.tensors
  have hlt : n < log.length := by
    have := hlen herr
    omega
  obtain ⟨hmsg, htargets⟩ := hlog n log[n] (List.getElem?_eq_getElem hlt)
  have hsame : log[n].1 = message := Option.some.inj (hmsg.symm.trans ha.1)
  rw [← htargets.resolved ha, ← hsame] at ht
  obtain ⟨c, hc, htransfer⟩ := List.mem_filterMap.mp ht
  have hmem : c ∈ w.issued.filter (fun c => c.isSend) := by
    rw [hissued]
    refine List.mem_flatMap.mpr ⟨(log[n], n), ?_, hc⟩
    exact List.mem_zipIdx_iff_getElem?.mpr (List.getElem?_eq_getElem hlt)
  exact List.mem_filterMap.mpr ⟨c, (List.mem_filter.mp hmem).1, htransfer⟩

/-- A send comes from a message, with targets known for it. -/
theorem send_block (hw : WriteStream g sent Targets w wops) {c : WriteCall}
    (hc : c ∈ w.issued) (hkind : c.isTensor n = true) :
    ∃ message tensors, sent[n]? = some message ∧ Targets n tensors
      ∧ c ∈ sendCalls g n message tensors := by
  obtain ⟨log, hlog, hissued, -⟩ := hw.tensors
  have hmem : c ∈ w.issued.filter (fun c => c.isSend) := by
    refine List.mem_filter.mpr ⟨hc, ?_⟩
    cases c with
    | tensor channel k i buffer length => rfl
    | descriptor k d => exact Bool.noConfusion hkind
    | payload k i data length => exact Bool.noConfusion hkind
    | descriptorReply k => exact Bool.noConfusion hkind
  rw [hissued] at hmem
  obtain ⟨p, hp, hblock⟩ := List.mem_flatMap.mp hmem
  have hnumber : p.2 = n := by
    obtain ⟨q, -, rfl⟩ := List.mem_map.mp hblock
    exact eq_of_beq hkind
  obtain ⟨hmsg, htargets⟩ := hlog p.2 p.1 (List.mem_zipIdx_iff_getElem?.mp hp)
  rw [hnumber] at hmsg htargets hblock
  exact ⟨p.1.1, p.1.2, hmsg, htargets, hblock⟩

/-- Everything is issued for a message that was started. -/
theorem started_reads (hr : ReadStream g' sent allocated r rops)
    (hn : n < r.messageBeingReadFromConnection) :
    ∃ message allocation, Allocated sent allocated n message allocation
      ∧ readCalls g' n message allocation ⊆ r.issued := by
  obtain ⟨log, hlog, hlen, hissued⟩ := hr.issued
  rw [← hlen] at hn
  have hat : log[n]? = some log[n] := List.getElem?_eq_getElem hn
  refine ⟨log[n].1, log[n].2, hlog n _ hat, ?_⟩
  intro c hc
  rw [hissued]
  refine List.mem_append_left _ (List.mem_flatMap.mpr ⟨(log[n], n), ?_, hc⟩)
  exact List.mem_zipIdx_iff_getElem?.mpr hat

/-- A read of a payload or a receive comes from a message and its allocation. -/
theorem read_block (hr : ReadStream g' sent allocated r rops) {c : ReadCall}
    (hc : c ∈ r.issued) (hkind : c.isPayload n = true ∨ c.isTensor n = true) :
    ∃ message allocation, Allocated sent allocated n message allocation
      ∧ c ∈ readCalls g' n message allocation := by
  obtain ⟨log, hlog, -, hissued⟩ := hr.issued
  have hmessage : c.message = n := hkind.elim isPayload_message isTensor_message
  rw [hissued] at hc
  rcases List.mem_append.mp hc with hblock | hhand
  · obtain ⟨p, hp, hblock⟩ := List.mem_flatMap.mp hblock
    have halloc := hlog p.2 p.1 (List.mem_zipIdx_iff_getElem?.mp hp)
    rw [(readCalls_message c hblock).symm.trans hmessage] at halloc hblock
    exact ⟨p.1.1, p.1.2, halloc, hblock⟩
  · rw [descriptorInHand] at hhand
    split at hhand
    · obtain rfl := List.mem_singleton.mp hhand
      exact hkind.elim Bool.noConfusion Bool.noConfusion
    · exact (List.not_mem_nil hhand).elim

-- ── No call is issued twice ──────────────────────────────────────────────────

/-- No frame is read twice. -/
theorem frames_nodup (hr : ReadStream g' sent allocated r rops) :
    (r.issued.filterMap ReadCall.frame).Nodup := by
  obtain ⟨log, -, hlen, hissued⟩ := read_kind (h := fun e n => frameKinds n e.1) hr
    (k := ReadCall.frame) (fun n e he => readCalls_frames he.2.2)
  rw [hissued, List.nodup_append]
  refine ⟨nodup_flatMap_zipIdx FrameKind.message
    (fun p _ => frameKinds_nodup _ _) (fun p _ k hk => frameKinds_message k hk), ?_, ?_⟩
  · rw [descriptorInHand]
    split
    · exact List.nodup_singleton _
    · exact List.nodup_nil
  · intro a ha b hb hab
    obtain ⟨p, hp, hk⟩ := List.mem_flatMap.mp ha
    have hlt := (List.getElem?_eq_some_iff.mp (List.mem_zipIdx_iff_getElem?.mp hp)).1
    have hnumber := frameKinds_message a hk
    rw [descriptorInHand] at hb
    split at hb
    · obtain rfl := List.mem_singleton.mp hb
      subst hab
      have hm : r.messageBeingReadFromConnection = p.2 := hnumber
      omega
    · exact (List.not_mem_nil hb).elim

/-- No reply is read twice. -/
theorem replyNumbers_nodup (hw : WriteStream g sent Targets w wops) :
    (w.issued.filterMap WriteCall.replyNumber).Nodup := by
  have hpre := written_kind (h := fun p => replyNumbers p.2 p.1) hw (k := WriteCall.replyNumber)
    (fun c hc => by cases c <;> first | rfl | exact Bool.noConfusion hc)
    (fun _ _ => startCalls_replies)
  have hblock : ∀ (n : Nat) (message : Message), (replyNumbers n message).Nodup
      ∧ ∀ k ∈ replyNumbers n message, k = n := by
    intro n message
    rw [replyNumbers]
    split
    · exact ⟨List.nodup_singleton _, fun k hk => List.mem_singleton.mp hk⟩
    · exact ⟨List.nodup_nil, fun k hk => (List.not_mem_nil hk).elim⟩
  exact hpre.sublist.nodup (nodup_flatMap_zipIdx id (fun p _ => (hblock _ _).1)
    (fun p _ k hk => (hblock _ _).2 k hk))

/-- The transfers of one message. -/
theorem sendCalls_nodup (g : Gate) (n : Nat) (message : Message) (tensors : List SentTensor) :
    ((sendCalls g n message tensors).filterMap WriteCall.transfer).Nodup
      ∧ ∀ t ∈ (sendCalls g n message tensors).filterMap WriteCall.transfer, t.message = n := by
  rw [sendCalls, tensorSends, filterMap_map_some (k := WriteCall.transfer)
    (h := sendTransfer g n) (fun _ => rfl)]
  refine ⟨nodup_map_zipIdx Transfer.tensorIdx (fun _ => rfl), ?_⟩
  intro t ht
  obtain ⟨p, -, rfl⟩ := List.mem_map.mp ht
  rfl

/-- No tensor is sent twice. -/
theorem sent_nodup (hw : WriteStream g sent Targets w wops) :
    (w.issued.filterMap WriteCall.transfer).Nodup := by
  obtain ⟨log, -, hissued, -⟩ := hw.tensors
  have hfilter : w.issued.filterMap WriteCall.transfer
      = (w.issued.filter (fun c => c.isSend)).filterMap WriteCall.transfer := by
    rw [List.filterMap_filter]
    refine congrArg (fun q => List.filterMap q w.issued) ?_
    funext c
    cases c <;> rfl
  rw [hfilter, hissued, List.filterMap_flatMap]
  exact nodup_flatMap_zipIdx Transfer.message
    (fun p _ => (sendCalls_nodup _ _ _ _).1) (fun p _ t ht => (sendCalls_nodup _ _ _ _).2 t ht)

/-- No tensor is received twice. -/
theorem received_nodup (hr : ReadStream g' sent allocated r rops)
    (htr : PipeImpl.Transposed g.channelForDevicePair g'.channelForDevicePair) :
    (r.issued.filterMap ReadCall.transfer).Nodup := by
  obtain ⟨log, -, -, hissued⟩ := read_kind hr (k := ReadCall.transfer)
    (h := fun e n => (sendCalls g n e.1 (resolvedTensors e.1 e.2)).filterMap WriteCall.transfer)
    (fun _ _ he => readCalls_transfers htr he.2.2)
  have hhand : (descriptorInHand r).filterMap ReadCall.transfer = [] := by
    rw [descriptorInHand]
    split <;> rfl
  rw [hissued, hhand, List.append_nil]
  exact nodup_flatMap_zipIdx Transfer.message
    (fun p _ => (sendCalls_nodup _ _ _ _).1) (fun p _ t ht => (sendCalls_nodup _ _ _ _).2 t ht)

end Issued

-- ── Nothing in flight ────────────────────────────────────────────────────────

namespace Pair

/-- Nothing is in flight: what one end has put on a connection and the other end waits for
    has come, writes that were issued have been reported, and a tensor that both ends have
    handed to a channel has gone through. -/
structure Quiet (s : Pair) : Prop where
  written : ∀ c ∈ s.writer.writes.1.pending, c.isFrame = false
  frames : s.framesTaken = min s.framesWritten.length s.framesRead.length
  replies : s.repliesTaken = min s.repliesWritten.length s.repliesRead.length
  tensors : ∀ (channel : String) (i : Nat) (send : WriteCall) (recv : ReadCall),
    (s.sends channel)[i]? = some send → (s.recvs channel)[i]? = some recv →
    send ∉ s.writer.writes.1.pending ∧ recv ∉ s.reader.reads.1.pending

/-- The pipe is up. -/
structure Working (p : PipeImpl) : Prop where
  error : p.error = none
  established : p.state = .established

/-- A pipe that works lets its operations advance. -/
theorem Working.gate {p : PipeImpl} (h : Working p) :
    p.gate.error = none ∧ p.gate.established = true := by
  refine ⟨h.error, ?_⟩
  show (p.state == .established) = true
  rw [h.established]
  rfl

section Stall

variable {m m' : UnorderedMap (Device × Device) String} {s : Pair}

/-- A frame that is still waited for has not been written. -/
theorem Quiet.frame_unwritten (hquiet : s.Quiet) (hinv : PairInv m m' s) (hbooks : Books s)
    (hr : Working s.reader) {c : ReadCall} (hc : c ∈ s.reader.reads.1.pending) {k : FrameKind}
    (hk : c.frame = some k) : k ∉ s.writer.writes.1.issued.filterMap WriteCall.frame := by
  intro hwritten
  have hframe : c.isFrame = true := by
    rw [readFrame_isSome, hk]
    rfl
  obtain ⟨i, hge, hi⟩ := (hbooks.frames hr.error).place hc
    (Option.guard_eq_some_iff.mpr ⟨rfl, hframe⟩)
  rw [List.filterMap_eq_filter] at hi
  have hkind := getElem?_filterMap readFrame_isSome s.reader.reads.1.issued i c hi
  rw [hk] at hkind
  have hreach := Agree.reaches (Agree.symm (frames_agree hinv.writing.2.2 hinv.reading.2.2))
    (frames_nodup hinv.reading.2.2) hkind hwritten
  have hlen : (s.writer.writes.1.issued.filterMap WriteCall.frame).length
      = s.framesWritten.length := by
    rw [List.length_filterMap_eq_countP, framesWritten, ← List.countP_eq_length_filter]
    exact List.countP_congr (fun c _ => by rw [writeFrame_isSome])
  have hhere : i < s.framesRead.length := (List.getElem?_eq_some_iff.mp hi).1
  have htaken := hquiet.frames
  omega

/-- A message whose reply is still waited for has not been started by the reader. -/
theorem Quiet.reply_unwritten (hquiet : s.Quiet) (hinv : PairInv m m' s) (hbooks : Books s)
    (hw : Working s.writer) {n : Nat} (hc : .descriptorReply n ∈ s.writer.writes.1.pending) :
    s.reader.reads.1.messageBeingReadFromConnection ≤ n := by
  by_contra hlt
  have htally := hbooks.replies hw.error
  obtain ⟨i, hge, hi⟩ := htally.place hc rfl
  obtain ⟨message, hmsg, hmissing⟩ := written_from hinv.writing.2.2 (htally.subset hc)
  obtain ⟨message', allocation, halloc, hissued⟩ := started_reads hinv.reading.2.2
    (Nat.not_le.mp hlt)
  have hreply : n ∈ (s.reader.reads.1.issued.filterMap ReadCall.reply).map Prod.fst := by
    obtain rfl := Option.some.inj (hmsg.symm.trans halloc.1)
    have hblock : (n, makeDescriptorReplyForMessage (makeDescriptorForMessage message) allocation)
        ∈ (readCalls s.reader.gate n message allocation).filterMap ReadCall.reply := by
      rw [readCalls_replies, replyNumbers, if_pos hmissing]
      exact List.mem_singleton.mpr rfl
    obtain ⟨call, hcall, heq⟩ := List.mem_filterMap.mp hblock
    exact List.mem_map.mpr ⟨_, List.mem_filterMap.mpr ⟨call, hissued hcall, heq⟩, rfl⟩
  have hreach := Agree.reaches (replies_agree hinv.writing.2.2 hinv.reading.2.2)
    (replyNumbers_nodup hinv.writing.2.2) hi hreply
  rw [List.length_map] at hreach
  have hwritten : i < s.repliesWritten.length := hreach
  have hread : i < s.repliesRead.length := (List.getElem?_eq_some_iff.mp hi).1
  have htaken := hquiet.replies
  omega

/-- A tensor that is still waited for at one end was not handed over at the other. -/
theorem Quiet.recv_unsent (hquiet : s.Quiet) (hinv : PairInv m m' s) (hbooks : Books s)
    (htr : PipeImpl.Transposed m m') (hr : Working s.reader) {c : ReadCall}
    (hc : c ∈ s.reader.reads.1.pending) {t : Transfer} (ht : c.transfer = some t) :
    t ∉ s.writer.writes.1.issued.filterMap WriteCall.transfer := by
  intro hsent
  obtain ⟨hwrites, hreads⟩ := transferOn_filter t.channel s.writer.writes.1.issued
    s.reader.reads.1.issued
  have hmaps := PairInv.maps hinv htr
  have hon : c.transferOn t.channel = some t := by
    rw [ReadCall.transferOn, ht]
    exact Option.filter_eq_some_iff.mpr ⟨rfl, beq_self_eq_true _⟩
  have hmem : c ∈ s.recvs t.channel := by
    refine List.mem_filter.mpr ⟨(hbooks.frames hr.error).subset hc, ?_⟩
    rw [hon]
    rfl
  obtain ⟨i, hi⟩ := List.getElem?_of_mem hmem
  have hkind := getElem?_filterMap (fun _ => rfl) s.reader.reads.1.issued i c hi
  rw [hon] at hkind
  have hreach := Agree.reaches
    (Agree.symm (channel_agree hinv.writing.2.2 hinv.reading.2.2 hmaps t.channel))
    (by rw [hreads]; exact (received_nodup hinv.reading.2.2 hmaps).filter _) hkind
    (by rw [hwrites]; exact List.mem_filter.mpr ⟨hsent, beq_self_eq_true _⟩)
  rw [List.length_filterMap_eq_countP, List.countP_eq_length_filter] at hreach
  exact (hquiet.tensors t.channel i _ c (List.getElem?_eq_getElem hreach) hi).2 hc

/-- In a quiet state a tensor whose sending is pending has not been received. -/
theorem Quiet.send_unreceived (hquiet : s.Quiet) (hinv : PairInv m m' s) (hbooks : Books s)
    (htr : PipeImpl.Transposed m m') (hw : Working s.writer) {c : WriteCall}
    (hc : c ∈ s.writer.writes.1.pending) {t : Transfer} (ht : c.transfer = some t) :
    t ∉ s.reader.reads.1.issued.filterMap ReadCall.transfer := by
  intro hreceived
  obtain ⟨hwrites, hreads⟩ := transferOn_filter t.channel s.writer.writes.1.issued
    s.reader.reads.1.issued
  have hmaps := PairInv.maps hinv htr
  have hon : c.transferOn t.channel = some t := by
    rw [WriteCall.transferOn, ht]
    exact Option.filter_eq_some_iff.mpr ⟨rfl, beq_self_eq_true _⟩
  have hmem : c ∈ s.sends t.channel := by
    refine List.mem_filter.mpr ⟨(hbooks.replies hw.error).subset hc, ?_⟩
    rw [hon]
    rfl
  obtain ⟨i, hi⟩ := List.getElem?_of_mem hmem
  have hkind := getElem?_filterMap (fun _ => rfl) s.writer.writes.1.issued i c hi
  rw [hon] at hkind
  have hreach := Agree.reaches (channel_agree hinv.writing.2.2 hinv.reading.2.2 hmaps t.channel)
    (by rw [hwrites]; exact (sent_nodup hinv.writing.2.2).filter _) hkind
    (by rw [hreads]; exact List.mem_filter.mpr ⟨hreceived, beq_self_eq_true _⟩)
  rw [List.length_filterMap_eq_countP, List.countP_eq_length_filter] at hreach
  exact (hquiet.tensors t.channel i c _ hi (List.getElem?_eq_getElem hreach)).1 hc

/-- The writer keeps up with the reader: what the reader has reached is started, and what it
    has passed is sent. -/
theorem Quiet.writer_keeps_up (hquiet : s.Quiet) (hinv : PairInv m m' s) (hbooks : Books s)
    (hw : Working s.writer) {n : Nat} (hn : n < s.sent.length) :
    (n ≤ s.reader.reads.1.messageBeingReadFromConnection →
        n + writeBelow 1 s.writer.writes.2 < s.sent.length)
      ∧ (n < s.reader.reads.1.messageBeingReadFromConnection →
        n + writeBelow 2 s.writer.writes.2 < s.sent.length) := by
  obtain ⟨herr, hest⟩ := hw.gate
  have hlen := hinv.writing.2.2.length
  have hmono : writeBelow 1 s.writer.writes.2 ≤ writeBelow 2 s.writer.writes.2 := by
    refine List.countP_mono_left ?_
    intro op _ hlow
    have h1 : op.state.rank < 1 := of_decide_eq_true hlow
    exact decide_eq_true (Nat.lt_succ_of_lt h1)
  have hasking : 0 < writeBelow 2 s.writer.writes.2 → ∃ b,
      s.reader.reads.1.messageBeingReadFromConnection ≤ b
        ∧ b + writeBelow 2 s.writer.writes.2 = s.sent.length
        ∧ b + writeBelow 1 s.writer.writes.2 < s.sent.length := by
    intro hpos
    have hrest : WriteRest s.writer.gate (s.writer.writes.1, s.writer.writes.2) :=
      hbooks.writer.writes
    obtain ⟨b, hb, h2, h1⟩ := writes_asking hrest herr hest hpos
    exact ⟨b, hquiet.reply_unwritten hinv hbooks hw hb, by omega, by omega⟩
  constructor
  · intro hreached
    by_contra hnot
    obtain ⟨b, hb, h2, h1⟩ := hasking (by omega)
    omega
  · intro hpassed
    by_contra hnot
    obtain ⟨b, hb, h2, h1⟩ := hasking (by omega)
    omega

/-- What is sent is received: every read that was given an allocation has called back. -/
theorem Quiet.reads_finished (hquiet : s.Quiet) (hinv : PairInv m m' s) (hbooks : Books s)
    (htr : PipeImpl.Transposed m m') (hw : Working s.writer) (hr : Working s.reader) :
    s.allocated.length ≤ s.reader.reads.1.nextReadCallbackToCall := by
  by_contra hlt
  obtain ⟨herr, -⟩ := hr.gate
  have hrest : ReadRest s.reader.gate (s.reader.reads.1, s.reader.reads.2) := hbooks.reader.reads
  have hcur : ReadCursors s.reader.gate s.reader.reads.1 s.reader.reads.2 := hrest.inv.cursors
  have hmaps := PairInv.maps hinv htr
  have hstarted := reads_started hrest herr
  have halloc := hinv.reading.2.2.allocations
  have hcb := hcur.readCallback
  have hcon := hcur.connection herr
  obtain ⟨c, hc, hkind⟩ := reads_receiving hrest herr (by omega) (by omega)
  obtain ⟨message, allocation, ha, hblock⟩ := read_block hinv.reading.2.2
    ((hbooks.frames hr.error).subset hc) hkind
  have hsent : s.reader.reads.1.nextReadCallbackToCall < s.sent.length :=
    (List.getElem?_eq_some_iff.mp ha.1).1
  obtain ⟨hreach, hpass⟩ := hquiet.writer_keeps_up hinv hbooks hw hsent
  rcases hkind with hpay | hten
  · cases c with
    | payload n i data length =>
        refine hquiet.frame_unwritten hinv hbooks hr hc rfl (written_frames hinv.writing.2.2
          hw.error ha.1 (hreach (by omega)) ?_)
        rw [← readCalls_frames ha.2.2]
        exact List.mem_filterMap.mpr ⟨_, hblock, rfl⟩
    | descriptor n => exact Bool.noConfusion hpay
    | tensor channel n i buffer length => exact Bool.noConfusion hpay
    | descriptorReply n reply => exact Bool.noConfusion hpay
  · cases c with
    | tensor channel n i buffer length =>
        refine hquiet.recv_unsent hinv hbooks htr hr hc rfl (sent_transfers hinv.writing.2.2
          hw.error ha (hpass (by omega)) ?_)
        rw [← readCalls_transfers hmaps ha.2.2]
        exact List.mem_filterMap.mpr ⟨_, hblock, rfl⟩
    | descriptor n => exact Bool.noConfusion hten
    | payload n i data length => exact Bool.noConfusion hten
    | descriptorReply n reply => exact Bool.noConfusion hten

/-- What is received is sent: every write whose message was given an allocation has called
    back. -/
theorem Quiet.writes_finished (hquiet : s.Quiet) (hinv : PairInv m m' s) (hbooks : Books s)
    (htr : PipeImpl.Transposed m m') (hw : Working s.writer) (hr : Working s.reader) :
    s.allocated.length ≤ s.writer.writes.1.nextWriteCallbackToCall := by
  by_contra hlt
  have hrest : WriteRest s.writer.gate (s.writer.writes.1, s.writer.writes.2) :=
    hbooks.writer.writes
  have hmaps := PairInv.maps hinv htr
  have hreads : ReadRest s.reader.gate (s.reader.reads.1, s.reader.reads.2) := hbooks.reader.reads
  have hstarted := reads_started hreads hr.gate.1
  have halloc := hinv.reading.2.2.allocations
  have hlen := hinv.writing.2.2.length
  have hinvW : WriteInv s.writer.gate s.writer.writes.1 s.writer.writes.2 := hrest.inv
  have hcb := hinvW.cursor
  obtain ⟨message, allocation, ha, hissued⟩ := started_reads hinv.reading.2.2
    (show s.writer.writes.1.nextWriteCallbackToCall
      < s.reader.reads.1.messageBeingReadFromConnection by omega)
  have hsent : s.writer.writes.1.nextWriteCallbackToCall < s.sent.length :=
    (List.getElem?_eq_some_iff.mp ha.1).1
  have hpass := (hquiet.writer_keeps_up hinv hbooks hw hsent).2 (by omega)
  obtain ⟨c, hc, hkind⟩ := writes_sending hrest (by omega) (by omega)
  rcases hkind with hpay | hten
  · cases c with
    | payload n i data length => exact Bool.noConfusion (hquiet.written _ hc)
    | descriptor n d => exact Bool.noConfusion hpay
    | tensor channel n i buffer length => exact Bool.noConfusion hpay
    | descriptorReply n => exact Bool.noConfusion hpay
  · obtain ⟨message', tensors, hmessage, htargets, hblock⟩ := send_block hinv.writing.2.2
      ((hbooks.replies hw.error).subset hc) hten
    cases c with
    | tensor channel n i buffer length =>
        obtain rfl : n = s.writer.writes.1.nextWriteCallbackToCall := eq_of_beq hten
        rw [htargets.resolved ha] at hblock
        obtain rfl : message' = message := Option.some.inj (hmessage.symm.trans ha.1)
        have hrecv := (List.mem_filterMap (f := WriteCall.transfer)).mpr ⟨_, hblock, rfl⟩
        rw [← readCalls_transfers hmaps ha.2.2] at hrecv
        obtain ⟨recv, hmem, htransfer⟩ := List.mem_filterMap.mp hrecv
        exact hquiet.send_unreceived hinv hbooks htr hw hc rfl
          (List.mem_filterMap.mpr ⟨recv, hissued hmem, htransfer⟩)
    | descriptor n d => exact Bool.noConfusion hten
    | payload n i data length => exact Bool.noConfusion hten
    | descriptorReply n => exact Bool.noConfusion hten

/-- Descriptors come as far as allocations were given. -/
theorem Quiet.described (hquiet : s.Quiet) (hinv : PairInv m m' s) (hbooks : Books s)
    (hw : Working s.writer) (hr : Working s.reader) {n : Nat} (hsent : n < s.sent.length)
    (hasked : n < s.reader.reads.1.nextMessageBeingRead) (halloc : n ≤ s.allocated.length) :
    n < s.reader.reads.1.nextReadDescriptorCallbackToCall := by
  by_contra hlt
  obtain ⟨herr, hest⟩ := hr.gate
  have hrest : ReadRest s.reader.gate (s.reader.reads.1, s.reader.reads.2) := hbooks.reader.reads
  have hcur : ReadCursors s.reader.gate s.reader.reads.1 s.reader.reads.2 := hrest.inv.cursors
  have hstarted := reads_started hrest herr
  have hgiven := hinv.reading.2.2.allocations
  have hcb := hcur.descriptorCallback
  have hc := reads_describing hrest herr hest (by omega) (by omega)
  have hfirst : s.reader.reads.1.nextReadDescriptorCallbackToCall < s.sent.length := by omega
  have hreach := (hquiet.writer_keeps_up hinv hbooks hw hfirst).1 (by omega)
  refine hquiet.frame_unwritten hinv hbooks hr hc rfl (written_frames hinv.writing.2.2 hw.error
    (List.getElem?_eq_getElem hfirst) hreach ?_)
  exact List.mem_cons_self

end Stall

/-- One message is written, read, and received to the end. -/
def sampleDelivery : List PairEvent :=
  [.establish .writer, .establish .reader, .task .writer (.write sampleLetter),
    .task .reader .readDescriptor,
    .task .reader (.readDone (.descriptor 0) none (makeDescriptorForMessage sampleLetter)),
    .task .reader (.read sampleMailbox),
    .task .writer (.writeDone (.descriptorReply 0) none ⟨[⟨"cuda", 0⟩]⟩),
    .task .writer (.writeDone (.descriptor 0 (makeDescriptorForMessage sampleLetter)) none ⟨[]⟩),
    .task .writer (.writeDone (.payload 0 0 4096 16) none ⟨[]⟩),
    .task .writer (.writeDone (.tensor "basic" 0 0 ⟨8192, ⟨"cpu", 0⟩⟩ 64) none ⟨[]⟩),
    .task .reader (.readDone (.payload 0 0 12288 16) none {}),
    .task .reader (.readDone (.tensor "basic" 0 0 ⟨16384, ⟨"cuda", 0⟩⟩ 64) none {}),
    .task .reader (.readDone (.descriptorReply 0 ⟨[⟨"cuda", 0⟩]⟩) none {})]

section Progress

variable {w r : PipeImpl} {s : Pair} {events : List PairEvent}

/-- **Nothing stalls.**  Two pipes that are up, with nothing in flight between them, wait for
    their users only.  A message that was written has had its descriptor callback if one was
    asked for and the messages before it were given their allocations; and if it was given an
    allocation itself, it is written and read, on both sides to the callback. -/
theorem nothing_stalls (hw : Unused w) (hr : Unused r)
    (htr : PipeImpl.Transposed w.channelForDevicePair r.channelForDevicePair)
    (hrun : (Pair.start w r).run events = some s) (hwriter : Working s.writer)
    (hreader : Working s.reader) (hquiet : s.Quiet) :
    (∀ n < s.sent.length, n < s.reader.reads.1.nextMessageBeingRead → n ≤ s.allocated.length →
      n ∈ s.reader.reads.1.called.filterMap ReadCallback.descriptorNumber)
    ∧ ∀ n < s.allocated.length, n ∈ s.reader.reads.1.called.filterMap ReadCallback.readNumber
      ∧ n ∈ s.writer.writes.1.called.map WriteCallback.number := by
  have hinv := run_inv (start_inv hw hr) hrun
  have hbooks := run_books (start_books hw hr) hrun
  have hreads : ReadLog s.reader.reads.1 := hbooks.reader.reads.inv.log
  have hwrites : WriteLog s.writer.writes.1 := hbooks.writer.writes.inv.log
  rw [hreads.descriptorsCalled, hreads.readsCalled, hwrites.writesCalled]
  constructor
  · intro n hsent hasked halloc
    exact List.mem_range.mpr (hquiet.described hinv hbooks hwriter hreader hsent hasked halloc)
  · intro n hn
    have h1 := hquiet.reads_finished hinv hbooks htr hwriter hreader
    have h2 := hquiet.writes_finished hinv hbooks htr hwriter hreader
    exact ⟨List.mem_range.mpr (by omega), List.mem_range.mpr (by omega)⟩

/-- The message of the sample run is delivered. -/
theorem nothing_stalls_delivery : ∃ s, samplePair.run sampleDelivery = some s
    ∧ 0 ∈ s.reader.reads.1.called.filterMap ReadCallback.readNumber
    ∧ 0 ∈ s.writer.writes.1.called.map WriteCallback.number := by
  have hquiet : ∀ s, samplePair.run sampleDelivery = some s → Quiet s := by
    intro s hs
    obtain rfl := Option.some.inj hs
    exact ⟨fun c hc => (List.not_mem_nil hc).elim, rfl, rfl,
      fun _ _ _ _ _ _ => ⟨List.not_mem_nil, List.not_mem_nil⟩⟩
  exact ⟨_, rfl, (nothing_stalls ⟨rfl, rfl⟩ ⟨rfl, rfl⟩ (samplePipe_transposed _ _)
    (show samplePair.run sampleDelivery = some _ from rfl) ⟨rfl, rfl⟩ ⟨rfl, rfl⟩
    (hquiet _ rfl)).2 0 Nat.one_pos⟩

end Progress

end Pair

end TpPipe
