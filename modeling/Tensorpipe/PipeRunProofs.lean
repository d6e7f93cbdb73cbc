import Tensorpipe.PipeInvariantProofs

/-! # Whole runs of a pipe

    What the invariant says of every run, in the words of the pipe's users:

    * `buffers_not_released_in_use`: no operation is forgotten and no buffer is
      handed back while a lower-level operation still uses it;
    * `callbacks_once_in_order`: callbacks come once and in order, and after an
      error, once everything below has reported, none is missing;
    * `pipe_queue_invariant`: the two deques and the cursors over them;
    * `pipe_never_stalls`: an established pipe with nothing outstanding waits for
      its user and for nothing else.

    The first two also speak of the state that a throwing task leaves. -/

namespace TpPipe

open TpStateMachine TpMessage TpSelect

namespace PipeImpl

-- ── A short run, for the witnesses ───────────────────────────────────────────

/-- A context with one transport and no channel. -/
def sampleContext : ContextImpl where
  transportsByPriority :=
    ⟨[⟨100, "uv", ⟨"host", fun remote => remote == "host", true⟩⟩], by simp, by simp⟩
  channelsByPriority := Ordered.empty

/-- The answer that keeps the transport and asks for the reply connection. -/
def sampleAnswer : BrochureAnswer where
  transport := "uv"
  address := "127.0.0.1:1234"
  transportRegistrationIds := (∅ : UnorderedMap ConnectionId Nat).insert .descriptorReply 7
  transportDomainDescriptor := "host"

/-- A message of one payload. -/
def sampleMessage : Message where
  metadata := "m"
  payloads := [⟨4096, 16, ""⟩]
  tensors := []

/-- A client once the answer is in. -/
def sampleEstablished : PipeImpl :=
  (((client "uv" 0).initFromLoop sampleContext false).run
    (.handshakeDone 2 none sampleContext {} sampleAnswer)).state

/-- The same client, writing a message and reading a descriptor. -/
def sampleBusy : PipeImpl :=
  ((sampleEstablished.run (.write sampleMessage)).state.run .readDescriptor).state

theorem sampleEstablished_reachable {C : Task → PipeImpl → Prop}
    (hC : C (.handshakeDone 2 none sampleContext {} sampleAnswer)
      ((client "uv" 0).initFromLoop sampleContext false)) :
    Reachable C sampleEstablished :=
  .step (.handshakeDone 2 none sampleContext {} sampleAnswer)
    (.client "uv" 0 sampleContext false) trivial hC rfl

theorem sampleBusy_reachable : Reachable (fun _ _ => True) sampleBusy :=
  .step .readDescriptor
    (.step (.write sampleMessage) (sampleEstablished_reachable trivial) trivial trivial rfl)
    trivial trivial rfl

/-- A task that can come, and that the user may ask for. -/
instance (task : Task) (p : PipeImpl) : Decidable (Allowed task p ∧ Legal task p) :=
  match task with
  | .readDone call _ _ => inferInstanceAs (Decidable (call ∈ p.reads.1.pending ∧ True))
  | .writeDone call _ _ => inferInstanceAs (Decidable (call ∈ p.writes.1.pending ∧ True))
  | .read allocation => inferInstanceAs (Decidable (True ∧ ∃ op ∈ p.reads.2,
      p.reads.1.nextMessageGettingAllocation = some op.sequenceNumber
        ∧ checkAllocationCompatibility op.descriptor allocation = true))
  | .readDescriptor | .write _ | .close | .handshakeDone _ _ _ _ _ | .accepted _ _ _ _ _ =>
      .isTrue ⟨trivial, trivial⟩

/-- Tasks one after the other, if they can come and all return. -/
def runAll : List Task → PipeImpl → Option PipeImpl
  | [], p => some p
  | task :: rest, p =>
      if Allowed task p ∧ Legal task p then
        match p.run task with
        | .returns q => runAll rest q
        | .throws _ => none
      else none

theorem Reachable.runAll {C : Task → PipeImpl → Prop} (hC : ∀ task p, Legal task p → C task p)
    {tasks : List Task} : ∀ {p q : PipeImpl}, Reachable C p → runAll tasks p = some q →
      Reachable C q := by
  induction tasks with
  | nil =>
      intro p q hp hrun
      obtain rfl := Option.some.inj hrun
      exact hp
  | cons task rest ih =>
      intro p q hp hrun
      rw [PipeImpl.runAll] at hrun
      split at hrun
      · next hmay =>
          cases hreturns : p.run task with
          | returns p' =>
              rw [hreturns] at hrun
              exact ih (hp.step task hmay.1 (hC _ _ hmay.2) hreturns) hrun
          | throws p' =>
              rw [hreturns] at hrun
              exact absurd hrun (by simp)
      · exact absurd hrun (by simp)

/-- What the peer writes, and where it is to be read. -/
def sampleDescriptor : Descriptor := makeDescriptorForMessage sampleMessage

/-- Memory for that payload. -/
def sampleAllocation : Allocation where
  payloads := [⟨8192⟩]

/-- The same client, with two messages being written and three being read: of the first the
    payload is under way, the second waits for its allocation, and the third for the
    second. -/
def sampleMidway : PipeImpl :=
  (runAll [.write sampleMessage, .write sampleMessage, .readDescriptor, .readDescriptor,
    .readDescriptor, .readDone (.descriptor 0) none sampleDescriptor, .read sampleAllocation,
    .readDone (.descriptor 1) none sampleDescriptor] sampleEstablished).get (by decide +kernel)

theorem sampleMidway_reachable {C : Task → PipeImpl → Prop}
    (hC : ∀ task p, Legal task p → C task p) : Reachable C sampleMidway :=
  (sampleEstablished_reachable (hC _ _ trivial)).runAll hC (Option.some_get _).symm

-- ── No buffer is handed back while in use ────────────────────────────────────

/-- **No operation is forgotten, no buffer is released in use.**  In every state of
    every run, the states left by throwing tasks included, each outstanding
    operation whose callback captured a read or write operation refers to one that
    is still stored and not finished; and whenever a read or write callback was
    invoked, no payload or tensor operation of its message was outstanding. -/
theorem buffers_not_released_in_use {C : Task → PipeImpl → Prop} {p : PipeImpl}
    (hp : Visited C p) :
    (∀ call ∈ p.reads.1.pending, ∀ n, call.captures = some n →
      ∃ op ∈ p.reads.2, op.sequenceNumber = n ∧ op.state ≠ .finished)
    ∧ (∀ call ∈ p.writes.1.pending, ∀ n, call.captures = some n →
      ∃ op ∈ p.writes.2, op.sequenceNumber = n ∧ op.state ≠ .finished)
    ∧ (∀ n error outstanding, .read n error outstanding ∈ p.reads.1.called →
      ∀ call ∈ outstanding, call.isPayload n = false ∧ call.isTensor n = false)
    ∧ (∀ callback ∈ p.writes.1.called, ∀ call ∈ callback.outstanding,
      call.isPayload callback.number = false ∧ call.isTensor callback.number = false) := by
  have hsafe := visited_safe hp
  exact ⟨hsafe.reads.captured, hsafe.writes.captured, hsafe.reads.log.released,
    hsafe.writes.log.released⟩

/-- The busy client has a payload write and a descriptor read outstanding, and both
    their operations are there. -/
theorem buffers_not_released_in_use_busy :
    sampleBusy.writes.1.pending.length = 2 ∧ sampleBusy.reads.1.pending = [.descriptor 0]
    ∧ (∀ call ∈ sampleBusy.writes.1.pending, ∀ n, call.captures = some n →
      ∃ op ∈ sampleBusy.writes.2, op.sequenceNumber = n ∧ op.state ≠ .finished) :=
  ⟨rfl, rfl, (buffers_not_released_in_use (Or.inl sampleBusy_reachable)).2.1⟩

-- ── Callbacks ────────────────────────────────────────────────────────────────

/-- The callbacks with these numbers were invoked once each, in sequence order. -/
def OnceInOrder (numbers : List Nat) : Prop :=
  numbers.Nodup ∧ ∃ k, numbers = List.range k

theorem onceInOrder_range {numbers : List Nat} {k : Nat} (h : numbers = List.range k) :
    OnceInOrder numbers := by
  refine ⟨?_, k, h⟩
  rw [h]
  exact List.nodup_range

/-- With an error and nothing outstanding, the write queue is empty: its front would
    have a transition to the end. -/
theorem writes_flushed {g : Gate} {x : Writes} (h : WriteRest g x) (herr : g.error ≠ none)
    (hpending : x.1.pending = []) : x.2 = [] := by
  obtain ⟨w, ops⟩ := x
  cases ops with
  | nil => rfl
  | cons op rest =>
      exfalso
      have hloc := h.inv.queue.locals op (by simp)
      have hstuck := h.stable.1
      obtain ⟨e, he⟩ := Option.ne_none_iff_exists'.mp herr
      have hr := hloc.replyRead
      have hp := hloc.payloadWrites
      have ht := hloc.tensorSends
      rw [hpending, List.countP_nil] at hr hp ht
      cases hst : op.state with
      | uninitialized =>
          exact hstuck (by simp [Enabled, advanceWriteOperation, hst, he])
      | writingPayloadsAndReadingTargetDevices =>
          have hdone : op.doneReadingDescriptorReply = true := by
            by_contra hno
            rw [if_pos ⟨hst, by simpa using hno⟩] at hr
            exact absurd hr (by simp)
          exact hstuck (by simp [Enabled, advanceWriteOperation, hst, he, ← hp, hdone])
      | writingPayloadsAndSendingTensors =>
          exact hstuck (by simp [Enabled, advanceWriteOperation, hst, ← hp, ← ht])
      | finished => exact absurd hst (h.unfinished op (by simp))

/-- With an error and nothing outstanding, every readDescriptor callback is due, each
    operation right after the one before it. -/
theorem reads_described {g : Gate} {ops : List ReadOperation} {p : ReadState}
    (hst : Chained (fun p op => ¬ Enabled (advanceReadOperation g) p op) p ops)
    (hloc : ∀ op ∈ ops, ReadLocal [] op) (herr : g.error ≠ none) (hp : 2 ≤ p.rank) :
    ∀ op ∈ ops, 2 ≤ op.state.rank := by
  obtain ⟨e, he⟩ := Option.ne_none_iff_exists'.mp herr
  induction ops generalizing p with
  | nil => exact fun _ h => absurd h (by simp)
  | cons op rest ih =>
      have hask : ReadState.askingForAllocation ≤ p := hp
      have hop : 2 ≤ op.state.rank := by
        have hd := (hloc op (by simp)).descriptorRead
        rw [List.countP_nil] at hd
        cases hstate : op.state with
        | uninitialized =>
            exact absurd (show Enabled (advanceReadOperation g) p op by
              simp [Enabled, advanceReadOperation, hstate, he, hask]) hst.1
        | readingDescriptor =>
            have hdone : op.doneReadingDescriptor = true := by
              by_contra hno
              rw [if_pos ⟨hstate, by simpa using hno⟩] at hd
              exact absurd hd (by simp)
            exact absurd (show Enabled (advanceReadOperation g) p op by
              simp [Enabled, advanceReadOperation, hstate, he, hask, hdone]) hst.1
        | askingForAllocation => decide
        | askingForAllocationFirstInLine => decide
        | readingPayloadsAndReceivingTensors => decide
        | finished => decide
      intro o ho
      rcases List.mem_cons.mp ho with rfl | hmem
      · exact hop
      · exact ih hst.2 (fun o' ho' => hloc o' (by simp [ho'])) hop o hmem

/-- With an error and nothing outstanding, no operation left in the queue has had its
    read call: the front would have a transition to the end, and the others are
    not first in line. -/
theorem reads_unallocated {g : Gate} {x : Reads} (h : ReadRest g x) (herr : g.error ≠ none)
    (hpending : x.1.pending = []) : ∀ op ∈ x.2, op.doneGettingAllocation = false := by
  obtain ⟨r, ops⟩ := x
  obtain ⟨e, he⟩ := Option.ne_none_iff_exists'.mp herr
  cases ops with
  | nil => exact fun _ hop => nomatch hop
  | cons front rest =>
      have hinv : ReadInv g r (front :: rest) := h.inv
      have hloc := hinv.queue.locals front (by simp)
      have hp := hloc.payloadReads
      have ht := hloc.tensorRecvs
      rw [show r.pending = [] from hpending, List.countP_nil] at hp ht
      have hstuck := h.stable.1
      have hfront : front.doneGettingAllocation = false ∧ front.state.rank ≤ 3 := by
        cases hstate : front.state with
        | uninitialized => exact ⟨hloc.unallocated (by rw [hstate]; decide), by decide⟩
        | readingDescriptor => exact ⟨hloc.unallocated (by rw [hstate]; decide), by decide⟩
        | askingForAllocation =>
            exact ⟨hloc.unallocated (by rw [hstate]; decide), by decide⟩
        | askingForAllocationFirstInLine =>
            refine ⟨?_, by decide⟩
            by_contra hdone
            refine hstuck ?_
            simp [Enabled, advanceReadOperation, hstate, he,
              show front.doneGettingAllocation = true by simpa using hdone]
        | readingPayloadsAndReceivingTensors =>
            refine absurd ?_ hstuck
            simp [Enabled, advanceReadOperation, hstate, ← hp, ← ht]
        | finished => exact absurd hstate (h.unfinished front (by simp))
      intro op hop
      rcases List.mem_cons.mp hop with rfl | hmem
      · exact hfront.1
      · obtain ⟨q, hq, hqop⟩ := chained_post_mem (fun _ _ hf => ReadFollows.le hf) rest _
          hinv.queue.chained.2 op hmem
        refine (hinv.queue.locals op hop).unallocated ?_
        by_contra hge
        have h4 := hqop.inLine (by omega)
        have h3 : q.rank ≤ front.state.rank := hq
        omega

/-- **Callbacks once, in order, and none lost.**  In every state of every run the
    write callbacks, the readDescriptor callbacks and the read callbacks have each
    been invoked at most once and in the order 0, 1, 2, …  Between two tasks, with
    the error set and nothing outstanding below, no write is left, every
    readDescriptor call has had its callback, and so has every read call that was
    accepted. -/
theorem callbacks_once_in_order {C : Task → PipeImpl → Prop} {p : PipeImpl}
    (hp : Visited C p) :
    OnceInOrder (p.writes.1.called.map WriteCallback.number)
    ∧ OnceInOrder (p.reads.1.called.filterMap ReadCallback.descriptorNumber)
    ∧ OnceInOrder (p.reads.1.called.filterMap ReadCallback.readNumber)
    ∧ (Reachable C p → p.error ≠ none → p.reads.1.pending = [] → p.writes.1.pending = [] →
      p.writes.2 = []
      ∧ (∀ n < p.reads.1.nextMessageBeingRead,
          n ∈ p.reads.1.called.filterMap ReadCallback.descriptorNumber)
      ∧ ∀ n ∈ p.reads.1.accepted,
          n ∈ p.reads.1.called.filterMap ReadCallback.readNumber) := by
  have hsafe := visited_safe hp
  refine ⟨onceInOrder_range hsafe.writes.log.writesCalled,
    onceInOrder_range hsafe.reads.log.descriptorsCalled,
    onceInOrder_range hsafe.reads.log.readsCalled, ?_⟩
  intro hreach herr hrp hwp
  have hinv := reachable_inv hreach
  have hr := hinv.reads.inv
  refine ⟨writes_flushed hinv.writes herr hwp, ?_, ?_⟩
  · intro n hn
    have hall := reads_described hinv.reads.stable
      (fun op hop => hrp ▸ hr.queue.locals op hop) herr (by decide)
    have hzero : readBelow 2 p.reads.2 = 0 := by
      refine List.countP_eq_zero.mpr ?_
      intro op hop
      simp only [decide_eq_true_eq]
      exact Nat.not_lt.mpr (hall op hop)
    have hcb := hr.cursors.descriptorCallback
    rw [hr.log.descriptorsCalled, List.mem_range]
    omega
  · intro n hn
    have hun := reads_unallocated hinv.reads herr hrp
    have hacc := hr.cursors.accepted
    have hcb := hr.cursors.readCallback
    have hlen : p.reads.2.countP (fun op => !op.doneGettingAllocation) = p.reads.2.length :=
      List.countP_eq_length.mpr (fun op hop => by simp [hun op hop])
    have hopen : readBelow 5 p.reads.2 = p.reads.2.length := by
      refine List.countP_eq_length.mpr ?_
      intro op hop
      have hfin : op.state ≠ .finished := hinv.reads.unfinished op hop
      cases hs : op.state <;> first | exact absurd hs hfin | rfl
    rw [hr.log.accepted, List.mem_range] at hn
    rw [hr.log.readsCalled, List.mem_range]
    omega

/-- The client midway: its second message gets an allocation too, everything that concerns the
    first ones reports, and the pipe is closed before the payload of the second is there. -/
def sampleFlushed : PipeImpl :=
  (runAll [.read sampleAllocation, .readDone (.payload 0 0 8192 16) none {},
    .writeDone (.descriptor 0 sampleDescriptor) none ⟨[]⟩,
    .writeDone (.payload 0 0 4096 16) none ⟨[]⟩, .close,
    .readDone (.payload 1 0 8192 16) none {}, .readDone (.descriptor 2) none {},
    .writeDone (.descriptor 1 sampleDescriptor) none ⟨[]⟩,
    .writeDone (.payload 1 0 4096 16) none ⟨[]⟩] sampleMidway).get (by decide +kernel)

theorem sampleFlushed_reachable : Reachable (fun _ _ => True) sampleFlushed :=
  (sampleMidway_reachable (fun _ _ _ => trivial)).runAll (fun _ _ _ => trivial)
    (Option.some_get _).symm

/-- On that client nothing is left to call: two writes, three descriptors and two reads have
    had their callbacks, of each kind one with the error. -/
theorem callbacks_once_in_order_flushed :
    sampleFlushed.writes.1.called.map WriteCallback.number = [0, 1]
    ∧ sampleFlushed.writes.2 = []
    ∧ (∀ n < 3, n ∈ sampleFlushed.reads.1.called.filterMap
        ReadCallback.descriptorNumber)
    ∧ sampleFlushed.reads.1.accepted = [0, 1]
    ∧ ∀ n ∈ sampleFlushed.reads.1.accepted,
        n ∈ sampleFlushed.reads.1.called.filterMap ReadCallback.readNumber :=
  have hall := (callbacks_once_in_order (Or.inl sampleFlushed_reachable)).2.2.2
    sampleFlushed_reachable (by decide +kernel) (by decide +kernel) (by decide +kernel)
  have hnext : sampleFlushed.reads.1.nextMessageBeingRead = 3 := by decide +kernel
  ⟨by decide +kernel, hall.1, fun n hn => hall.2.1 n (hnext ▸ hn), by decide +kernel, hall.2.2⟩

-- ── The queues and the cursors ───────────────────────────────────────────────

/-- The operations below a rank, seen from one operation: it and those behind it, or
    at most those behind it. -/
theorem readBelow_at {next : Nat} {pending : List ReadCall} {pre post : List ReadOperation}
    {op : ReadOperation} (h : ReadQueue next pending (pre ++ op :: post)) (k : Nat) :
    (op.state.rank < k → post.length + 1 ≤ readBelow k (pre ++ op :: post))
    ∧ (k ≤ op.state.rank → readBelow k (pre ++ op :: post) ≤ post.length) := by
  have hsplit : readBelow k (pre ++ op :: post)
      = readBelow k pre + readBelow k post + readUnit k op.state := by
    simp [readBelow, readUnit, List.countP_append, List.countP_cons, Nat.add_assoc]
  rw [hsplit]
  constructor
  · intro hlt
    have hpost : readBelow k post = post.length := by
      refine List.countP_eq_length.mpr ?_
      intro o ho
      have := h.post_rank ho
      simp only [decide_eq_true_eq]
      omega
    rw [hpost, readUnit, if_pos hlt]
    omega
  · intro hge
    have hpre : readBelow k pre = 0 := by
      refine List.countP_eq_zero.mpr ?_
      intro o ho
      have h1 := h.pre_rank ho
      have h2 := h.follows.le
      simp only [decide_eq_true_eq]
      omega
    have hpost : readBelow k post ≤ post.length := List.countP_le_length
    rw [hpre, readUnit, if_neg (Nat.not_lt.mpr hge)]
    omega

/-- Without an error, the cursor separates the operations whose payload reads have
    been scheduled from the others. -/
theorem connection_scheduled {g : Gate} {r : ReadSide} {ops : List ReadOperation}
    (h : ReadInv g r ops) (herr : g.error = none) {op : ReadOperation} (hop : op ∈ ops) :
    ReadState.readingPayloadsAndReceivingTensors ≤ op.state ↔
      op.sequenceNumber < r.messageBeingReadFromConnection := by
  obtain ⟨pre, post, rfl⟩ := List.append_of_mem hop
  have hmid : op.sequenceNumber + post.length + 1 = r.nextMessageBeingRead :=
    numbered_mid h.queue.numbered
  have hcon := h.cursors.connection herr
  obtain ⟨hlow, hhigh⟩ := readBelow_at h.queue 4
  show 4 ≤ op.state.rank ↔ _
  constructor
  · intro h4
    have := hhigh h4
    omega
  · intro hlt
    by_contra hno
    have := hlow (by omega)
    omega

/-- Without an error, the operation at the cursor is the one whose descriptor has
    been scheduled and whose payloads have not, if there is one. -/
theorem connection_current {g : Gate} {r : ReadSide} {ops : List ReadOperation}
    (h : ReadInv g r ops) (herr : g.error = none) {op : ReadOperation} (hop : op ∈ ops) :
    (ReadState.readingDescriptor ≤ op.state
        ∧ ¬ ReadState.readingPayloadsAndReceivingTensors ≤ op.state) ↔
      (op.sequenceNumber = r.messageBeingReadFromConnection
        ∧ r.connectionState = .awaitingPayloads) := by
  obtain ⟨pre, post, rfl⟩ := List.append_of_mem hop
  have hmid : op.sequenceNumber + post.length + 1 = r.nextMessageBeingRead :=
    numbered_mid h.queue.numbered
  have hcon := h.cursors.connection herr
  have hstate := h.cursors.connectionState herr
  obtain ⟨hlow4, hhigh4⟩ := readBelow_at h.queue 4
  obtain ⟨hlow1, hhigh1⟩ := readBelow_at h.queue 1
  have hawait : r.connectionState = .awaitingPayloads ↔ r.connectionState.awaited = 1 := by
    cases r.connectionState <;> decide
  have hle : r.connectionState.awaited ≤ 1 := by
    cases r.connectionState <;> decide
  rw [hawait]
  show (1 ≤ op.state.rank ∧ ¬ 4 ≤ op.state.rank) ↔ _
  constructor
  · rintro ⟨h1, h4⟩
    have hb4 := hlow4 (by omega)
    have hb1 := hhigh1 h1
    constructor
    · omega
    · omega
  · rintro ⟨hseq, haw⟩
    constructor
    · by_contra hno
      have hb1 := hlow1 (by omega)
      omega
    · intro h4
      have hb4 := hhigh4 h4
      omega

/-- What is said of the two deques and of the cursors over them. -/
structure QueueInvariant (p : PipeImpl) : Prop where
  readNumbers : ∃ first, p.reads.2.map ReadOperation.sequenceNumber
    = List.range' first p.reads.2.length
  writeNumbers : ∃ first, p.writes.2.map WriteOperation.sequenceNumber
    = List.range' first p.writes.2.length
  readStates : p.reads.2.Pairwise (fun a b => b.state ≤ a.state)
  writeStates : p.writes.2.Pairwise (fun a b => b.state ≤ a.state)
  /-- The field is set exactly to the operation that waits for its read call. -/
  expected : ∀ n, p.reads.1.nextMessageGettingAllocation = some n ↔
    ∃ op ∈ p.reads.2, op.state = .askingForAllocationFirstInLine
      ∧ op.doneGettingAllocation = false ∧ op.sequenceNumber = n
  unique : ∀ a ∈ p.reads.2, ∀ b ∈ p.reads.2,
    a.state = .askingForAllocationFirstInLine → a.doneGettingAllocation = false →
    b.state = .askingForAllocationFirstInLine → b.doneGettingAllocation = false → a = b
  /-- Message by message, the frames taken so far stop right before the payloads, or
      the descriptor, of the message at the cursor. -/
  frames : ∃ payloads : Nat → List ReadCall,
    (∀ k, ∀ c ∈ payloads k, c.isPayload k = true) ∧
    p.reads.1.issued.filter ReadCall.isFrame
      = readFrames payloads p.reads.1.messageBeingReadFromConnection
        ++ (if p.reads.1.connectionState = .awaitingPayloads
            then [.descriptor p.reads.1.messageBeingReadFromConnection] else [])
  scheduled : p.error = none → ∀ op ∈ p.reads.2,
    (ReadState.readingPayloadsAndReceivingTensors ≤ op.state ↔
      op.sequenceNumber < p.reads.1.messageBeingReadFromConnection)
  current : p.error = none → ∀ op ∈ p.reads.2,
    ((ReadState.readingDescriptor ≤ op.state
        ∧ ¬ ReadState.readingPayloadsAndReceivingTensors ≤ op.state) ↔
      (op.sequenceNumber = p.reads.1.messageBeingReadFromConnection
        ∧ p.reads.1.connectionState = .awaitingPayloads))
  readDchecks : p.reads.1.dchecks = true
  writeDchecks : p.writes.1.dchecks = true

/-- **The queue invariant.** -/
theorem pipe_queue_invariant {p : PipeImpl} (hp : Reachable Legal p) : QueueInvariant p := by
  have hinv := reachable_inv hp
  have hr := hinv.reads.inv
  have hw := hinv.writes.inv
  have hexpected : ∀ n, p.reads.1.nextMessageGettingAllocation = some n ↔
      ∃ op ∈ p.reads.2, op.state = .askingForAllocationFirstInLine
        ∧ op.doneGettingAllocation = false ∧ op.sequenceNumber = n := by
    intro n
    rw [hr.cursors.expected n]
    simp [expectsRead, and_assoc]
  refine ⟨⟨_, numbered_range hr.queue.numbered⟩, ⟨_, numbered_range hw.queue.numbered⟩,
    chained_pairwise (fun _ _ hf => ReadFollows.le hf) _ _ hr.queue.chained,
    chained_pairwise (fun _ _ hf => hf) _ _ hw.queue.chained, hexpected, ?_,
    hr.log.frames, fun he op hop => connection_scheduled hr he hop,
    fun he op hop => connection_current hr he hop, hr.dchecks, hw.dchecks⟩
  intro a ha b hb ha1 ha2 hb1 hb2
  have hna := (hexpected a.sequenceNumber).mpr ⟨a, ha, ha1, ha2, rfl⟩
  have hnb := (hexpected b.sequenceNumber).mpr ⟨b, hb, hb1, hb2, rfl⟩
  have hseq : b.sequenceNumber = a.sequenceNumber := Option.some.inj (hnb.symm.trans hna)
  obtain ⟨pre, post, hops⟩ := List.append_of_mem ha
  have hnum := hr.queue.numbered
  rw [hops] at hnum hb
  rcases List.mem_append.mp hb with hpre | hmid
  · exact absurd hseq (numbered_ne hnum (Or.inl hpre))
  · rcases List.mem_cons.mp hmid with rfl | hpost
    · rfl
    · exact absurd hseq (numbered_ne hnum (Or.inr hpost))

/-- The established client, with a descriptor read and the allocation awaited. -/
def sampleAsking : PipeImpl :=
  ((sampleEstablished.run .readDescriptor).state.run
    (.readDone (.descriptor 0) none {})).state

theorem sampleAsking_reachable : Reachable Legal sampleAsking :=
  .step (.readDone (.descriptor 0) none {})
    (.step .readDescriptor (sampleEstablished_reachable trivial) trivial trivial rfl)
    List.mem_cons_self trivial rfl

/-- The client midway has operations in three states, and two writes. -/
theorem pipe_queue_invariant_midway :
    sampleMidway.reads.2.map ReadOperation.state = [.readingPayloadsAndReceivingTensors,
      .askingForAllocationFirstInLine, .uninitialized]
    ∧ sampleMidway.writes.2.length = 2
    ∧ sampleMidway.reads.1.nextMessageGettingAllocation = some 1
    ∧ QueueInvariant sampleMidway :=
  ⟨by decide +kernel, by decide +kernel, by decide +kernel,
    pipe_queue_invariant (sampleMidway_reachable (fun _ _ h => h))⟩

-- ── Progress ─────────────────────────────────────────────────────────────────

/-- Without an error, established, and with nothing outstanding, no write is left:
    its front would have a transition. -/
theorem writes_done {g : Gate} {x : Writes} (h : WriteRest g x) (herr : g.error = none)
    (hest : g.established = true) (hpending : x.1.pending = []) : x.2 = [] := by
  obtain ⟨w, ops⟩ := x
  cases ops with
  | nil => rfl
  | cons op rest =>
      exfalso
      have hloc := h.inv.queue.locals op (by simp)
      have hstuck := h.stable.1
      have hr := hloc.replyRead
      have hp := hloc.payloadWrites
      have ht := hloc.tensorSends
      rw [hpending, List.countP_nil] at hr hp ht
      cases hst : op.state with
      | uninitialized =>
          refine hstuck ?_
          cases hm : op.hasMissingTargetDevices with
          | true => simp [Enabled, advanceWriteOperation, hst, herr, hest, hm]
          | false => simp [Enabled, advanceWriteOperation, hst, herr, hest, hm]
      | writingPayloadsAndReadingTargetDevices =>
          have hdone : op.doneReadingDescriptorReply = true := by
            by_contra hno
            rw [if_pos ⟨hst, by simpa using hno⟩] at hr
            exact absurd hr (by simp)
          exact hstuck (by simp [Enabled, advanceWriteOperation, hst, herr, hdone])
      | writingPayloadsAndSendingTensors =>
          exact hstuck (by simp [Enabled, advanceWriteOperation, hst, ← hp, ← ht])
      | finished => exact absurd hst (h.unfinished op (by simp))

/-- What the front of the read queue waits for, then: its user. -/
theorem reads_front_asking {g : Gate} {r : ReadSide} {front : ReadOperation}
    {rest : List ReadOperation} (h : ReadRest g (r, front :: rest))
    (herr : g.error = none) (hest : g.established = true) (hpending : r.pending = []) :
    front.state = .askingForAllocationFirstInLine
      ∧ front.doneGettingAllocation = false := by
  have hinv : ReadInv g r (front :: rest) := h.inv
  have hloc := hinv.queue.locals front (by simp)
  have hd := hloc.descriptorRead
  have hp := hloc.payloadReads
  have ht := hloc.tensorRecvs
  rw [hpending, List.countP_nil] at hd hp ht
  have hstuck := h.stable.1
  cases hst : front.state with
  | uninitialized =>
      exact absurd (show Enabled (advanceReadOperation g) .finished front by
        simp [Enabled, advanceReadOperation, hst, herr, hest]) hstuck
  | readingDescriptor =>
      have hdone : front.doneReadingDescriptor = true := by
        by_contra hno
        rw [if_pos ⟨hst, by simpa using hno⟩] at hd
        exact absurd hd (by simp)
      exact absurd (show Enabled (advanceReadOperation g) .finished front by
        simp [Enabled, advanceReadOperation, hst, hdone]) hstuck
  | askingForAllocation =>
      have hdone := hinv.cursors.described herr front (by simp) (by rw [hst]; decide)
      exact absurd (show Enabled (advanceReadOperation g) .finished front by
        simp [Enabled, advanceReadOperation, hst, hdone]) hstuck
  | askingForAllocationFirstInLine =>
      refine ⟨rfl, ?_⟩
      by_contra hno
      have hdone : front.doneGettingAllocation = true := by simpa using hno
      refine hstuck ?_
      cases hm : front.hasMissingTargetDevices with
      | true => simp [Enabled, advanceReadOperation, hst, herr, hdone, hm]
      | false => simp [Enabled, advanceReadOperation, hst, herr, hdone, hm]
  | readingPayloadsAndReceivingTensors =>
      exact absurd (show Enabled (advanceReadOperation g) .finished front by
        simp [Enabled, advanceReadOperation, hst, ← hp, ← ht]) hstuck
  | finished => exact absurd hst (h.unfinished front (by simp))

/-- Behind an operation that waits for its read call nothing has started. -/
theorem reads_rest_uninitialized {g : Gate} {r : ReadSide} {front : ReadOperation}
    {rest : List ReadOperation} (h : ReadInv g r (front :: rest)) (herr : g.error = none)
    (hfront : front.state = .askingForAllocationFirstInLine) :
    ∀ op ∈ rest, op.state = .uninitialized := by
  have hfirst := (connection_current h herr (show front ∈ front :: rest by simp)).mp
    (by rw [hfront]; decide)
  intro op hop
  have hlt : front.sequenceNumber < op.sequenceNumber := numbered_front h.queue.numbered hop
  have hrank : op.state.rank ≤ front.state.rank :=
    chained_rank_post (fun _ _ hf => ReadFollows.le hf) rest _ h.queue.chained.2 op hop
  have h3 : front.state.rank = 3 := by rw [hfront]; rfl
  by_contra hne
  have hstarted : ReadState.readingDescriptor ≤ op.state := by
    cases hs : op.state <;> first | exact absurd hs hne | decide
  have hmine := (connection_current h herr (show op ∈ front :: rest by simp [hop])).mp
    ⟨hstarted, by show ¬ 4 ≤ op.state.rank; omega⟩
  rw [← hfirst.1] at hmine
  exact absurd hmine.1 (Nat.ne_of_gt hlt)

/-- **A pipe never stalls by itself.** -/
theorem pipe_never_stalls {p : PipeImpl} (hp : Reachable Legal p)
    (hest : p.state = .established) (herr : p.error = none)
    (hreads : p.reads.1.pending = []) (hwrites : p.writes.1.pending = []) :
    p.writes.2 = []
    ∧ (p.reads.2 = [] ∨ ∃ front rest, p.reads.2 = front :: rest
        ∧ front.state = .askingForAllocationFirstInLine
        ∧ front.doneGettingAllocation = false
        ∧ ∀ op ∈ rest, op.state = .uninitialized)
    ∧ Stable (advanceReadOperation p.gate) p.reads.2
    ∧ Stable (advanceWriteOperation p.gate) p.writes.2 := by
  have hinv := reachable_inv hp
  have hgate : p.gate.established = true := by
    show (p.state == .established) = true
    rw [hest]
    rfl
  refine ⟨writes_done hinv.writes herr hgate hwrites, ?_, hinv.reads.stable,
    hinv.writes.stable⟩
  have hr := hinv.reads
  cases hops : p.reads.2 with
  | nil => exact Or.inl rfl
  | cons front rest =>
      have hr' : ReadRest p.gate (p.reads.1, front :: rest) := by
        rw [← hops]
        exact hr
      obtain ⟨h1, h2⟩ := reads_front_asking hr' herr hgate hreads
      exact Or.inr ⟨front, rest, rfl, h1, h2, reads_rest_uninitialized hr'.inv herr h1⟩

/-- The client midway, once everything it has issued has reported. -/
def sampleQuiet : PipeImpl :=
  (runAll [.readDone (.payload 0 0 8192 16) none {},
    .writeDone (.descriptor 0 sampleDescriptor) none ⟨[]⟩,
    .writeDone (.payload 0 0 4096 16) none ⟨[]⟩,
    .writeDone (.descriptor 1 sampleDescriptor) none ⟨[]⟩,
    .writeDone (.payload 1 0 4096 16) none ⟨[]⟩] sampleMidway).get (by decide +kernel)

theorem sampleQuiet_reachable : Reachable Legal sampleQuiet :=
  (sampleMidway_reachable (fun _ _ h => h)).runAll (fun _ _ h => h) (Option.some_get _).symm

/-- Two writes are done, and of the two reads left the first waits for the user. -/
theorem pipe_never_stalls_quiet :
    sampleQuiet.reads.2.map ReadOperation.sequenceNumber = [1, 2]
    ∧ sampleQuiet.writes.1.called.length = 2 ∧ sampleQuiet.writes.2 = []
    ∧ Stable (advanceReadOperation sampleQuiet.gate) sampleQuiet.reads.2 :=
  have hquiet := pipe_never_stalls sampleQuiet_reachable (by decide +kernel)
    (by decide +kernel) (by decide +kernel) (by decide +kernel)
  ⟨by decide +kernel, by decide +kernel, hquiet.1, hquiet.2.2.1⟩

end PipeImpl

end TpPipe
