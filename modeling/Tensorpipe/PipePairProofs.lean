import Tensorpipe.PipeAgreementProofs

/-! # Two pipes

    One pipe writes and the other reads.  The descriptor connection carries the frames
    from the writer to the reader, the reply connection carries the replies back, and the
    channels carry the tensors.  A frame is taken for what the next read expects, and a
    reply for the answer to the oldest question.

    The connections are reliable and in order.  Nothing else is assumed of the run: the
    tasks of the two pipes interleave in any way, each pipe may also be used in the other
    direction, and anything may fail at any time.

    `PairInv` joins the invariants of the two halves over the messages written and the
    allocations given; a step of the pair keeps it (`step_inv`). -/

namespace TpPipe

open TpStateMachine TpMessage TpSelect TpStream

-- ── The pair ─────────────────────────────────────────────────────────────────

/-- A tensor handed to this channel. -/
def WriteCall.transferOn (channel : String) (c : WriteCall) : Option Transfer :=
  c.transfer.filter (fun t => t.channel == channel)

/-- The transfer of a call, if it goes through this channel. -/
def ReadCall.transferOn (channel : String) (c : ReadCall) : Option Transfer :=
  c.transfer.filter (fun t => t.channel == channel)

/-- What goes over one channel, out of what goes over all of them. -/
theorem transferOn_filter (channel : String) (writes : List WriteCall) (reads : List ReadCall) :
    writes.filterMap (WriteCall.transferOn channel)
        = (writes.filterMap WriteCall.transfer).filter (fun t => t.channel == channel)
      ∧ reads.filterMap (ReadCall.transferOn channel)
        = (reads.filterMap ReadCall.transfer).filter (fun t => t.channel == channel) := by
  constructor
  · rw [List.filter_filterMap]
    rfl
  · rw [List.filter_filterMap]
    rfl

/-- **One channel.**  The i-th tensor sent and the i-th tensor received on a channel are the
    same. -/
theorem channel_agree {g g' : Gate} {sent : List Message} {allocated : List Allocation}
    {w : WriteSide} {wops : List WriteOperation} {r : ReadSide} {rops : List ReadOperation}
    (hw : WriteStream g sent (KnownTargets sent allocated) w wops)
    (hr : ReadStream g' sent allocated r rops)
    (htr : PipeImpl.Transposed g.channelForDevicePair g'.channelForDevicePair)
    (channel : String) : Agree (w.issued.filterMap (WriteCall.transferOn channel))
      (r.issued.filterMap (ReadCall.transferOn channel)) := by
  obtain ⟨hwrites, hreads⟩ := transferOn_filter channel w.issued r.issued
  rw [hwrites, hreads]
  exact Agree.filter (transfers_agree hw hr htr) _

/-- The two pipes, with what was asked of them so far: the messages written on one, the
    allocations given on the other.  The connections are reliable and in order, so what is
    in flight on them is what one end has issued beyond what the other has taken. -/
structure Pair where
  writer : PipeImpl
  reader : PipeImpl
  sent : List Message := []
  allocated : List Allocation := []
  framesTaken : Nat := 0
  repliesTaken : Nat := 0

/-- The two pipes. -/
inductive Side where
  | writer
  | reader
deriving DecidableEq, Repr

/-- What can happen.  The handshake is one step here, its last; an error may also come
    from what is left of it. -/
inductive PairEvent where
  | establish (side : Side)
  | fail (side : Side) (error : String)
  | task (side : Side) (task : PipeImpl.Task)

/-- A task that is not of the handshake, and whose operation, if any, is outstanding. -/
def mayRun (task : PipeImpl.Task) (p : PipeImpl) : Bool :=
  match task with
  | .readDone call _ _ => decide (call ∈ p.reads.1.pending)
  | .writeDone call _ _ => decide (call ∈ p.writes.1.pending)
  | .handshakeDone _ _ _ _ _ => false
  | .accepted _ _ _ _ _ => false
  | _ => true

namespace Pair

/-- The frames written on the descriptor connection, and the reads issued on it. -/
def framesWritten (s : Pair) : List WriteCall :=
  s.writer.writes.1.issued.filter WriteCall.isFrame

/-- The frames that the reader has begun to read. -/
def framesRead (s : Pair) : List ReadCall := s.reader.reads.1.issued.filter ReadCall.isFrame

/-- The replies written on the reply connection, and the reads issued on it. -/
def repliesWritten (s : Pair) : List (Nat × DescriptorReply) :=
  s.reader.reads.1.issued.filterMap ReadCall.reply

/-- The replies that the writer has begun to read. -/
def repliesRead (s : Pair) : List Nat :=
  s.writer.writes.1.issued.filterMap WriteCall.replyNumber

/-- The tensors handed to one channel, at the two ends. -/
def sends (s : Pair) (channel : String) : List WriteCall :=
  s.writer.writes.1.issued.filter (fun c => (c.transferOn channel).isSome)

/-- The tensors that the reader receives through a channel. -/
def recvs (s : Pair) (channel : String) : List ReadCall :=
  s.reader.reads.1.issued.filter (fun c => (c.transferOn channel).isSome)

/-- A frame read succeeds if it is the oldest one outstanding and its frame has been
    written.  A descriptor in the frame is decoded to what was encoded. -/
def frameArrives (s : Pair) (call : ReadCall) (descriptor : Descriptor) : Bool :=
  decide (s.framesRead[s.framesTaken]? = some call)
    && match s.framesWritten[s.framesTaken]? with
      | none => false
      | some (.descriptor _ written) => written == descriptor
      | some _ => true

/-- The same for a reply. -/
def replyArrives (s : Pair) (n : Nat) (reply : DescriptorReply) : Bool :=
  decide (s.repliesRead[s.repliesTaken]? = some n)
    && match s.repliesWritten[s.repliesTaken]? with
      | none => false
      | some written => written.2 == reply

/-- What the connections promise for a task: successes come in order.  A failure may come
    at any time, and so may whatever the channels report. -/
def promised (s : Pair) : Side → PipeImpl.Task → Bool
  | .writer, .writeDone (.descriptorReply n) none reply => s.replyArrives n reply
  | .reader, .readDone call none descriptor => !call.isFrame || s.frameArrives call descriptor
  | _, _ => true

/-- The pipe of a side. -/
def pipe (s : Pair) : Side → PipeImpl
  | .writer => s.writer
  | .reader => s.reader

/-- Replaces the pipe of a side. -/
def setPipe (s : Pair) : Side → PipeImpl → Pair
  | .writer, p => { s with writer := p }
  | .reader, p => { s with reader := p }

/-- The books that are kept of a task. -/
def record (s : Pair) : Side → PipeImpl.Task → Pair
  | .writer, .write message => { s with sent := s.sent ++ [message] }
  | .writer, .writeDone (.descriptorReply _) none _ =>
      { s with repliesTaken := s.repliesTaken + 1 }
  | .reader, .read allocation => { s with allocated := s.allocated ++ [allocation] }
  | .reader, .readDone call none _ =>
      if call.isFrame then { s with framesTaken := s.framesTaken + 1 } else s
  | _, _ => s

end Pair

/-- What a call leaves behind if it returns. -/
def returned {α : Type} : Outcome α → Option α
  | .returns a => some a
  | .throws _ => none

namespace Pair

/-- One step.  A task that throws takes its loop down and ends the run. -/
def step (s : Pair) : PairEvent → Option Pair
  | .establish side => (returned (s.pipe side).establish).map (s.setPipe side)
  | .fail side error => (returned ((s.pipe side).setError (some error))).map (s.setPipe side)
  | .task side task =>
      if mayRun task (s.pipe side) && s.promised side task then
        (returned ((s.pipe side).run task)).map ((s.record side task).setPipe side)
      else none

/-- Events one after the other, as far as each can happen. -/
def run : List PairEvent → Pair → Option Pair
  | [], s => some s
  | e :: rest, s => (s.step e).bind (run rest)

/-- Two pipes on which nothing has been asked yet. -/
def start (writer reader : PipeImpl) : Pair := { writer := writer, reader := reader }

end Pair

-- ── One pipe of the pair ─────────────────────────────────────────────────────

/-- A pipe that writes, with the map of its channels. -/
def Writing (m : UnorderedMap (Device × Device) String) (sent : List Message)
    (allocated : List Allocation) (p : PipeImpl) : Prop :=
  p.channelForDevicePair = m
    ∧ WriteBoth p.gate sent (KnownTargets sent allocated) p.writes.1 p.writes.2

/-- A pipe that reads, with the map of its channels. -/
def Reading (m : UnorderedMap (Device × Device) String) (sent : List Message)
    (allocated : List Allocation) (p : PipeImpl) : Prop :=
  p.channelForDevicePair = m ∧ ReadBoth p.gate sent allocated p.reads.1 p.reads.2

section Pipe

variable {m : UnorderedMap (Device × Device) String} {sent sent' : List Message}
  {allocated allocated' : List Allocation} {p : PipeImpl} {g : Gate}

/-- More allocations leave the writer as it was. -/
theorem Writing.allocate (h : Writing m sent allocated p) (halloc : allocated <+: allocated') :
    Writing m sent allocated' p :=
  ⟨h.1, h.2.1, h.2.2.mono (fun _ _ ht => ht.mono (List.prefix_refl _) halloc)⟩

/-- More messages leave the reader as it was. -/
theorem Reading.send (h : Reading m sent allocated p) (hsent : sent <+: sent') :
    Reading m sent' allocated p :=
  ⟨h.1, h.2.mono hsent⟩

/-- What the other half does is of no concern. -/
theorem onReads_writing (h : Writing m sent allocated p) (task : Gate → Reads → Outcome Reads) :
    (p.onReads task).Post (Writing m sent allocated) (fun _ => True) := by
  rw [PipeImpl.onReads]
  cases task p.gate p.reads with
  | returns x => exact h
  | throws x => trivial

/-- A task of the writing half leaves the reading half alone. -/
theorem onWrites_reading (h : Reading m sent allocated p)
    (task : Gate → Writes → Outcome Writes) :
    (p.onWrites task).Post (Reading m sent allocated) (fun _ => True) := by
  rw [PipeImpl.onWrites]
  cases task p.gate p.writes with
  | returns x => exact h
  | throws x => trivial

/-- A task of the writing half keeps what holds of it. -/
theorem onWrites_writing (hm : p.channelForDevicePair = m)
    (task : Gate → Writes → Outcome Writes)
    (ht : (task p.gate p.writes).Post
      (fun y => WriteBoth p.gate sent (KnownTargets sent allocated) y.1 y.2) (fun _ => True)) :
    (p.onWrites task).Post (Writing m sent allocated) (fun _ => True) :=
  Outcome.Post.map (ht.imp (fun _ hx => ⟨hm, hx⟩) (fun _ _ => trivial))

/-- A task of the reading half keeps what holds of it. -/
theorem onReads_reading (hm : p.channelForDevicePair = m)
    (task : Gate → Reads → Outcome Reads)
    (ht : (task p.gate p.reads).Post (fun y => ReadBoth p.gate sent allocated y.1 y.2)
      (fun _ => True)) :
    (p.onReads task).Post (Reading m sent allocated) (fun _ => True) :=
  Outcome.Post.map (ht.imp (fun _ hx => ⟨hm, hx⟩) (fun _ _ => trivial))

/-- Advancing everything, behind whatever gate the half was left. -/
theorem advanceAll_writing (hm : p.channelForDevicePair = m) (hmap : g.channelForDevicePair = m)
    (h : WriteBoth g sent (KnownTargets sent allocated) p.writes.1 p.writes.2)
    (hg : p.error = none → g.error = none) :
    p.advanceAll.Post (Writing m sent allocated) (fun _ => True) := by
  rw [PipeImpl.advanceAll, PipeImpl.onReads]
  cases advanceAllReads p.gate p.reads with
  | throws x => trivial
  | returns x =>
      rw [Outcome.map_returns, Outcome.bind_returns]
      refine onWrites_writing (p := { p with reads := x }) hm advanceAllWrites
        (writeBoth_advanceAll (g := g) h hg ?_)
      exact hm.trans hmap.symm

/-- Advancing all reads keeps what holds of them. -/
theorem advanceAll_reading (hm : p.channelForDevicePair = m) (hmap : g.channelForDevicePair = m)
    (h : ReadBoth g sent allocated p.reads.1 p.reads.2)
    (hg : p.error = none → g.error = none) :
    p.advanceAll.Post (Reading m sent allocated) (fun _ => True) := by
  rw [PipeImpl.advanceAll]
  refine Outcome.Post.bind (P := Reading m sent allocated) ?_ ?_
  · exact onReads_reading hm advanceAllReads
      (readBoth_advanceAll (g := g) h hg (hm.trans hmap.symm))
  · exact fun q hq => onWrites_reading hq _

/-- The end of the handshake keeps the writing half. -/
theorem establish_writing (h : Writing m sent allocated p) :
    p.establish.Post (Writing m sent allocated) (fun _ => True) :=
  advanceAll_writing (p := { p with state := .established }) h.1 h.1 h.2 (fun he => he)

/-- The end of the handshake keeps the reading half. -/
theorem establish_reading (h : Reading m sent allocated p) :
    p.establish.Post (Reading m sent allocated) (fun _ => True) :=
  advanceAll_reading (p := { p with state := .established }) h.1 h.1 h.2 (fun he => he)

/-- Setting an error keeps what `advanceAll` keeps. -/
theorem setError_keeps_both {P : PipeImpl → Prop} (error : Error) (hp : P p)
    (hall : ∀ q : PipeImpl, q.error ≠ none → q.channelForDevicePair = p.channelForDevicePair →
      q.reads = p.reads → q.writes = p.writes → q.advanceAll.Post P (fun _ => True))
    (hleave : ∀ q, P q → P { q with enrolled := false }) :
    (p.setError error).Post (fun q => P q ∧ (q.error = none → error = none))
      (fun _ => True) := by
  rw [PipeImpl.setError]
  by_cases hskip : (p.error.isSome || error.isNone) = true
  · rw [if_pos hskip]
    refine ⟨hp, fun he => ?_⟩
    rw [he] at hskip
    simpa using hskip
  · rw [if_neg hskip]
    have hsome : error ≠ none := by
      rintro rfl
      exact hskip (by simp)
    have hpost := hall { p with
      error := error
      registrationIds := ∅
      channelRegistrationIds := ∅
      channelReceivedConnections := ∅ } hsome rfl rfl rfl
    obtain ⟨r, w, hframe⟩ := PipeImpl.advanceAll_frame { p with
      error := error
      registrationIds := ∅
      channelRegistrationIds := ∅
      channelReceivedConnections := ∅ }
    rw [PipeImpl.handleError]
    dsimp only
    generalize PipeImpl.advanceAll _ = o at hpost hframe ⊢
    cases o with
    | throws q => trivial
    | returns q =>
        refine ⟨hleave q hpost, fun he => absurd ?_ hsome⟩
        have herr : q.error = error := congrArg PipeImpl.error hframe
        exact herr.symm.trans he

/-- An error keeps the writing half. -/
theorem setError_writing (h : Writing m sent allocated p) (error : Error) :
    (p.setError error).Post
      (fun q => Writing m sent allocated q ∧ (q.error = none → error = none))
      (fun _ => True) := by
  refine setError_keeps_both error h (fun q hne hmap _ hw => ?_) (fun _ hq => hq)
  refine advanceAll_writing (g := p.gate) (hmap.trans h.1) h.1 ?_ (fun he => absurd he hne)
  rw [hw]
  exact h.2

/-- An error keeps the reading half. -/
theorem setError_reading (h : Reading m sent allocated p) (error : Error) :
    (p.setError error).Post
      (fun q => Reading m sent allocated q ∧ (q.error = none → error = none))
      (fun _ => True) := by
  refine setError_keeps_both error h (fun q hne hmap hr _ => ?_) (fun _ hq => hq)
  refine advanceAll_reading (g := p.gate) (hmap.trans h.1) h.1 ?_ (fun he => absurd he hne)
  rw [hr]
  exact h.2

/-- What a message written adds to the messages sent. -/
def sentAfter (sent : List Message) : PipeImpl.Task → List Message
  | .write message => sent ++ [message]
  | _ => sent

/-- What a read call adds to the allocations given. -/
def allocatedAfter (allocated : List Allocation) : PipeImpl.Task → List Allocation
  | .read allocation => allocated ++ [allocation]
  | _ => allocated

/-- **A task of the pipe that writes.**  A reply that comes in has to be the one made for
    its message. -/
theorem run_writing (h : Writing m sent allocated p) {task : PipeImpl.Task}
    (hmay : mayRun task p = true)
    (hreply : ∀ n reply, task = .writeDone (.descriptorReply n) none reply →
      ∃ message allocation, Allocated sent allocated n message allocation
        ∧ reply = makeDescriptorReplyForMessage (makeDescriptorForMessage message)
          allocation) :
    (p.run task).Post (Writing m (sentAfter sent task) allocated) (fun _ => True) := by
  cases task with
  | readDescriptor => exact onReads_writing h readDescriptorFromLoop
  | read allocation => exact onReads_writing h (fun g => readFromLoop g allocation)
  | write message =>
      refine onWrites_writing h.1 (fun g => writeFromLoop g message) ?_
      have hmore : ∀ k ts, KnownTargets sent allocated k ts →
          KnownTargets (sent ++ [message]) allocated k ts :=
        fun k ts ht => ht.mono (List.prefix_append _ _) (List.prefix_refl _)
      refine writeBoth_write ⟨h.2.1, h.2.2.mono hmore⟩ message (fun hfull => ?_)
      exact ⟨message, List.getElem?_concat_length .., Or.inl ⟨hfull, rfl⟩⟩
  | close => exact (setError_writing h _).imp (fun _ hq => hq.1) (fun _ _ => trivial)
  | readDone call error descriptor =>
      refine ((setError_writing h error).imp (fun _ hq => hq.1) (fun _ _ => trivial)).bind ?_
      exact fun q hq => onReads_writing hq (fun g => onReadDone g call descriptor)
  | writeDone call error reply =>
      have hc : call ∈ p.writes.1.pending := of_decide_eq_true hmay
      have hmem := PipeImpl.setError_keeps_write error hc
      have hset := setError_writing h error
      rw [PipeImpl.run]
      cases hq : p.setError error with
      | throws q => trivial
      | returns q =>
          rw [hq] at hset hmem
          obtain ⟨hwriting, herr⟩ := hset
          refine onWrites_writing hwriting.1 (fun g => onWriteDone g call reply)
            (writeBoth_done hwriting.2 hmem reply ?_)
          rintro hnone n message rfl hmsg tensors rest hparse
          obtain rfl := herr hnone
          obtain ⟨message', allocation, halloc, rfl⟩ := hreply n reply rfl
          obtain rfl := Option.some.inj (hmsg.symm.trans halloc.1)
          obtain ⟨rfl, rfl⟩ := Prod.mk.inj
            (Option.some.inj (hparse.symm.trans (parse_make_reply halloc.2.2)))
          exact ⟨⟨message, hmsg, Or.inr ⟨allocation, halloc, rfl⟩⟩, rfl⟩
  | handshakeDone index error context brochure answer => exact Bool.noConfusion hmay
  | accepted registrationId error context transport connection => exact Bool.noConfusion hmay

/-- **A task of the pipe that reads.**  A descriptor that comes in has to be that of its
    message. -/
theorem run_reading (h : Reading m sent allocated p) {task : PipeImpl.Task}
    (hmay : mayRun task p = true)
    (hdescriptor : ∀ n descriptor, task = .readDone (.descriptor n) none descriptor →
      ∃ message, sent[n]? = some message
        ∧ descriptor = makeDescriptorForMessage message) :
    (p.run task).Post (Reading m sent (allocatedAfter allocated task)) (fun _ => True) := by
  cases task with
  | readDescriptor => exact onReads_reading h.1 readDescriptorFromLoop (readBoth_readDescriptor h.2)
  | read allocation =>
      exact onReads_reading h.1 (fun g => readFromLoop g allocation)
        (readBoth_read h.2 allocation)
  | write message => exact onWrites_reading h (fun g => writeFromLoop g message)
  | close => exact (setError_reading h _).imp (fun _ hq => hq.1) (fun _ _ => trivial)
  | readDone call error descriptor =>
      have hc : call ∈ p.reads.1.pending := of_decide_eq_true hmay
      have hmem := PipeImpl.setError_keeps_read error hc
      have hset := setError_reading h error
      rw [PipeImpl.run]
      cases hq : p.setError error with
      | throws q => trivial
      | returns q =>
          rw [hq] at hset hmem
          obtain ⟨hreading, herr⟩ := hset
          refine onReads_reading hreading.1 (fun g => onReadDone g call descriptor)
            (readBoth_done hreading.2 hmem descriptor ?_)
          rintro hnone n rfl
          obtain rfl := herr hnone
          exact hdescriptor n descriptor rfl
  | writeDone call error reply =>
      refine ((setError_reading h error).imp (fun _ hq => hq.1) (fun _ _ => trivial)).bind ?_
      exact fun q hq => onWrites_reading hq (fun g => onWriteDone g call reply)
  | handshakeDone index error context brochure answer => exact Bool.noConfusion hmay
  | accepted registrationId error context transport connection => exact Bool.noConfusion hmay

end Pipe

-- ── Steps and runs ───────────────────────────────────────────────────────────

/-- What holds of all results of a computation holds of the one it returned. -/
theorem post_returned {α : Type} {P Q : α → Prop} {o : Outcome α} (h : o.Post P Q) {a : α}
    (ho : returned o = some a) : P a := by
  cases o with
  | returns b =>
      obtain rfl := Option.some.inj ho
      exact h
  | throws b => exact absurd ho (Option.some_ne_none a).symm

/-- The two ends of a pair whose channels match. -/
structure PairInv (m m' : UnorderedMap (Device × Device) String) (s : Pair) : Prop where
  writing : Writing m s.sent s.allocated s.writer
  reading : Reading m' s.sent s.allocated s.reader

namespace Pair

variable {m m' : UnorderedMap (Device × Device) String} {s s' : Pair}

/-- The maps of channels stay what they were. -/
theorem PairInv.maps (h : PairInv m m' s) (htr : PipeImpl.Transposed m m') :
    PipeImpl.Transposed s.writer.gate.channelForDevicePair
      s.reader.gate.channelForDevicePair := by
  show PipeImpl.Transposed s.writer.channelForDevicePair s.reader.channelForDevicePair
  rw [h.writing.1, h.reading.1]
  exact htr

/-- A descriptor that arrives is that of the message it is read for. -/
theorem PairInv.descriptor (h : PairInv m m' s) {n : Nat} {descriptor : Descriptor}
    (harr : s.frameArrives (.descriptor n) descriptor = true) :
    ∃ message, s.sent[n]? = some message ∧ descriptor = makeDescriptorForMessage message := by
  rw [frameArrives, Bool.and_eq_true, decide_eq_true_eq] at harr
  obtain ⟨hread, hframe⟩ := harr
  cases hw : s.framesWritten[s.framesTaken]? with
  | none =>
      rw [hw] at hframe
      exact Bool.noConfusion hframe
  | some call =>
      rw [hw] at hframe
      have hkind := (frames_agree h.writing.2.2 h.reading.2.2).kinds writeFrame_isSome
        readFrame_isSome hw hread
      cases call with
      | descriptor k written =>
          obtain rfl := FrameKind.descriptor.inj (Option.some.inj hkind)
          obtain rfl := eq_of_beq hframe
          exact written_from h.writing.2.2 (List.mem_filter.mp (List.mem_of_getElem? hw)).1
      | payload k payloadIdx data length =>
          exact FrameKind.noConfusion (Option.some.inj hkind)
      | tensor channel k tensorIdx buffer length => exact absurd hkind (Option.some_ne_none _).symm
      | descriptorReply k => exact absurd hkind (Option.some_ne_none _).symm

/-- A reply that arrives was made for the message it is read for. -/
theorem PairInv.reply (h : PairInv m m' s) {n : Nat} {reply : DescriptorReply}
    (harr : s.replyArrives n reply = true) :
    ∃ message allocation, Allocated s.sent s.allocated n message allocation
      ∧ reply = makeDescriptorReplyForMessage (makeDescriptorForMessage message)
        allocation := by
  rw [replyArrives, Bool.and_eq_true, decide_eq_true_eq] at harr
  obtain ⟨hread, hwritten⟩ := harr
  cases hw : s.repliesWritten[s.repliesTaken]? with
  | none =>
      rw [hw] at hwritten
      exact Bool.noConfusion hwritten
  | some written =>
      rw [hw] at hwritten
      obtain ⟨k, reply'⟩ := written
      obtain rfl := eq_of_beq hwritten
      have hsame := replies_agree h.writing.2.2 h.reading.2.2 s.repliesTaken n k hread
        (by rw [List.getElem?_map]; exact congrArg (Option.map Prod.fst) hw)
      obtain rfl := hsame
      obtain ⟨call, hcall, heq⟩ := List.mem_filterMap.mp (List.mem_of_getElem? hw)
      cases call with
      | descriptorReply k made =>
          obtain ⟨rfl, rfl⟩ := Prod.mk.inj (Option.some.inj heq)
          exact read_from h.reading.2.2 hcall
      | descriptor k => exact absurd heq (Option.some_ne_none _).symm
      | payload k payloadIdx data length => exact absurd heq (Option.some_ne_none _).symm
      | tensor channel k tensorIdx buffer length => exact absurd heq (Option.some_ne_none _).symm

/-- A task changes its pipe and the books, and nothing else. -/
theorem record_sent (s : Pair) (task : PipeImpl.Task) :
    (s.record .writer task).sent = sentAfter s.sent task
      ∧ (s.record .writer task).allocated = s.allocated
      ∧ (s.record .reader task).sent = s.sent
      ∧ (s.record .reader task).allocated = allocatedAfter s.allocated task
      ∧ (s.record .writer task).reader = s.reader
      ∧ (s.record .reader task).writer = s.writer := by
  cases task with
  | readDone call error descriptor =>
      cases error with
      | none =>
          by_cases hframe : call.isFrame = true
          · simp [record, hframe, sentAfter, allocatedAfter]
          · simp [record, hframe, sentAfter, allocatedAfter]
      | some error => exact ⟨rfl, rfl, rfl, rfl, rfl, rfl⟩
  | writeDone call error reply =>
      cases error with
      | none => cases call <;> exact ⟨rfl, rfl, rfl, rfl, rfl, rfl⟩
      | some error => cases call <;> exact ⟨rfl, rfl, rfl, rfl, rfl, rfl⟩
  | readDescriptor => exact ⟨rfl, rfl, rfl, rfl, rfl, rfl⟩
  | read allocation => exact ⟨rfl, rfl, rfl, rfl, rfl, rfl⟩
  | write message => exact ⟨rfl, rfl, rfl, rfl, rfl, rfl⟩
  | close => exact ⟨rfl, rfl, rfl, rfl, rfl, rfl⟩
  | handshakeDone index error context brochure answer => exact ⟨rfl, rfl, rfl, rfl, rfl, rfl⟩
  | accepted registrationId error context transport connection =>
      exact ⟨rfl, rfl, rfl, rfl, rfl, rfl⟩

/-- A task only adds to the messages. -/
theorem sentAfter_extends (sent : List Message) (task : PipeImpl.Task) :
    sent <+: sentAfter sent task := by
  cases task <;> first | exact List.prefix_append _ _ | exact List.prefix_refl _

/-- A task only adds to the allocations. -/
theorem allocatedAfter_extends (allocated : List Allocation) (task : PipeImpl.Task) :
    allocated <+: allocatedAfter allocated task := by
  cases task <;> first | exact List.prefix_append _ _ | exact List.prefix_refl _

/-- **A step keeps the invariant.** -/
theorem step_inv (h : PairInv m m' s) {e : PairEvent} (hstep : s.step e = some s') :
    PairInv m m' s' := by
  cases e with
  | establish side =>
      obtain ⟨p, hp, rfl⟩ := Option.map_eq_some_iff.mp hstep
      cases side with
      | writer => exact ⟨post_returned (establish_writing h.writing) hp, h.reading⟩
      | reader => exact ⟨h.writing, post_returned (establish_reading h.reading) hp⟩
  | fail side error =>
      obtain ⟨p, hp, rfl⟩ := Option.map_eq_some_iff.mp hstep
      cases side with
      | writer => exact ⟨(post_returned (setError_writing h.writing _) hp).1, h.reading⟩
      | reader => exact ⟨h.writing, (post_returned (setError_reading h.reading _) hp).1⟩
  | task side task =>
      rw [step] at hstep
      by_cases hmay : (mayRun task (s.pipe side) && s.promised side task) = true
      · rw [if_pos hmay] at hstep
        obtain ⟨p, hp, rfl⟩ := Option.map_eq_some_iff.mp hstep
        obtain ⟨hrun, hpromised⟩ := Bool.and_eq_true _ _ ▸ hmay
        obtain ⟨h1, h2, h3, h4, h5, h6⟩ := record_sent s task
        cases side with
        | writer =>
            have hw := post_returned (run_writing h.writing hrun (fun n reply ht => ?_)) hp
            · constructor
              · show Writing m (s.record .writer task).sent (s.record .writer task).allocated p
                rw [h1, h2]
                exact hw
              · show Reading m' (s.record .writer task).sent (s.record .writer task).allocated
                  (s.record .writer task).reader
                rw [h1, h2, h5]
                exact h.reading.send (sentAfter_extends _ _)
            · subst ht
              exact PairInv.reply h hpromised
        | reader =>
            have hr := post_returned (run_reading h.reading hrun (fun n descriptor ht => ?_)) hp
            · constructor
              · show Writing m (s.record .reader task).sent (s.record .reader task).allocated
                  (s.record .reader task).writer
                rw [h3, h4, h6]
                exact h.writing.allocate (allocatedAfter_extends _ _)
              · show Reading m' (s.record .reader task).sent (s.record .reader task).allocated p
                rw [h3, h4]
                exact hr
            · subst ht
              exact PairInv.descriptor h hpromised
      · rw [if_neg hmay] at hstep
        exact absurd hstep (Option.some_ne_none _).symm

/-- **A run keeps the invariant.** -/
theorem run_inv {events : List PairEvent} (h : PairInv m m' s)
    (hrun : s.run events = some s') : PairInv m m' s' := by
  induction events generalizing s with
  | nil =>
      obtain rfl := Option.some.inj hrun
      exact h
  | cons e rest ih =>
      obtain ⟨t, ht, hrest⟩ := Option.bind_eq_some_iff.mp hrun
      exact ih (step_inv h ht) hrest

/-- Nothing has been asked of the pipe yet. -/
structure Unused (p : PipeImpl) : Prop where
  reads : p.reads = ({}, [])
  writes : p.writes = ({}, [])

/-- Two unused pipes satisfy the invariant. -/
theorem start_inv {w r : PipeImpl} (hw : Unused w) (hr : Unused r) :
    PairInv w.channelForDevicePair r.channelForDevicePair (Pair.start w r) := by
  constructor
  · refine ⟨rfl, ?_⟩
    show WriteBoth w.gate [] _ w.writes.1 w.writes.2
    rw [hw.writes]
    exact writeBoth_init _
  · refine ⟨rfl, ?_⟩
    show ReadBoth r.gate [] [] r.reads.1 r.reads.2
    rw [hr.reads]
    exact readBoth_init _

-- ── A run ────────────────────────────────────────────────────────────────────

/-- A pipe with one channel, between these two devices. -/
def samplePipe (localDevice remoteDevice : Device) : PipeImpl where
  descriptorConnection := 0
  channels := (∅ : FiniteMap String Channel).insert "basic" ⟨[1], .connect⟩
  channelForDevicePair :=
    (∅ : UnorderedMap (Device × Device) String).insert (localDevice, remoteDevice) "basic"

/-- Seen from its two ends, the one channel is between the same devices. -/
theorem samplePipe_transposed (d d' : Device) : PipeImpl.Transposed
    (samplePipe d d').channelForDevicePair (samplePipe d' d).channelForDevicePair := by
  intro l r
  show ((∅ : UnorderedMap (Device × Device) String).insert (d, d') "basic").lookup (l, r)
    = ((∅ : UnorderedMap (Device × Device) String).insert (d', d) "basic").lookup (r, l)
  by_cases hkey : l = d ∧ r = d'
  · obtain ⟨rfl, rfl⟩ := hkey
    rw [AList.lookup_insert, AList.lookup_insert]
  · have hleft : (l, r) ≠ (d, d') := fun h => hkey ⟨congrArg Prod.fst h, congrArg Prod.snd h⟩
    have hright : (r, l) ≠ (d', d) := fun h => hkey ⟨congrArg Prod.snd h, congrArg Prod.fst h⟩
    rw [AList.lookup_insert_ne hleft, AList.lookup_insert_ne hright, AList.lookup_empty,
      AList.lookup_empty]

/-- One payload, and one tensor whose target is left to the reader. -/
def sampleLetter : Message where
  metadata := "m"
  payloads := [⟨4096, 16, ""⟩]
  tensors := [⟨⟨8192, ⟨"cpu", 0⟩⟩, 64, none, ""⟩]

/-- Where the reader puts a payload and a tensor. -/
def sampleMailbox : Allocation where
  payloads := [⟨12288⟩]
  tensors := [⟨⟨16384, ⟨"cuda", 0⟩⟩⟩]

/-- Two messages are written, and the first is read up to its tensors. -/
def sampleExchange : List PairEvent :=
  [.task .writer (.write sampleLetter), .establish .writer, .establish .reader,
    .task .reader .readDescriptor, .task .writer (.write sampleLetter),
    .task .reader (.readDone (.descriptor 0) none (makeDescriptorForMessage sampleLetter)),
    .task .reader (.read sampleMailbox),
    .task .writer (.writeDone (.descriptorReply 0) none ⟨[⟨"cuda", 0⟩]⟩)]

/-- Two pipes between which a tensor goes from the CPU to a CUDA device. -/
def samplePair : Pair :=
  Pair.start (samplePipe ⟨"cpu", 0⟩ ⟨"cuda", 0⟩) (samplePipe ⟨"cuda", 0⟩ ⟨"cpu", 0⟩)

-- ── What the two ends hand out ───────────────────────────────────────────────

/-- A frame and the read that takes it: the same frame of the same message, out of the
    memory of the message and into that of the allocation. -/
def FrameMeets (s : Pair) : WriteCall → ReadCall → Prop
  | .descriptor n d, .descriptor n' =>
      n' = n ∧ ∃ message, s.sent[n]? = some message ∧ d = makeDescriptorForMessage message
  | .payload n k data length, .payload n' k' data' length' =>
      n' = n ∧ k' = k ∧ length' = length
        ∧ (∃ message payload, s.sent[n]? = some message ∧ message.payloads[k]? = some payload
          ∧ payload.data = data ∧ payload.length = length)
        ∧ ∃ allocation, s.allocated[n]? = some allocation
          ∧ allocation.payloads[k]? = some ⟨data'⟩
  | _, _ => False

/-- A send and a receive that meet on a channel: the same tensor of the same message, out
    of the buffer of the message and into that of the allocation. -/
def TensorMeets (s : Pair) (channel : String) : WriteCall → ReadCall → Prop
  | .tensor c n k buffer length, .tensor c' n' k' buffer' length' =>
      c = channel ∧ c' = channel ∧ n' = n ∧ k' = k ∧ length' = length
        ∧ (∃ message tensor, s.sent[n]? = some message ∧ message.tensors[k]? = some tensor
          ∧ tensor.buffer = buffer ∧ tensor.length = length)
        ∧ ∃ allocation, s.allocated[n]? = some allocation
          ∧ allocation.tensors[k]? = some ⟨buffer'⟩
  | _, _ => False

section Runs

variable {w r : PipeImpl} {s : Pair} {events : List PairEvent}

/-- **Frames meet their reads.**  However the tasks of the two pipes interleave, and
    whatever fails, the i-th frame written on the descriptor connection meets the i-th read
    issued on it; and a read descriptor callback that reports success for message `n`
    hands out the descriptor of the `n`-th message written. -/
theorem frames_meet_reads (hw : Unused w) (hr : Unused r)
    (hrun : (Pair.start w r).run events = some s) :
    (∀ (i : Nat) (written : WriteCall) (read : ReadCall), s.framesWritten[i]? = some written →
      s.framesRead[i]? = some read → s.FrameMeets written read)
    ∧ ∀ n d, .readDescriptor n none d ∈ s.reader.reads.1.called →
      ∃ message, s.sent[n]? = some message ∧ d = makeDescriptorForMessage message := by
  have hinv := run_inv (start_inv hw hr) hrun
  refine ⟨?_, hinv.reading.2.2.called⟩
  intro i written read hwritten hread
  have hkind := (frames_agree hinv.writing.2.2 hinv.reading.2.2).kinds writeFrame_isSome
    readFrame_isSome hwritten hread
  have hmem := (List.mem_filter.mp (List.mem_of_getElem? hwritten)).1
  have hmem' := (List.mem_filter.mp (List.mem_of_getElem? hread)).1
  have hfrom := written_from hinv.writing.2.2 hmem
  have hto := read_from hinv.reading.2.2 hmem'
  have hsome := (List.mem_filter.mp (List.mem_of_getElem? hwritten)).2
  have hsome' := (List.mem_filter.mp (List.mem_of_getElem? hread)).2
  cases written with
  | descriptor n d =>
      cases read with
      | descriptor n' =>
          obtain rfl := FrameKind.descriptor.inj (Option.some.inj hkind)
          exact ⟨rfl, hfrom⟩
      | payload n' k' data' length' => exact FrameKind.noConfusion (Option.some.inj hkind)
      | tensor channel n' k' buffer' length' => exact Bool.noConfusion hsome'
      | descriptorReply n' reply => exact Bool.noConfusion hsome'
  | payload n k data length =>
      cases read with
      | descriptor n' => exact FrameKind.noConfusion (Option.some.inj hkind)
      | payload n' k' data' length' =>
          obtain ⟨rfl, rfl, rfl⟩ := FrameKind.payload.inj (Option.some.inj hkind)
          obtain ⟨message, hmsg, payload, hpayload, hdata⟩ := hfrom
          exact ⟨rfl, rfl, rfl, ⟨message, payload, hmsg, hpayload, hdata⟩, hto⟩
      | tensor channel n' k' buffer' length' => exact Bool.noConfusion hsome'
      | descriptorReply n' reply => exact Bool.noConfusion hsome'
  | tensor channel n k buffer length => exact Bool.noConfusion hsome
  | descriptorReply n => exact Bool.noConfusion hsome

/-- In the sample run the payload of the first message meets the second read. -/
theorem frames_meet_reads_exchange : ∃ s, samplePair.run sampleExchange = some s
    ∧ s.framesWritten.length = 4 ∧ s.framesRead.length = 2
    ∧ s.FrameMeets (.payload 0 0 4096 16) (.payload 0 0 12288 16) :=
  ⟨_, rfl, rfl, rfl, (frames_meet_reads ⟨rfl, rfl⟩ ⟨rfl, rfl⟩
    (show samplePair.run sampleExchange = some _ from rfl)).1 1 _ _ rfl rfl⟩

/-- **Replies meet their reads.**  The i-th reply read is the one written for the message it
    is read for; it parses, uses up, and aims the tensors of that message at the devices of
    the allocation given for it. -/
theorem replies_meet_reads (hw : Unused w) (hr : Unused r)
    (hrun : (Pair.start w r).run events = some s) :
    (∀ (i n k : Nat) (reply : DescriptorReply), s.repliesRead[i]? = some n →
      s.repliesWritten[i]? = some (k, reply) → k = n ∧ ∃ message allocation,
        s.sent[n]? = some message ∧ s.allocated[n]? = some allocation
        ∧ parseDescriptorReplyOfMessage message.tensors (tensorsOfMessage message)
          reply.targetDevices = some (resolvedTensors message allocation, []))
    ∧ s.writer.writes.1.replyDchecks = true := by
  have hinv := run_inv (start_inv hw hr) hrun
  refine ⟨?_, hinv.writing.2.2.replies⟩
  intro i n k reply hread hwritten
  have hsame := replies_agree hinv.writing.2.2 hinv.reading.2.2 i n k hread
    (by rw [List.getElem?_map]; exact congrArg (Option.map Prod.fst) hwritten)
  obtain rfl := hsame
  obtain ⟨call, hcall, heq⟩ := List.mem_filterMap.mp (List.mem_of_getElem? hwritten)
  cases call with
  | descriptorReply k made =>
      obtain ⟨rfl, rfl⟩ := Prod.mk.inj (Option.some.inj heq)
      obtain ⟨message, allocation, halloc, rfl⟩ := read_from hinv.reading.2.2 hcall
      exact ⟨rfl, message, allocation, halloc.1, halloc.2.1, parse_make_reply halloc.2.2⟩
  | descriptor k => exact absurd heq (Option.some_ne_none _).symm
  | payload k payloadIdx data length => exact absurd heq (Option.some_ne_none _).symm
  | tensor channel k tensorIdx buffer length => exact absurd heq (Option.some_ne_none _).symm

/-- In the sample run the first of two replies awaited has come. -/
theorem replies_meet_reads_exchange : ∃ s, samplePair.run sampleExchange = some s
    ∧ s.repliesRead = [0, 1] ∧ s.repliesWritten = [(0, ⟨[⟨"cuda", 0⟩]⟩)]
    ∧ ∃ message allocation, s.sent[0]? = some message
      ∧ s.allocated[0]? = some allocation
      ∧ parseDescriptorReplyOfMessage message.tensors (tensorsOfMessage message)
        [⟨"cuda", 0⟩] = some (resolvedTensors message allocation, []) :=
  ⟨_, rfl, rfl, rfl, ((replies_meet_reads ⟨rfl, rfl⟩ ⟨rfl, rfl⟩
    (show samplePair.run sampleExchange = some _ from rfl)).1 0 0 0 _ rfl rfl).2⟩

/-- **Sends meet their receives.**  With transposed maps of channels, the i-th send and the
    i-th receive on a channel meet: whether the target devices came with the message or in
    a reply, and however far ahead the frames of later messages are. -/
theorem sends_meet_recvs (hw : Unused w) (hr : Unused r)
    (htr : PipeImpl.Transposed w.channelForDevicePair r.channelForDevicePair)
    (hrun : (Pair.start w r).run events = some s) (channel : String) :
    ∀ (i : Nat) (send : WriteCall) (recv : ReadCall), (s.sends channel)[i]? = some send →
      (s.recvs channel)[i]? = some recv → s.TensorMeets channel send recv := by
  have hinv := run_inv (start_inv hw hr) hrun
  intro i send recv hsend hrecv
  have hagree := channel_agree hinv.writing.2.2 hinv.reading.2.2 (PairInv.maps hinv htr) channel
  have hkind := hagree.kinds (fun _ => rfl) (fun _ => rfl) hsend hrecv
  have hmem := List.mem_filter.mp (List.mem_of_getElem? hsend)
  have hmem' := List.mem_filter.mp (List.mem_of_getElem? hrecv)
  have hfrom := written_from hinv.writing.2.2 hmem.1
  have hto := read_from hinv.reading.2.2 hmem'.1
  cases send with
  | tensor c n k buffer length =>
      cases recv with
      | tensor c' n' k' buffer' length' =>
          obtain ⟨t, ht⟩ := Option.isSome_iff_exists.mp hmem.2
          have ht' := hkind.symm.trans ht
          obtain ⟨hc, hon⟩ := Option.filter_eq_some_iff.mp ht
          obtain ⟨hc', -⟩ := Option.filter_eq_some_iff.mp ht'
          have hsame := (Option.some.inj hc').trans (Option.some.inj hc).symm
          obtain ⟨rfl, rfl, rfl, rfl⟩ := Transfer.mk.inj hsame
          obtain rfl := Option.some.inj hc
          obtain ⟨message, hmsg, tensor, htensor, hbuffer⟩ := hfrom
          exact ⟨eq_of_beq hon, eq_of_beq hon, rfl, rfl, rfl,
            ⟨message, tensor, hmsg, htensor, hbuffer⟩, hto⟩
      | descriptor n' => exact Bool.noConfusion hmem'.2
      | payload n' k' data' length' => exact Bool.noConfusion hmem'.2
      | descriptorReply n' reply => exact Bool.noConfusion hmem'.2
  | descriptor n d => exact Bool.noConfusion hmem.2
  | payload n k data length => exact Bool.noConfusion hmem.2
  | descriptorReply n => exact Bool.noConfusion hmem.2

/-- In the sample run the tensor goes from the buffer of the message to that of the
    allocation. -/
theorem sends_meet_recvs_exchange : ∃ s, samplePair.run sampleExchange = some s
    ∧ s.TensorMeets "basic" (.tensor "basic" 0 0 ⟨8192, ⟨"cpu", 0⟩⟩ 64)
      (.tensor "basic" 0 0 ⟨16384, ⟨"cuda", 0⟩⟩ 64) :=
  ⟨_, rfl, sends_meet_recvs ⟨rfl, rfl⟩ ⟨rfl, rfl⟩ (samplePipe_transposed _ _)
    (show samplePair.run sampleExchange = some _ from rfl) "basic" 0 _ _ rfl rfl⟩

end Runs

end Pair

end TpPipe
