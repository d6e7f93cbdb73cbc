import Mathlib.Tactic.Common
import Tensorpipe.RingStreamProofs
import Tensorpipe.StreamFramingProofs

/-! # The length in front of a frame

    Both transports put the length of a buffer in front of it, and a read that allocates its own
    buffer believes it.  The stream operations send all eight bytes of a `size_t`; the ring-buffer
    operations put it into a `uint32_t`.

    What a reader decodes and where it stands are read off the invariants of the two
    connections.  A length from `2 ^ 32` on is cut, and the run at the end shows what comes of
    it. -/

namespace TpRing

/-- The length that a reader decodes from the header of a frame of `n` bytes. -/
def decodedLength (n : Nat) : Nat := (lengthOfBytes (lengthBytes (UInt32.ofNat n))).toNat

theorem decodedLength_eq (n : Nat) : decodedLength n = n % 2 ^ 32 := by
  rw [decodedLength, lengthOfBytes_lengthBytes]
  exact UInt32.toNat_ofNat'

theorem decodedLength_iff (n : Nat) : decodedLength n = n ↔ n < 2 ^ 32 := by
  rw [decodedLength_eq]
  constructor
  · intro h
    rw [← h]
    exact Nat.mod_lt n (Nat.two_pow_pos 32)
  · exact Nat.mod_eq_of_lt

-- ── The ring buffer ──────────────────────────────────────────────────────────

section Ring

variable {α : Type} {holder : AbstractNopHolder α}

/-- Where the frame of the write with this number starts. -/
def ringFrameStart (writes : List (List UInt8)) (k : Nat) : Nat :=
  ((writes.take k).map (fun bytes => 4 + bytes.length)).sum

/-- Buffers that are written, and reads that allocate. -/
structure FaithfulLengths (writes : List (List UInt8)) (s : Stream α) : Prop where
  /-- A read that knows its length has that of the write of its number. -/
  decoded : ∀ op rest, s.reader.ops = op :: rest → op.mode = .READ_PAYLOAD →
    ∃ bytes, writes[s.reader.done.length]? = some bytes ∧ op.len = bytes.length
  completed : s.reader.done <+: writes.map .buffer
  /-- Between two reads the marker is where the next frame starts. -/
  boundary : s.reader.point = .start → (∀ op ∈ s.reader.ops.head?, op.mode = .READ_LENGTH) →
    s.ring.header.markers 0 = UInt64.ofNat (ringFrameStart writes s.reader.done.length)

theorem frames_buffers (holder : AbstractNopHolder α) (writes : List (List UInt8)) :
    (frames holder (writes.map .buffer)).length
      = (writes.map (fun bytes => 4 + bytes.length)).sum := by
  induction writes with
  | nil => rfl
  | cons bytes writes ih =>
      rw [List.map_cons, List.map_cons, frames_cons, List.length_append, ih, List.sum_cons]
      rw [Content.frame, List.length_append]
      rfl

theorem StreamInv.faithfulLengths {cap : Nat} {writes : List (List UInt8)} {s : Stream α}
    {put : List UInt8} (hinv : StreamInv holder cap (writes.map .buffer) s put) :
    FaithfulLengths writes s := by
  obtain ⟨hbegins, -⟩ := hinv.reader_bound
  cases hinv.reader with
  | between targets todo taken hops hwrites hfit hphase htaken hpos =>
      refine ⟨fun op rest hcons hmode => ?_, hbegins, fun hpoint _ => ?_⟩
      · rw [hops] at hcons
        have hmem : op ∈ targets.map RingbufferReadOperation.make := by
          rw [hcons]
          exact List.mem_cons_self
        obtain ⟨target, -, rfl⟩ := List.mem_map.mp hmem
        exact nomatch (make_mode target).symm.trans hmode
      · rw [hpoint] at hphase
        have hclosed := ((hinv.ring.roles 0).closed hphase.1).1
        rw [hclosed, uncopied_idle hphase.2] at hpos
        have htake : s.reader.done = (writes.take s.reader.done.length).map .buffer := by
          rw [List.map_take]
          exact List.prefix_iff_eq_take.mp hbegins
        rw [hinv.ring.markers, ringFrameStart, ← frames_buffers holder, ← htake, ← htaken]
        exact congrArg UInt64.ofNat hpos
  | within targets c rest op taken hops hwrites hfit hop hphase htaken hpos =>
      refine ⟨fun op' rest' hcons _ => ?_, hbegins, fun _ hfresh => ?_⟩
      · obtain ⟨rfl, -⟩ := List.cons.inj (hops.symm.trans hcons)
        have hwrite : (writes.map (Content.buffer (α := α)))[s.reader.done.length]? = some c := by
          rw [hwrites, List.getElem?_append_right (Nat.le_refl _), Nat.sub_self]
          rfl
        rw [List.getElem?_map, Option.map_eq_some_iff] at hwrite
        obtain ⟨bytes, hbytes, rfl⟩ := hwrite
        exact ⟨bytes, hbytes, hop.len⟩
      · have hmode := hfresh op (by rw [hops]; rfl)
        exact nomatch hop.mode.symm.trans hmode

end Ring

end TpRing

-- ── The stream ───────────────────────────────────────────────────────────────

namespace TpUv.Connection

/-- The same of a connection on which every read allocates. -/
structure FaithfulLengths (c : Connection) : Prop where
  decoded : ∀ op rest, c.readOperations = op :: rest → op.mode = .READ_PAYLOAD →
    ∃ p, c.writes[c.completed.length]? = some p ∧ op.readLength = p.bytes.length
  completed : c.completed
    = (c.writes.take c.completed.length).map (fun p => (p.bytes.length, p.bytes))
  boundary : (∀ op ∈ c.readOperations.head?, op.mode = .READ_LENGTH ∧ op.bytesRead = 0) →
    c.received = ((c.writes.take c.completed.length).map
      (fun p => kLengthSize + p.bytes.length)).sum

variable {c : Connection} {fed : List UInt8}

theorem frameStart_eq (c : Connection) (k : Nat) :
    c.frameStart k = ((c.writes.take k).map (fun p => kLengthSize + p.bytes.length)).sum := by
  rw [frameStart, List.length_flatMap]
  exact congrArg List.sum (List.map_congr_left (fun p _ => length_frame p))

/-- The operation at the front is the image of what it was fed. -/
theorem Framed.front (h : Framed c fed) {op : StreamReadOperation}
    {rest : List StreamReadOperation} (hqueue : c.readOperations = op :: rest) :
    ∃ buffer, op = image buffer fed := by
  have hoperations := h.queue
  rw [hqueue] at hoperations
  cases hreads : c.reads.drop c.completed.length with
  | nil =>
      rw [hreads] at hoperations
      cases hoperations
  | cons buffer later =>
      rw [hreads] at hoperations
      exact ⟨buffer, (List.cons.inj hoperations).1⟩

theorem Framed.faithfulLengths (h : Framed c fed) : FaithfulLengths c := by
  constructor
  · intro op rest hqueue hmode
    obtain ⟨buffer, rfl⟩ := h.front hqueue
    by_cases hsize : fed.length < kLengthSize
    · rw [image_length hsize] at hmode
      exact absurd hmode (by simp)
    have hsize' := Nat.not_lt.mp hsize
    cases hwrites : c.writes.drop c.completed.length with
    | nil =>
        have hstream := congrArg List.length h.stream
        rw [hwrites, List.length_append] at hstream
        have hnone : fed.length = 0 := Nat.eq_zero_of_add_eq_zero_right hstream
        exact absurd (hnone ▸ Nat.zero_lt_succ 7) hsize
    | cons p later =>
        refine ⟨p, ?_, ?_⟩
        · rw [← List.head?_drop, hwrites]
          rfl
        · rw [image_payload hsize', StreamReadOperation.readLength]
          exact fed_length (h.fed_prefix hwrites) hsize'
  · exact h.completed
  · intro hfresh
    have hnone : fed = [] := by
      cases hqueue : c.readOperations with
      | nil =>
          refine h.idle ?_
          have hlength := congrArg List.length h.queue
          rw [hqueue, length_operations] at hlength
          exact List.length_eq_zero_iff.mp hlength.symm
      | cons op rest =>
          obtain ⟨buffer, rfl⟩ := h.front hqueue
          obtain ⟨hmode, hbytes⟩ := hfresh _ (by rw [hqueue]; rfl)
          by_cases hsize : fed.length < kLengthSize
          · rw [image_length hsize] at hbytes
            exact List.length_eq_zero_iff.mp hbytes
          · rw [image_payload (Nat.not_lt.mp hsize)] at hmode
            dsimp only at hmode
            split at hmode <;> exact absurd hmode (by simp)
    rw [h.received_eq, hnone, frameStart_eq]
    exact Nat.add_zero _

end TpUv.Connection

namespace TpRing

/-- **Length headers.**  In every run in which no buffer of `2 ^ 32` bytes or more is written to
    the ring, on a ring of any size and under any interleaving of its two sides, and in every run
    of a stream connection; and no more than that can be had of the ring's header. -/
theorem lengths_faithful {α : Type} {holder : AbstractNopHolder α} {minDataByteSize : UInt64}
    {writes : List (List UInt8)} {reads : Nat} {s : Stream α}
    (hs : s.Reachable holder minDataByteSize (writes.map .buffer) (List.replicate reads .auto))
    (hsmall : ∀ bytes ∈ writes, bytes.length < 2 ^ 32)
    {c : TpUv.Connection} (hc : TpUv.Connection.Reachable c) :
    FaithfulLengths writes s ∧ TpUv.Connection.FaithfulLengths c
      ∧ ∀ n, decodedLength n = n ↔ n < 2 ^ 32 := by
  have hsend : ∀ content ∈ writes.map (Content.buffer (α := α)),
      content.Sendable holder (nextPow2 minDataByteSize).toNat := by
    intro content hmem
    obtain ⟨bytes, hbytes, rfl⟩ := List.mem_map.mp hmem
    exact hsmall bytes hbytes
  have hfit : ∀ p ∈ (List.replicate reads Target.auto).zip (writes.map (Content.buffer (α := α))),
      p.1.Fits p.2 := by
    rintro ⟨target, content⟩ hmem
    obtain ⟨htarget, hcontent⟩ := List.of_mem_zip hmem
    obtain rfl := List.eq_of_mem_replicate htarget
    obtain ⟨bytes, -, rfl⟩ := List.mem_map.mp hcontent
    trivial
  obtain ⟨put, hinv⟩ := reachable_streamInv hs hsend hfit
  obtain ⟨fed, hframed⟩ := TpUv.Connection.framed_of_reachable hc
  exact ⟨hinv.faithfulLengths, hframed.faithfulLengths, decodedLength_iff⟩

/-- A buffer of three bytes that has gone through a ring of eight, and one on a stream. -/
theorem lengths_faithful_small :
    FaithfulLengths [[1, 2, 3]] (Stream.turns sampleHolder 40
        (.make sampleHolder 8 (fun _ => 0) ([[1, 2, 3]].map .buffer) (List.replicate 1 .auto)))
      ∧ ∃ c : TpUv.Connection, c.writes.length = 1 ∧ c.FaithfulLengths := by
  have haccepted : (RingBufferHeader.make 2 8).Accepted := ⟨by decide, by decide, by decide⟩
  have hwritten : TpUv.Connection.Reachable _ := .step .init (.write ⟨[7, 9], by decide⟩)
    (fun i buffer p hread => nomatch hread) rfl
  have hmade : (Stream.make sampleHolder 8 (fun _ => 0) ([[1, 2, 3]].map .buffer)
      (List.replicate 1 .auto)).Reachable sampleHolder 8 ([[1, 2, 3]].map .buffer)
      (List.replicate 1 .auto) := .make _ haccepted
  have hboth := lengths_faithful (hmade.turns sampleHolder 40) (by decide) hwritten
  exact ⟨hboth.1, _, rfl, hboth.2.1⟩

-- ── A buffer of four gigabytes ───────────────────────────────────────────────

section Long

/-- Steps of the writer, or of the reader, alone. -/
def writerSteps {α : Type} (holder : AbstractNopHolder α) : Nat → Stream α → Stream α
  | 0, s => s
  | n + 1, s => writerSteps holder n ((s.writeStep holder).getD s)

/-- Steps of the reader alone. -/
def readerSteps {α : Type} (holder : AbstractNopHolder α) : Nat → Stream α → Stream α
  | 0, s => s
  | n + 1, s => readerSteps holder n ((s.readStep holder).getD s)

/-- A buffer whose length does not fit the header. -/
def longBuffer : List UInt8 := List.replicate 4294967296 0

/-- A ring that has room for nothing but the header. -/
def longStart : Stream UInt8 where
  ring := RingBuffer.make 2 4 (fun _ => 0)
  writer := { ops := [{ ptr := longBuffer, len := 4294967296 }] }
  reader := { ops := [{}] }

/-- The header is written, and the payload is next. -/
def longPayload : Stream UInt8 := writerSteps sampleHolder 4 longStart

/-- The writer has looked at its marker, to write as much as fits of the whole buffer. -/
def longAsked : Stream UInt8 :=
  { longPayload with
    ring := longPayload.ring.setRole 1 { longPayload.ring.roles 1 with
      call := .tailRead (.write longBuffer) true 4294967296
        (longPayload.ring.header.readMarker 1) } }

/-- The writer has committed the header, and the reader has read it. -/
def longRead : Stream UInt8 :=
  readerSteps sampleHolder 4 (writerSteps sampleHolder 3 longAsked)

theorem writerSteps_reachable {α : Type} {holder : AbstractNopHolder α} {minDataByteSize : UInt64}
    {writes : List (Content α)} {reads : List (Target α)} (n : Nat) {s : Stream α}
    (hs : s.Reachable holder minDataByteSize writes reads) :
    (writerSteps holder n s).Reachable holder minDataByteSize writes reads := by
  induction n generalizing s with
  | zero => exact hs
  | succ n ih =>
      refine ih ?_
      cases hstep : s.writeStep holder with
      | none => exact hs
      | some s' => exact hs.write hstep

theorem readerSteps_reachable {α : Type} {holder : AbstractNopHolder α} {minDataByteSize : UInt64}
    {writes : List (Content α)} {reads : List (Target α)} (n : Nat) {s : Stream α}
    (hs : s.Reachable holder minDataByteSize writes reads) :
    (readerSteps holder n s).Reachable holder minDataByteSize writes reads := by
  induction n generalizing s with
  | zero => exact hs
  | succ n ih =>
      refine ih ?_
      cases hstep : s.readStep holder with
      | none => exact hs
      | some s' => exact hs.read hstep

theorem longStart_eq :
    Stream.make sampleHolder 4 (fun _ => 0) [.buffer longBuffer] [.auto] = longStart := by
  have hlen : longBuffer.length = 4294967296 := List.length_replicate
  have hop : RingbufferWriteOperation.make sampleHolder (.buffer longBuffer)
      = { ptr := longBuffer, len := 4294967296 } := by
    rw [RingbufferWriteOperation.make, RingbufferWriteOperation.ofPtr, hlen]
  rw [Stream.make, List.map_singleton, hop]
  rfl

/-- This step is not evaluated, since it asks for the length of the buffer. -/
theorem longAsked_step : longPayload.writeStep sampleHolder = some longAsked := by
  have hlen : longBuffer.length = 4294967296 := List.length_replicate
  have hops : longPayload.writer.ops
      = [{ mode := .WRITE_PAYLOAD, ptr := longBuffer, len := 4294967296 }] := by rfl
  have hpoint : longPayload.writer.point = .payload := by rfl
  have hcall : (longPayload.ring.roles 1).call = .idle := by rfl
  have htx : (longPayload.ring.roles 1).inTx = true := by rfl
  have hring : longPayload.ring.step id (.writeInTx true longBuffer) 1 = some longAsked.ring := by
    unfold RingBuffer.step
    simp only [hcall, hlen]
    rw [RingBuffer.readTail, if_neg (by rw [htx]; exact Bool.noConfusion), if_neg (by decide)]
    rfl
  have haction : RingbufferWriteOperation.call (α := UInt8)
      { mode := .WRITE_PAYLOAD, ptr := longBuffer, len := 4294967296 } .payload
      = .writeInTx true longBuffer := by
    rw [RingbufferWriteOperation.call, List.drop_zero, List.take_of_length_le]
    exact Nat.le_of_eq hlen
  have htrack : longPayload.ring.track id (.writeInTx true longBuffer) 1 longPayload.history
      = longPayload.history := by
    unfold RingBuffer.track
    simp only [hcall]
  have hpending : longPayload.pending 1 (.writeInTx true longBuffer)
      = .writeInTx true longBuffer := by
    rw [Stream.pending, if_pos hcall]
  have hbusy : (longAsked.ring.roles 1).call ≠ .idle := by
    rw [longAsked, RingBuffer.setRole_self]
    exact Call.noConfusion
  rw [Stream.writeStep, hops]
  dsimp only
  rw [hpoint]
  dsimp only
  rw [if_neg (by rintro ⟨-, hobject, -⟩; exact absurd hobject (by simp)), Stream.writeCall,
    hpoint, haction, hpending, Stream.access, hring, htrack]
  exact congrArg some (if_neg hbusy)

theorem longRead_reachable :
    longRead.Reachable sampleHolder 4 ([longBuffer].map .buffer) (List.replicate 1 .auto) := by
  have haccepted : (RingBufferHeader.make 2 4).Accepted := ⟨by decide, by decide, by decide⟩
  have hstart : longStart.Reachable sampleHolder 4 [.buffer longBuffer] [.auto] := by
    rw [← longStart_eq]
    exact .make _ haccepted
  exact readerSteps_reachable 4 (writerSteps_reachable 3
    (.write (writerSteps_reachable 4 hstart) longAsked_step))

/-- The reader takes a buffer of four gigabytes for an empty one. -/
theorem longRead_empty : longRead.reader.done.length = 0
    ∧ longRead.reader.ops.map (fun op => (op.mode, op.len)) = [(.READ_PAYLOAD, 0)] := by
  decide +kernel

theorem long_length_lost :
    ¬ ∀ (writes : List (List UInt8)) (reads : Nat) (minDataByteSize : UInt64) (s : Stream UInt8),
      s.Reachable sampleHolder minDataByteSize (writes.map .buffer) (List.replicate reads .auto) →
        FaithfulLengths writes s := by
  intro h
  obtain ⟨hdone, hops⟩ := longRead_empty
  obtain ⟨op, hop, hempty⟩ := List.map_eq_singleton_iff.mp hops
  obtain ⟨hmode, hlen⟩ := Prod.mk.inj hempty
  obtain ⟨bytes, hbytes, hsame⟩ := (h _ _ _ _ longRead_reachable).decoded op [] hop hmode
  rw [hdone] at hbytes
  obtain rfl : longBuffer = bytes := Option.some.inj hbytes
  have hfour : longBuffer.length = 4294967296 := List.length_replicate
  exact absurd (hlen.symm.trans (hsame.trans hfour)) (by decide)

end Long

end TpRing
