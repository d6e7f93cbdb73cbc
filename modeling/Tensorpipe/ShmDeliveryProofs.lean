import Mathlib.Tactic.Common
import Tensorpipe.ShmConnectionProofs

/-! # What two quiet ends have delivered

    When nothing is under way the front operations are stuck: each finds less than it
    wants.  Here it is shown that a read and a write of one ring are never stuck at the
    same time.  What is on the ring ends at a boundary of the frame that the writer is at,
    or within a buffer of it; so either it is all that the reader wants, or the ring is
    empty and the writer has all of its room.

    So two quiet ends have nothing left to deliver: each read for which there is a write
    is completed, whatever the sizes and however small the ring is beside them. -/

namespace TpShm

open TpRing TpCursorRing

section Frames

variable {α : Type} {holder : AbstractNopHolder α} {cap : Nat} {writes : List (Content α)}
  {s s' : Stream α} {put : List UInt8}

theorem frame_length (c : Content α) :
    (c.frame holder).length = 4 + (c.bytes holder).length := by
  rw [Content.frame, List.length_append]
  rfl

/-- Between two calls a side has no transaction. -/
theorem closed_start (hinv : StreamInv holder cap writes s put) {way : Way}
    (hpoint : (s.handling way).point = .start) : (s.role way).Closed := by
  cases way with
  | reads =>
      have hstart : s.reader.point = .start := hpoint
      cases hinv.reader with
      | between targets todo taken hops' hwrites hfit hphase htaken hpos =>
          rw [hstart] at hphase
          exact hphase
      | within targets c rest' op' taken hops' hwrites hfit hop hphase htaken hpos =>
          rw [hstart] at hphase
          exact hphase.1
  | writes =>
      have hstart : s.writer.point = .start := hpoint
      cases hinv.writer with
      | finished hops' hpoint' hdone hclosed hput hpos => exact hclosed
      | front c rest' op' hops' hwrites hop hphase hput hpos =>
          rw [hstart] at hphase
          exact hphase.1

theorem nothing_open (hinv : StreamInv holder cap writes s put) {way : Way}
    (hpoint : (s.handling way).point = .start) :
    (s.role way).txSize.toNat = 0 ∧ (s.role way).uncopied = 0 := by
  have hclosed := closed_start hinv hpoint
  refine ⟨?_, uncopied_idle hclosed.2⟩
  rw [show (s.role way).txSize = 0 from ((hinv.ring.roles way.role).closed hclosed.1).1]
  rfl

/-- The bytes that a stuck reader has taken, and the content that it is at. -/
inductive ReaderAt (holder : AbstractNopHolder α) (writes : List (Content α)) (s : Stream α)
    (wanted : Nat) : Prop where
  | done (hdone : s.reader.done = writes)
  | header (c : Content α) (rest : List (Content α)) (hwrites : writes = s.reader.done ++ c :: rest)
      (hpos : s.history.pos 0 = (frames holder s.reader.done).length) (hwanted : wanted = 4)
  | payload (c : Content α) (rest : List (Content α)) (moved : Nat)
      (hwrites : writes = s.reader.done ++ c :: rest)
      (hpos : s.history.pos 0 = (frames holder s.reader.done).length + 4 + moved)
      (hmoved : moved < (c.bytes holder).length)
      (hwanted : wanted = 1 ∨ moved = 0 ∧ wanted = (c.bytes holder).length
        ∧ ∃ a, c = .object a)

theorem readerAt (hinv : StreamInv holder cap writes s put) (hpoint : s.reader.point = .start)
    {op : RingbufferReadOperation α} {rest : List (RingbufferReadOperation α)}
    (hops : s.reader.ops = op :: rest) : ReaderAt holder writes s op.extent.wanted := by
  obtain ⟨hzero, hnone⟩ : (s.ring.roles 0).txSize.toNat = 0 ∧ (s.ring.roles 0).uncopied = 0 :=
    nothing_open hinv (show (s.handling .reads).point = .start from hpoint)
  cases hinv.reader with
  | between targets todo taken hops' hwrites hfit hphase htaken hpos =>
      rw [hzero, hnone, htaken] at hpos
      cases todo with
      | nil => exact .done (by rw [hwrites, List.append_nil])
      | cons c rest =>
          refine .header c rest hwrites hpos ?_
          cases targets with
          | nil => exact absurd (hops.symm.trans hops') (by simp)
          | cons target targets =>
              rw [hops, List.map_cons] at hops'
              rw [(List.cons.inj hops').1]
              exact if_pos (decide_eq_true (make_mode target))
  | within targets c rest' op' taken hops' hwrites hfit hop hphase htaken hpos =>
      obtain ⟨rfl, -⟩ := List.cons.inj (hops.symm.trans hops')
      rw [hpoint] at hphase hpos
      obtain ⟨-, hcompleted⟩ := hphase
      have hlen : (frames holder s.reader.done ++ (lengthBytes (UInt32.ofNat
          (c.bytes holder).length) ++ (c.bytes holder).take op.bytesRead)).length
          = (frames holder s.reader.done).length + 4 + op.bytesRead := by
        have hheader : (lengthBytes (UInt32.ofNat (c.bytes holder).length)).length = 4 := rfl
        have hle : op.bytesRead ≤ (c.bytes holder).length := hop.len ▸ hop.within
        rw [List.length_append, List.length_append, List.length_take, hheader,
          Nat.min_eq_left hle, Nat.add_assoc]
      rw [hzero, hnone, htaken, hlen] at hpos
      have hless : op.bytesRead < (c.bytes holder).length := by
        rw [← hop.len]
        refine Nat.lt_of_le_of_ne hop.within fun hall => ?_
        rw [RingbufferReadOperation.completed, decide_eq_false_iff_not] at hcompleted
        exact hcompleted ⟨hop.mode, hall⟩
      refine .payload c rest' op.bytesRead hwrites hpos hless ?_
      have hheader : op.extent.header = false := by
        show decide (op.mode = .READ_LENGTH) = false
        rw [hop.mode]
        rfl
      cases c with
      | buffer bytes =>
          have hwhole : op.extent.whole = false := by
            show op.nopObject.isSome = false
            rw [(hop.buffer bytes rfl).1]
            rfl
          refine Or.inl ?_
          rw [Extent.wanted, hheader, hwhole]
          rfl
      | object a =>
          obtain ⟨hsome, hmoved⟩ := hop.object a rfl
          have hwhole : op.extent.whole = true := hsome
          refine Or.inr ⟨?_, ?_, a, rfl⟩
          · rcases hmoved with hnone | ⟨hall, -⟩
            · exact hnone
            · rw [← hop.len] at hless
              omega
          · rw [Extent.wanted, hheader, hwhole, ← hop.len]
            rfl

/-- The bytes that a stuck writer has put, and the content that it is at. -/
inductive WriterAt (holder : AbstractNopHolder α) (cap : Nat) (writes : List (Content α))
    (s : Stream α) (wanted : Nat) : Prop where
  | header (c : Content α) (rest : List (Content α)) (hwrites : writes = s.writer.done ++ c :: rest)
      (hpos : s.history.pos 1 = (frames holder s.writer.done).length) (hwanted : wanted = 4)
  | payload (c : Content α) (rest : List (Content α)) (moved : Nat)
      (hwrites : writes = s.writer.done ++ c :: rest)
      (hpos : s.history.pos 1 = (frames holder s.writer.done).length + 4 + moved)
      (hmoved : moved < (c.bytes holder).length) (hobject : ∀ a, c = .object a → moved = 0)
      (hwanted : wanted ≤ max 1 cap)

theorem writerAt (hinv : StreamInv holder cap writes s put)
    (hsend : ∀ c ∈ writes, c.Sendable holder cap) (hpoint : s.writer.point = .start)
    {op : RingbufferWriteOperation α} {rest : List (RingbufferWriteOperation α)}
    (hops : s.writer.ops = op :: rest) : WriterAt holder cap writes s op.extent.wanted := by
  obtain ⟨hzero, hnone⟩ : (s.ring.roles 1).txSize.toNat = 0 ∧ (s.ring.roles 1).uncopied = 0 :=
    nothing_open hinv (show (s.handling .writes).point = .start from hpoint)
  cases hinv.writer with
  | finished hops' => exact absurd (hops.symm.trans hops') (by simp)
  | front c rest' op' hops' hwrites hop hphase hput hpos =>
      obtain ⟨rfl, -⟩ := List.cons.inj (hops.symm.trans hops')
      have hc : c.Sendable holder cap := hsend c (by rw [hwrites]; simp)
      rw [hpoint] at hphase hput hpos
      obtain ⟨-, hcompleted⟩ := hphase
      rw [hzero, hnone] at hpos
      have hpos' : s.history.pos 1 = put.length := hpos
      have hlength := congrArg List.length hput
      rw [hwrites, frames_append, frames_cons] at hlength
      simp only [List.length_append, frame_length] at hlength
      cases hmode : op.mode with
      | WRITE_LENGTH =>
          refine .header c rest' hwrites ?_ (if_pos (decide_eq_true hmode))
          have hleft : (op.left holder c .start).length = 4 + (c.bytes holder).length := by
            rw [RingbufferWriteOperation.left, if_pos hmode, frame_length]
            exact fun _ _ _ => Point.noConfusion
          omega
      | WRITE_PAYLOAD =>
          have hheader : op.extent.header = false := by
            show decide (op.mode = .WRITE_LENGTH) = false
            rw [hmode]
            rfl
          have hlen : op.len = (c.bytes holder).length := hop.len hc
          have hwithin := hop.within
          have hleft : (op.left holder c .start).length
              = (c.bytes holder).length - op.bytesWritten := by
            rw [RingbufferWriteOperation.left, if_neg (by rw [hmode]; simp), List.length_drop]
            exact fun _ _ _ => Point.noConfusion
          have hless : op.bytesWritten < op.len := by
            refine Nat.lt_of_le_of_ne hwithin fun hall => ?_
            rw [RingbufferWriteOperation.completed, decide_eq_false_iff_not] at hcompleted
            exact hcompleted ⟨hmode, hall⟩
          refine .payload c rest' op.bytesWritten hwrites (by omega) (hlen ▸ hless) ?_ ?_
          · rintro a rfl
            have hsome : op.nopObject.isSome = true := by
              rw [hop.same]
              rfl
            rcases hop.whole hsome with hnone | hall
            · exact hnone
            · exact absurd hall (Nat.ne_of_lt hless)
          · rw [Extent.wanted, hheader, if_neg Bool.noConfusion]
            split
            · rename_i hwhole
              refine Nat.le_trans ?_ (Nat.le_max_right _ _)
              cases c with
              | buffer bytes =>
                  have hnone : op.nopObject.isSome = true := hwhole
                  rw [hop.same] at hnone
                  exact absurd hnone (by simp [RingbufferWriteOperation.make,
                    RingbufferWriteOperation.ofPtr])
              | object a =>
                  show op.len ≤ cap
                  rw [hlen, show ((Content.object a).bytes holder).length = holder.getSize a
                    from hc.2.size]
                  exact hc.1
            · exact Nat.le_max_left _ _

/-- Two points in one list of contents. -/
theorem points_ordered {a b r r' : List (Content α)} {c d : Content α}
    (h : a ++ c :: r = b ++ d :: r') :
    (∃ mid, b = a ++ c :: mid) ∨ (a = b ∧ c = d) ∨ ∃ mid, a = b ++ d :: mid := by
  rcases List.append_eq_append_iff.mp h with ⟨mid, hb, hrest⟩ | ⟨mid, ha, hrest⟩
  · cases mid with
    | nil =>
        rw [List.append_nil] at hb
        exact Or.inr (Or.inl ⟨hb.symm, (List.cons.inj hrest).1⟩)
    | cons x mid =>
        obtain ⟨rfl, -⟩ := List.cons.inj hrest
        exact Or.inl ⟨mid, hb⟩
  · cases mid with
    | nil =>
        rw [List.append_nil] at ha
        exact Or.inr (Or.inl ⟨ha, (List.cons.inj hrest).1.symm⟩)
    | cons x mid =>
        obtain ⟨rfl, -⟩ := List.cons.inj hrest
        exact Or.inr (Or.inr ⟨mid, ha⟩)

theorem frames_length_ge (holder : AbstractNopHolder α) (done mid : List (Content α))
    (c : Content α) :
    (frames holder done).length + 4 + (c.bytes holder).length
      ≤ (frames holder (done ++ c :: mid)).length := by
  rw [frames_append, frames_cons, List.length_append, List.length_append, frame_length]
  omega

theorem ReaderAt.pos_ge {wanted : Nat} (h : ReaderAt holder writes s wanted) :
    s.reader.done = writes ∨ (frames holder s.reader.done).length ≤ s.history.pos 0 := by
  cases h with
  | done hdone => exact Or.inl hdone
  | header c rest hwrites hpos hwanted => exact Or.inr (Nat.le_of_eq hpos.symm)
  | payload c rest moved hwrites hpos hmoved hwanted =>
      right
      omega

theorem WriterAt.pos_ge {wanted : Nat} (h : WriterAt holder cap writes s wanted) :
    (frames holder s.writer.done).length ≤ s.history.pos 1 := by
  cases h with
  | header c rest hwrites hpos hwanted => exact Nat.le_of_eq hpos.symm
  | payload c rest moved hwrites hpos hmoved hobject hwanted => omega

/-- A writer has not put more than the frame that it is at. -/
theorem WriterAt.within {wanted : Nat} (h : WriterAt holder cap writes s wanted) :
    ∃ d rest, writes = s.writer.done ++ d :: rest
      ∧ s.history.pos 1 ≤ (frames holder s.writer.done).length + 4 + (d.bytes holder).length := by
  cases h with
  | header d rest hwrites hpos hwanted => exact ⟨d, rest, hwrites, by omega⟩
  | payload d rest moved hwrites hpos hmoved hobject hwanted => exact ⟨d, rest, hwrites, by omega⟩

/-- A reader whose frame is there to its end is not stuck. -/
theorem ReaderAt.served {wanted : Nat} (h : ReaderAt holder writes s wanted)
    (hstuck : s.history.pos 1 - s.history.pos 0 < wanted)
    (hall : ∀ c rest, writes = s.reader.done ++ c :: rest →
      (frames holder s.reader.done).length + 4 + (c.bytes holder).length ≤ s.history.pos 1) :
    s.reader.done = writes := by
  cases h with
  | done hdone => exact hdone
  | header c rest hwrites hpos hwanted =>
      have hthere := hall c rest hwrites
      omega
  | payload c rest moved hwrites hpos hmoved hwanted =>
      have hthere := hall c rest hwrites
      rcases hwanted with hone | ⟨hzero, hlen, -⟩ <;> omega

/-- A writer that has the whole ring is not stuck. -/
theorem WriterAt.served {wanted : Nat} (h : WriterAt holder cap writes s wanted)
    (hcap : 4 ≤ cap) (hempty : s.history.pos 1 ≤ s.history.pos 0) :
    wanted ≤ s.history.pos 0 + cap - s.history.pos 1 := by
  cases h with
  | header c rest hwrites hpos hwanted => omega
  | payload c rest moved hwrites hpos hmoved hobject hwanted => omega

/-- A reader that has not passed the writer is in the same frame, or has all of its own. -/
theorem ReaderAt.order {wanted wanted' : Nat} (hr : ReaderAt holder writes s wanted)
    (hw : WriterAt holder cap writes s wanted') (hroom : s.history.pos 0 < s.history.pos 1)
    {c : Content α} {rest : List (Content α)} (hwrites : writes = s.reader.done ++ c :: rest) :
    (frames holder s.reader.done).length + 4 + (c.bytes holder).length ≤ s.history.pos 1
      ∨ s.reader.done = s.writer.done := by
  obtain ⟨d, rest', hwrites', hbelow⟩ := hw.within
  rcases points_ordered (hwrites.symm.trans hwrites') with ⟨mid, hbefore⟩ | ⟨hsame, -⟩ |
    ⟨mid, hafter⟩
  · left
    have hlength := frames_length_ge holder s.reader.done mid c
    rw [← hbefore] at hlength
    exact Nat.le_trans hlength hw.pos_ge
  · exact Or.inr hsame
  · -- the reader would be beyond the writer
    rcases hr.pos_ge with hdone | hread
    · rw [hdone] at hwrites
      exact absurd (List.append_right_eq_self.mp hwrites.symm) (by simp)
    · have hlength := frames_length_ge holder s.writer.done mid d
      rw [← hafter] at hlength
      omega

/-- In one frame: what is on the ring is after the length, or within a buffer. -/
theorem ReaderAt.same_frame {wanted wanted' : Nat} (hr : ReaderAt holder writes s wanted)
    (hw : WriterAt holder cap writes s wanted') (hroom : s.history.pos 0 < s.history.pos 1)
    (hreader : s.history.pos 1 - s.history.pos 0 < wanted)
    (hdone : s.reader.done = s.writer.done) : s.reader.done = writes := by
  cases hr with
  | done hall => exact hall
  | header c rest hwrites hpos hwanted =>
      rw [hdone] at hpos
      cases hw with
      | header _ _ _ hpos' _ => omega
      | payload _ _ moved _ hpos' _ _ _ => omega
  | payload c rest moved hwrites hpos hmoved hwanted =>
      rw [hdone] at hpos hwrites
      rcases hwanted with hone | ⟨hzero, hlen, a, rfl⟩
      · omega
      · -- an object is put whole
        cases hw with
        | header _ _ _ hpos' _ => omega
        | payload d rest' moved' hwrites' hpos' _ hobject _ =>
            have hcontent := List.append_cancel_left (hwrites.symm.trans hwrites')
            have hnone := hobject a (List.cons.inj hcontent).1.symm
            omega

/-- **A reader and a writer of one ring are not stuck at the same time**, unless there is
    nothing more to read. -/
theorem ReaderAt.apart {wanted wanted' : Nat} (hr : ReaderAt holder writes s wanted)
    (hw : WriterAt holder cap writes s wanted') (hcap : 4 ≤ cap)
    (hreader : s.history.pos 1 - s.history.pos 0 < wanted)
    (hwriter : s.history.pos 0 + cap - s.history.pos 1 < wanted') : s.reader.done = writes := by
  have hroom : s.history.pos 0 < s.history.pos 1 := by
    by_contra hempty
    exact absurd (hw.served hcap (Nat.le_of_not_lt hempty)) (Nat.not_le_of_lt hwriter)
  by_cases hdone : s.reader.done = s.writer.done
  · exact hr.same_frame hw hroom hreader hdone
  · refine hr.served hreader fun c rest hwrites => ?_
    exact (hr.order hw hroom hwrites).resolve_right hdone

theorem available_start (hinv : StreamInv holder cap writes s put) {way : Way}
    (hpoint : (s.handling way).point = .start) :
    s.available cap way = limit cap s.history.pos way.role - s.history.pos way.role := by
  rw [Stream.available, available, (nothing_open hinv hpoint).1, Nat.add_zero]

/-- What a side that is between two calls and stuck wants. -/
theorem Stuck.wanted (hinv : StreamInv holder cap writes s put) {way : Way}
    (hstuck : Stuck cap s way) (hpoint : (s.handling way).point = .start) {x : Extent}
    (hx : x ∈ (s.handling way).extents.head?) :
    limit cap s.history.pos way.role - s.history.pos way.role < x.wanted := by
  rw [← available_start hinv hpoint]
  exact hstuck x hx

/-- What was read is the first of what was written. -/
theorem done_first (hinv : StreamInv holder cap writes s put) :
    ∃ todo, writes = s.reader.done ++ todo := by
  cases hinv.reader with
  | between targets todo taken hops hwrites hfit hphase htaken hpos => exact ⟨todo, hwrites⟩
  | within targets c rest op taken hops hwrites hfit hop hphase htaken hpos => exact ⟨_, hwrites⟩

/-- A ring whose two sides are stuck: either there is no read, or all is read. -/
theorem read_or_idle (hinv : StreamInv holder cap writes s put)
    (hsend : ∀ c ∈ writes, c.Sendable holder cap) (hcap : 4 ≤ cap)
    (hstart : ∀ way, (s.handling way).point = .start) (hstuck : ∀ way, Stuck cap s way) :
    s.reader.ops = [] ∨ s.reader.done = writes := by
  cases hops : s.reader.ops with
  | nil => exact Or.inl rfl
  | cons op rest =>
      right
      have hreader := readerAt hinv (hstart .reads) hops
      have hless : s.history.pos 1 - s.history.pos 0 < op.extent.wanted :=
        Stuck.wanted hinv (hstuck .reads) (hstart .reads) (by rw [Stream.handling, hops]; rfl)
      cases hinv.writer with
      | finished hops' hpoint' hdone hclosed hput hpos =>
          refine hreader.served hless fun c rest' hwrites => ?_
          have hlength := frames_length_ge holder s.reader.done rest' c
          rw [← hwrites, ← hput, ← hpos] at hlength
          exact hlength
      | front c rest' op' hops' hwrites hop hphase hput hpos =>
          exact hreader.apart (writerAt hinv hsend (hstart .writes) hops') hcap hless
            (Stuck.wanted hinv (hstuck .writes) (hstart .writes)
              (by rw [Stream.handling, hops']; rfl))

/-- The reader after the last frame. -/
theorem read_all (hinv : StreamInv holder cap writes s put) (hpoint : s.reader.point = .start)
    (hread : s.reader.done = writes) : s.history.pos 0 = (frames holder writes).length := by
  obtain ⟨hzero, hnone⟩ : (s.ring.roles 0).txSize.toNat = 0 ∧ (s.ring.roles 0).uncopied = 0 :=
    nothing_open hinv (show (s.handling .reads).point = .start from hpoint)
  cases hinv.reader with
  | between targets todo taken hops hwrites hfit hphase htaken hpos =>
      rw [hzero, hnone, htaken, hread] at hpos
      exact hpos
  | within targets c rest op taken hops hwrites hfit hop hphase htaken hpos =>
      rw [hread] at hwrites
      exact absurd (List.append_right_eq_self.mp hwrites.symm) (by simp)

/-- A ring whose writer is stuck and all of whose contents are read: they are written. -/
theorem written_of_read (hinv : StreamInv holder cap writes s put)
    (hsend : ∀ c ∈ writes, c.Sendable holder cap) (hcap : 4 ≤ cap)
    (hstart : ∀ way, (s.handling way).point = .start) (hstuck : Stuck cap s .writes)
    (hread : s.reader.done = writes) : s.writer.done = writes := by
  cases hinv.writer with
  | finished hops' hpoint' hdone hclosed hput hpos => exact hdone
  | front c rest' op' hops' hwrites hop hphase hput hpos =>
      have hwriter := writerAt hinv hsend (hstart .writes) hops'
      have hroom : s.history.pos 0 + cap - s.history.pos 1 < op'.extent.wanted :=
        Stuck.wanted hinv hstuck (hstart .writes) (by rw [Stream.handling, hops']; rfl)
      refine absurd (hwriter.served hcap ?_) (Nat.not_le_of_lt hroom)
      -- the writer is within a frame, and the reader after the last
      obtain ⟨d, rest, hwrites', hbelow⟩ := hwriter.within
      have hlength := frames_length_ge holder s.writer.done rest d
      rw [← hwrites'] at hlength
      rw [read_all hinv (hstart .reads) hread]
      exact Nat.le_trans hbelow hlength

-- ── The reads that were issued ───────────────────────────────────────────────

/-- The reads of a ring, completed or not. -/
def issued (s : Stream α) : Nat := s.reader.done.length + s.reader.ops.length

theorem readReturned_issued {op : RingbufferReadOperation α}
    {rest : List (RingbufferReadOperation α)} (hops : s.reader.ops = op :: rest) :
    issued (s.readReturned op rest) = issued s := by
  have hset : ∀ (t : Stream α) (next : RingbufferReadOperation α × Point × Nat),
      t.reader.done = s.reader.done → issued (t.setReader rest next) = issued s := by
    intro t next hdone
    rw [issued, issued, hops, Stream.setReader, hdone]
    rfl
  rw [Stream.readReturned]
  dsimp only
  split
  · split
    · exact hset _ _ rfl
    · split
      · show (s.reader.done ++ [op.content]).length + rest.length = issued s
        rw [issued, hops, List.length_append, Nat.add_assoc, Nat.add_comm [op.content].length]
        rfl
      · exact hset _ _ rfl
  · exact hset _ _ rfl

theorem readCall_issued {op : RingbufferReadOperation α}
    {rest : List (RingbufferReadOperation α)} (hops : s.reader.ops = op :: rest)
    (hstep : s.readCall op rest = some s') : issued s' = issued s := by
  obtain ⟨t, haccess, rfl⟩ := Option.map_eq_some_iff.mp hstep
  obtain ⟨ring, hring, rfl⟩ := access_some haccess
  split
  · exact readReturned_issued hops
  · rfl

theorem readStep_issued (hstep : s.readStep holder = some s') : issued s' = issued s := by
  rw [Stream.readStep] at hstep
  split at hstep
  · exact absurd hstep (by simp)
  · rename_i op rest hops
    split at hstep
    · exact absurd hstep (by simp)
    · obtain rfl := Option.some.inj hstep
      rw [issued, issued, hops]
      rfl
    · exact readCall_issued (s := { s with reader := { s.reader with bytesNow := 0 } }) hops hstep
    · split at hstep
      · obtain rfl := Option.some.inj hstep
        rw [issued, issued, hops]
        rfl
      · exact readCall_issued hops hstep
    · exact readCall_issued hops hstep

/-- No step of a call changes what was issued. -/
theorem step_issued {way : Way} (hstep : s.step holder way = some s') : issued s' = issued s := by
  cases way with
  | reads => exact readStep_issued hstep
  | writes => rw [issued, issued, (writeStep_frame hstep).1]

end Frames

section Both

variable {α : Type} {holder : AbstractNopHolder α} {w w' : World α} {e : Bool}

/-- No read is lost and none is made up. -/
def Accounted (w : World α) : Prop := ∀ e, issued (w.inbox e) = (w.asked e).length

theorem Accounted.call (h : Accounted w) {way : Way} {s' : Stream α}
    (hstep : (w.inbox (ringOf e way)).step holder way = some s') :
    Accounted (w.setInbox (ringOf e way) s') := by
  intro e'
  show issued (Function.update w.inbox (ringOf e way) s' e') = (w.asked e').length
  by_cases he : e' = ringOf e way
  · rw [he, Function.update_self, step_issued hstep]
    exact h _
  · rw [Function.update_of_ne he]
    exact h e'

theorem Accounted.run (h : Accounted w) (hrun : w.run holder e = some w') : Accounted w' := by
  cases World.run_step hrun with
  | triggers way rest completed hloops hreturned hnow => exact h
  | around way rest completed hloops hreturned hnow => exact h
  | leaves way rest hloops hreturned hnil => exact h
  | returns way rest s' hloops hreturned hstep hstart => exact h.call hstep
  | onward way rest s' hloops hreturned hstep hstart => exact h.call hstep

theorem Accounted.handle {event : Event α} (h : Accounted w)
    (hhandle : w.handle holder e event = some w') (herror : (w'.ends e).error = false) :
    Accounted w' := by
  cases event with
  | run => exact absurd hhandle (by simp [World.handle])
  | read target =>
      obtain rfl := Option.some.inj hhandle
      split
      · exact h
      · intro e'
        show issued (Function.update w.inbox e _ e') = (Function.update w.asked e _ e').length
        by_cases he : e' = e
        · rw [he, Function.update_self, Function.update_self, List.length_append, ← h e, issued,
            issued, List.length_append, Nat.add_assoc]
          rfl
        · rw [Function.update_of_ne he, Function.update_of_ne he]
          exact h e'
  | write content =>
      obtain rfl := Option.some.inj hhandle
      split
      · exact h
      · intro e'
        show issued (Function.update w.inbox (!e) _ e') = (w.asked e').length
        by_cases he : e' = (!e)
        · rw [he, Function.update_self]
          exact h (!e)
        · rw [Function.update_of_ne he]
          exact h e'
  | setError =>
      obtain rfl := Option.some.inj hhandle
      split at herror
      · rename_i hyes
        exact absurd (hyes.symm.trans herror) (by simp)
      · exact absurd ((congrArg _ (setEnd_self _ _ _)).symm.trans herror) (by simp)
  | initImplFromLoop | handleEventOut | handleEventIn =>
      -- neither the rings nor what was asked for
      rw [World.handle] at hhandle
      split at hhandle
      · obtain rfl := Option.some.inj hhandle
        exact h
      · exact absurd hhandle (by simp)
  | reaction way =>
      rw [World.handle] at hhandle
      split at hhandle
      · exact absurd hhandle (by simp)
      · obtain rfl := Option.some.inj hhandle
        exact h

theorem reachable_accounted (hw : World.Reachable holder w)
    (herror : ∀ e, (w.ends e).error = false) : Accounted w := by
  induction hw with
  | make data => exact fun e => rfl
  | step e event _ hstep ih =>
      have hbefore := ih (World.step_unfailed hstep herror)
      rcases World.step_cases hstep with hrun | ⟨-, hhandle⟩
      · exact hbefore.run hrun
      · exact hbefore.handle hhandle (herror e)

theorem later_nil (holder : AbstractNopHolder α) (s : Stream α) : s.later holder [] [] = s := by
  rw [Stream.later, List.map_nil, List.map_nil, List.append_nil, List.append_nil]

/-- **What two quiet ends have delivered.**  When nothing is under way, the reads of each
    inbox have got the first writes on it, in order, one each as far as both go; and if no
    write is without its read, all writes are completed too. -/
theorem quiet_delivers (hw : World.Reachable holder w) (hquiet : Quiet w)
    (hsend : ∀ e, ∀ c ∈ w.written e, c.Sendable holder kBufferSize.toNat)
    (hfit : ∀ e, ∀ p ∈ (w.asked e).zip (w.written e), p.1.Fits p.2) :
    ∀ e, (w.inbox e).reader.done = (w.written e).take (w.asked e).length
      ∧ ((w.written e).length ≤ (w.asked e).length → (w.inbox e).writer.done = w.written e) := by
  intro e
  have hinv := reachable_worldInv hw hquiet.error _ _ (.nothing hsend hfit)
  obtain ⟨put, hstream⟩ := hinv.streams e
  rw [List.append_nil, later_nil] at hstream
  have hcap : 4 ≤ kBufferSize.toNat := by decide +kernel
  -- the reads are at the end whose inbox it is, and the writes at the other
  have hside : ∀ way, ∃ e', ringOf e' way = e := by
    rintro (_ | _)
    · exact ⟨e, rfl⟩
    · exact ⟨!e, Bool.not_not e⟩
  have hstart : ∀ way, ((w.inbox e).handling way).point = .start := by
    intro way
    obtain ⟨e', he'⟩ := hside way
    have hstill := (hinv.sides e' way).still fun ⟨hhead, _⟩ => by
      rw [hquiet.loops] at hhead
      exact absurd hhead (by simp)
    rwa [he'] at hstill
  have hstuck : ∀ way, Stuck kBufferSize.toNat (w.inbox e) way := by
    intro way
    obtain ⟨e', he'⟩ := hside way
    have hlost := hquiet.stuck hinv e' way
    rwa [he'] at hlost
  have haccounted : (w.inbox e).reader.done.length + (w.inbox e).reader.ops.length
      = (w.asked e).length := reachable_accounted hw hquiet.error e
  obtain ⟨todo, htodo⟩ := done_first hstream
  have hdone : (w.inbox e).reader.done = (w.written e).take (w.asked e).length := by
    rcases read_or_idle hstream (hsend e) hcap hstart hstuck with hidle | hall
    · rw [hidle, List.length_nil, Nat.add_zero] at haccounted
      rw [htodo, ← haccounted, List.take_left]
    · rw [← hall, List.take_of_length_le]
      omega
  refine ⟨hdone, fun hlen => ?_⟩
  rw [List.take_of_length_le hlen] at hdone
  exact written_of_read hstream (hsend e) hcap hstart (hstuck .writes) hdone

end Both

/-- Both inboxes of the exchange: one got its write, the other the first of two. -/
theorem quiet_delivers_exchange :
    ∃ w : World UInt8,
      (w.inbox true).reader.done = [.buffer [1, 2, 3]]
        ∧ (w.inbox true).writer.done = [.buffer [1, 2, 3]]
        ∧ (w.inbox false).reader.done = [.buffer [9]]
        ∧ w.written false = [.buffer [9], .buffer [4, 5]] := by
  obtain ⟨w, hreachable, hquiet, -, hwritten, hasked, -⟩ := exists_exchanged
  have hboth := quiet_delivers hreachable hquiet ?_ ?_
  · have htrue := hboth true
    have hfalse := hboth false
    rw [hwritten, hasked] at htrue hfalse
    exact ⟨w, htrue.1, htrue.2 (by decide), hfalse.1, hwritten false⟩
  · intro e
    rw [hwritten]
    exact sampleWritten_sendable e
  · intro e
    rw [hasked, hwritten]
    exact sampleAsked_fits e

end TpShm
