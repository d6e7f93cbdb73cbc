import Mathlib.Data.List.Induction
import Mathlib.Tactic.Common
import Tensorpipe.CudaBasicLayoutProofs

/-! # When the callback of a buffer is invoked

    One callback stands for all chunks of a buffer, and only the last one carries it.  So its
    meaning rests on the order in which the chunks are done: a chunk must not be done before
    the previous one of its buffer.  Most transitions wait for the previous operation and
    keep this order.  The two shortcuts that finish a chunk of a CPU buffer do not; they keep
    it if the inner channel completes the chunks of a CPU buffer in order. -/

namespace TpCudaBasic

open TpStateMachine TpAllocator

-- ── Series of chunks ─────────────────────────────────────────────────────────

/-- What the two halves differ in.  A chunk that is `Released` leaves, or has left, the point
    where it carries out its callback; the previous chunk of its buffer must then have
    `Passed`.  A chunk of a CPU buffer that was `Given` to the inner channel follows one that
    `Reached` it.  With an error, the states that `Follow` each other are fewer.  `Fact` is
    what a callback tells about each chunk of its buffer. -/
structure Series (Op State Call : Type) where
  callback : Op → Bool
  inner : Call → Option Nat
  Released : Op → Prop
  Passed : Bool → State → Prop
  Given : Chunk → State → Prop
  Reached : State → Prop
  Follows : State → Chunk → State → Prop
  Fact : Bool → Nat → Chunk → List (Event Call) → Prop

section Series

variable {Op State Call : Type} [Operation Op State]

/-- What a move owes to the series. -/
structure SeriesMoved (K : Kind Op State Call) (S : Series Op State Call) (error : Bool)
    (prev : State) (w : List (Event Call)) (op op' : Op) (es : List (Event Call)) : Prop where
  chunk : K.chunk op' = K.chunk op
  passed : ∀ cpu, S.Passed cpu (Operation.state op) → S.Passed cpu (Operation.state op')
  reached : S.Reached (Operation.state op) → S.Reached (Operation.state op')
  follows : error = true → ∀ k st, S.Follows (Operation.state op) k st →
    S.Follows (Operation.state op') k st
  followed : error = true → S.Follows prev (K.chunk op) (Operation.state op) →
    S.Follows prev (K.chunk op) (Operation.state op')
  released : S.Released op' → S.Released op ∨ S.Passed (K.chunk op).isCpuBuffer prev
    ∨ (error = true ∧ (S.Follows prev (K.chunk op) (Operation.state op) →
      S.Passed (K.chunk op).isCpuBuffer prev))
  given : S.Given (K.chunk op) (Operation.state op') →
    S.Given (K.chunk op) (Operation.state op) ∨ S.Reached prev
  unflagged : S.callback op' = true → S.callback op = true
  events : ∃ called rest, es = callbackEvents called (K.chunk op).bufferSequenceNumber error ++ rest
    ∧ (∀ b e, .callback b e ∉ rest)
    ∧ (called = true → S.callback op = true ∧ S.Released op'
      ∧ S.Fact error (sequenceNumber op) (K.chunk op) w)
  silent : error = true → ∀ c, .issued c ∉ es

/-- What a kind of operation has to fulfil for the callback of its buffers to come last. -/
structure SeriesLaws (K : Kind Op State Call)
    (ts : Bool → List (Transition (Staging Call) Op State)) (S : Series Op State Call) : Prop where
  machine : Machine K ts
  moved : ∀ error, ∀ t ∈ ts error, ∀ s op w prev, K.Stored error op w →
    Operation.state op = t.source → t.cond op prev = true →
    ∃ y es, runActions t.actions (s, op) = .returns y ∧ y.1.log = s.log ++ es
      ∧ SeriesMoved K S error prev w op (withState y.2 t.target) es
  passed_finished : ∀ cpu, S.Passed cpu (finished Op)
  reached_finished : S.Reached (finished Op)
  follows_finished : ∀ k st, S.Follows (finished Op) k st
  passed_released : ∀ op, S.Passed (K.chunk op).isCpuBuffer (Operation.state op) → S.Released op
  captures_inner : ∀ c n, S.inner c = some n → K.captures c = some n
  stored_mem : ∀ e op w, K.Stored e op w →
    ∃ callback, .emplaced (sequenceNumber op) (K.chunk op) callback ∈ w
  stored_fact : ∀ e op w, K.Stored e op w →
    S.Passed (K.chunk op).isCpuBuffer (Operation.state op) →
    S.Fact e (sequenceNumber op) (K.chunk op) w
  gone_fact : ∀ e n k w, K.Gone e n k w → S.Fact e n k w
  follows_stable : ∀ p op w w', K.Stored false p w → K.Stored false op w' →
    (K.chunk p).isCpuBuffer = (K.chunk op).isCpuBuffer →
    ¬ Enabled (ts false) (Operation.state p) op →
    S.Follows (Operation.state p) (K.chunk op) (Operation.state op)
  passed_inner : ∀ e p w prev, K.Stored e p w → (K.chunk p).isCpuBuffer = true →
    S.Reached (Operation.state p) → ¬ Enabled (ts e) prev p →
    (∀ c, S.inner c = some (sequenceNumber p) → .issued c ∈ w → .reported c ∈ w) →
    S.Passed true (Operation.state p)

/-- Whenever a callback is invoked, its fact holds of every chunk of the buffer. -/
def CallbackOk (K : Kind Op State Call) (S : Series Op State Call)
    (before : List (Event Call)) (e : Event Call) : Prop :=
  ∀ b error, e = .callback b error → ∀ buffer length, .submitted b buffer length ∈ before →
    ∀ i < numChunks length, ∃ n callback, .emplaced n (buffer.piece b length i) callback ∈ before
      ∧ S.Fact error n (buffer.piece b length i) (history (Event.about K.captures) n before)

/-- The order of the chunks of a buffer, in a walk that started with the log `start`. -/
structure SeriesInv (K : Kind Op State Call) (S : Series Op State Call) (error : Bool)
    (start log : List (Event Call)) (ops : List Op) : Prop where
  released : Chained (fun prev op => (K.chunk op).chunkId ≠ 0 → S.Released op →
    S.Passed (K.chunk op).isCpuBuffer prev) (finished Op) ops
  given : Chained (fun prev op => (K.chunk op).chunkId ≠ 0 →
    S.Given (K.chunk op) (Operation.state op) → S.Reached prev) (finished Op) ops
  follows : error = true → Chained (fun prev op => (K.chunk op).chunkId ≠ 0 →
    S.Follows prev (K.chunk op) (Operation.state op)) (finished Op) ops
  flagged : ∀ op ∈ ops, S.callback op = true → (K.chunk op).isLast = true
  checked : Always (CallbackOk K S) log
  silent : error = true → ∀ c, .issued c ∈ log → .issued c ∈ start

variable {K : Kind Op State Call} {ts : Bool → List (Transition (Staging Call) Op State)}
  {S : Series Op State Call} {error : Bool} {next tensors n : Nat} {s s' : Staging Call}
  {start log : List (Event Call)} {ops pre post : List Op} {op op' : Op} {w es : List (Event Call)}

/-- What the layout says about the operation of a chunk. -/
theorem layout_op (hS : SeriesLaws K ts S) (h : ChunkInv K error next s ops)
    (hlayout : Layout tensors s.log) (hop : op ∈ ops) :
    ∃ buffer length first i,
      .submitted (K.chunk op).bufferSequenceNumber buffer length ∈ s.log
      ∧ i < numChunks length ∧ sequenceNumber op = first + i
      ∧ K.chunk op = buffer.piece (K.chunk op).bufferSequenceNumber length i
      ∧ ∀ j ≤ i, ∃ callback, .emplaced (first + j)
        (buffer.piece (K.chunk op).bufferSequenceNumber length j) callback ∈ s.log := by
  obtain ⟨callback, hmem⟩ := hS.stored_mem _ _ _ (h.tracked.stored op hop)
  exact layout_piece hlayout (mem_history.mp hmem).1

/-- A number belongs to one chunk. -/
theorem chunk_unique (hS : SeriesLaws K ts S) (h : ChunkInv K error next s ops) (hop : op ∈ ops)
    {k : Chunk} {callback : Bool} (hmem : .emplaced (sequenceNumber op) k callback ∈ s.log) :
    K.chunk op = k :=
  (hS.machine.lawful.stored_emplaced _ _ _ (h.tracked.stored op hop) _ _ _
    (mem_history.mpr ⟨hmem, rfl⟩)).symm

theorem numbered_sorted (h : Numbered next (pre ++ op :: post)) :
    pre.Pairwise (fun a b => sequenceNumber a < sequenceNumber b) := by
  have hrange := numbered_range h
  have hsorted : ((pre ++ op :: post).map sequenceNumber).Pairwise (· < ·) := by
    rw [hrange]
    exact List.pairwise_lt_range'
  exact (List.pairwise_append.mp (List.pairwise_map.mp hsorted)).1

/-- Below a chunk whose predecessor has passed, all of its buffer have. -/
theorem passed_down (hS : SeriesLaws K ts S) {cpu : Bool} {first : Nat}
    (hcpu : ∀ o ∈ pre, first ≤ sequenceNumber o → (K.chunk o).isCpuBuffer = cpu)
    (hfirst : ∀ o ∈ pre, first < sequenceNumber o → (K.chunk o).chunkId ≠ 0)
    (hsorted : pre.Pairwise (fun a b => sequenceNumber a < sequenceNumber b))
    (hch : Chained (fun prev op => (K.chunk op).chunkId ≠ 0 → S.Released op →
      S.Passed (K.chunk op).isCpuBuffer prev) (finished Op) pre)
    (hlast : S.Passed cpu (lastState (finished Op) pre)) :
    ∀ o ∈ pre, first ≤ sequenceNumber o → S.Passed cpu (Operation.state o) := by
  -- from the last one to the first
  induction pre using List.reverseRecOn with
  | nil => exact nofun
  | append_singleton rest p ih =>
      have hp : p ∈ rest ++ [p] := List.mem_append_right _ (List.mem_singleton_self _)
      have hstate : S.Passed cpu (Operation.state p) := by
        rw [lastState_append] at hlast
        exact hlast
      intro o ho hle
      rcases List.mem_append.mp ho with hrest | hself
      · have hlt : sequenceNumber o < sequenceNumber p :=
          (List.pairwise_append.mp hsorted).2.2 o hrest p (List.mem_singleton_self _)
        obtain ⟨hch', hchp, -⟩ := chained_append.mp hch
        have hpcpu := hcpu p hp (by omega)
        have hreleased : S.Released p := hS.passed_released p (by rw [hpcpu]; exact hstate)
        have hprev := hchp (hfirst p hp (by omega)) hreleased
        rw [hpcpu] at hprev
        exact ih (fun o ho => hcpu o (List.mem_append_left _ ho))
          (fun o ho => hfirst o (List.mem_append_left _ ho)) (List.pairwise_append.mp hsorted).1
          hch' hprev o hrest hle
      · rw [List.mem_singleton.mp hself]
        exact hstate

/-- A callback that the last chunk of a buffer carries out. -/
theorem callback_ok (hS : SeriesLaws K ts S) (h : ChunkInv K error next s (pre ++ op :: post))
    (hlayout : Layout tensors s.log) (hs : SeriesInv K S error start s.log (pre ++ op :: post))
    (hflag : S.callback op = true)
    (hprev : (K.chunk op).chunkId ≠ 0 →
      S.Passed (K.chunk op).isCpuBuffer (lastState (finished Op) pre))
    (hfact : S.Fact error (sequenceNumber op) (K.chunk op)
      (history (Event.about K.captures) (sequenceNumber op) s.log)) :
    CallbackOk K S s.log (.callback (K.chunk op).bufferSequenceNumber error) := by
  have hop : op ∈ pre ++ op :: post := List.mem_append_right _ (List.mem_cons_self ..)
  obtain ⟨buffer, length, first, i, hsub, hi, hn, hchunk, hpieces⟩ := layout_op hS h hlayout hop
  have hlast := hs.flagged op hop hflag
  rw [hchunk, piece_isLast, decide_eq_true_eq] at hlast
  generalize hb : (K.chunk op).bufferSequenceNumber = b at *
  intro b' error' heq buffer' length' hsub' j hj
  obtain ⟨rfl, rfl⟩ := Event.callback.inj heq
  obtain ⟨rfl, rfl⟩ := hlayout.unique _ _ _ _ _ hsub hsub'
  obtain ⟨callback, hmem⟩ := hpieces j (by omega)
  refine ⟨first + j, callback, hmem, ?_⟩
  by_cases hji : j = i
  · subst hji
    rw [← hn, ← hchunk]
    exact hfact
  · have hin := h.lt_next hmem rfl
    rcases h.tracked.cases_lt hin with ⟨o, ho, hon, hstored⟩ | ⟨-, k, hgone⟩
    · -- an operation before this one, in the same buffer
      have hnum := h.tracked.numbered
      have hopre : o ∈ pre := by
        rcases List.mem_append.mp ho with hpre | hrest
        · exact hpre
        · rcases List.mem_cons.mp hrest with rfl | hpost
          · omega
          · have := numbered_front (numbered_append hnum) hpost
            omega
      have hid : (K.chunk op).chunkId ≠ 0 := by
        rw [hchunk, piece_chunkId]
        omega
      have hbelow : ∀ o' ∈ pre, first ≤ sequenceNumber o' → ∃ i' < i,
          sequenceNumber o' = first + i' ∧ K.chunk o' = buffer.piece b length i' := by
        intro o' ho' hle
        have hlt := numbered_pre o' hnum ho'
        have hmid := numbered_mid hnum
        rw [List.length_cons] at hlt
        obtain ⟨callback', hmem'⟩ := hpieces (sequenceNumber o' - first) (by omega)
        refine ⟨sequenceNumber o' - first, by omega, by omega, ?_⟩
        rw [show first + (sequenceNumber o' - first) = sequenceNumber o' by omega] at hmem'
        exact chunk_unique hS h (List.mem_append_left _ ho') hmem'
      have hcpu : (K.chunk op).isCpuBuffer = buffer.isCpuBuffer := by
        rw [hchunk, piece_isCpuBuffer]
      have hsame : ∀ o' ∈ pre, first ≤ sequenceNumber o' →
          (K.chunk o').isCpuBuffer = buffer.isCpuBuffer := by
        intro o' ho' hle
        obtain ⟨i', -, -, hchunk'⟩ := hbelow o' ho' hle
        rw [hchunk', piece_isCpuBuffer]
      have hpassed := passed_down hS hsame
        (fun o' ho' hlt => by
          obtain ⟨i', -, hi', hchunk'⟩ := hbelow o' ho' (Nat.le_of_lt hlt)
          rw [hchunk', piece_chunkId]
          omega)
        (numbered_sorted hnum) (chained_append.mp hs.released).1
        (by rw [← hcpu]; exact hprev hid) o hopre (by omega)
      obtain ⟨i', -, hi', hochunk⟩ := hbelow o hopre (by omega)
      obtain rfl : i' = j := by omega
      have hofact := hS.stored_fact _ _ _ hstored (by rw [hochunk, piece_isCpuBuffer]; exact hpassed)
      rw [hochunk, hon] at hofact
      exact hofact
    · obtain rfl := hS.machine.lawful.gone_emplaced _ _ _ _ hgone _ _ _
        (mem_history.mpr ⟨hmem, rfl⟩)
      exact hS.gone_fact _ _ _ _ hgone

omit [Operation Op State] in
theorem callbackOk_other {e : Event Call} (he : ∀ b error, e ≠ .callback b error)
    (before : List (Event Call)) : CallbackOk K S before e :=
  fun b error heq => absurd heq (he b error)

theorem seriesInv_moved (hS : SeriesLaws K ts S) (h : ChunkInv K error next s (pre ++ op :: post))
    (hlayout : Layout tensors s.log) (hs : SeriesInv K S error start s.log (pre ++ op :: post))
    (hm : SeriesMoved K S error (lastState (finished Op) pre)
      (history (Event.about K.captures) (sequenceNumber op) s.log) op op' es) :
    SeriesInv K S error start (s.log ++ es) (pre ++ op' :: post) := by
  have hop : op ∈ pre ++ op :: post := List.mem_append_right _ (List.mem_cons_self ..)
  have hself := (chained_append.mp hs.released).2.1
  have hprev : (K.chunk op).chunkId ≠ 0 → S.Released op' →
      S.Passed (K.chunk op).isCpuBuffer (lastState (finished Op) pre) := by
    intro hid hreleased
    rcases hm.released hreleased with hold | hpassed | ⟨herror, hfollows⟩
    · exact hself hid hold
    · exact hpassed
    · exact hfollows ((chained_append.mp (hs.follows herror)).2.1 hid)
  refine ⟨?_, ?_, ?_, ?_, ?_, ?_⟩
  · refine chained_set hs.released ?_ (fun o ho hid hreleased => hm.passed _ (ho hid hreleased))
    rw [hm.chunk]
    exact hprev
  · refine chained_set hs.given ?_ (fun o ho hid hgiven => hm.reached (ho hid hgiven))
    rw [hm.chunk]
    intro hid hgiven
    rcases hm.given hgiven with hold | hreached
    · exact (chained_append.mp hs.given).2.1 hid hold
    · exact hreached
  · intro herror
    refine chained_set (hs.follows herror) ?_ (fun o ho hid => hm.follows herror _ _ (ho hid))
    rw [hm.chunk]
    intro hid
    exact hm.followed herror ((chained_append.mp (hs.follows herror)).2.1 hid)
  · intro o ho hflag
    rcases List.mem_append.mp ho with hpre | hmid
    · exact hs.flagged o (List.mem_append_left _ hpre) hflag
    · rcases List.mem_cons.mp hmid with rfl | hpost
      · rw [hm.chunk]
        exact hs.flagged op hop (hm.unflagged hflag)
      · exact hs.flagged o (List.mem_append_right _ (List.mem_cons_of_mem _ hpost)) hflag
  · obtain ⟨called, rest, rfl, hrest, hcalled⟩ := hm.events
    rw [← List.append_assoc]
    refine always_append ?_ (fun e he before => callbackOk_other ?_ before)
    · cases called with
      | false =>
          rw [show (s.log ++ callbackEvents false _ error) = s.log from List.append_nil _]
          exact hs.checked
      | true =>
          obtain ⟨hflag, hreleased, hfact⟩ := hcalled rfl
          exact always_snoc.mpr ⟨hs.checked, callback_ok hS h hlayout hs hflag
            (fun hid => hprev hid hreleased) hfact⟩
    · rintro b error' rfl
      exact hrest b error' he
  · intro herror c hc
    rcases List.mem_append.mp hc with hold | hnew
    · exact hs.silent herror c hold
    · exact absurd hnew (hm.silent herror c)

theorem seriesInv_pop (h : SeriesInv K S error start log (op :: post))
    (hfin : Operation.state op = finished Op) : SeriesInv K S error start log post := by
  refine ⟨?_, ?_, ?_, fun o ho => h.flagged o (List.mem_cons_of_mem _ ho), h.checked, h.silent⟩
  · have hrest := h.released.2
    rw [hfin] at hrest
    exact hrest
  · have hrest := h.given.2
    rw [hfin] at hrest
    exact hrest
  · intro herror
    have hrest := (h.follows herror).2
    rw [hfin] at hrest
    exact hrest

/-- **Walk rule.** -/
theorem SeriesLaws.preserves (hS : SeriesLaws K ts S) (hlayout : Layout tensors start) :
    Preserves (ts error) (fun s ops => Walked K error next start s ops
      ∧ SeriesInv K S error start s.log ops) (fun _ _ => False) where
  numbered := fun _ _ h => ⟨next, h.1.1.tracked.numbered⟩
  fire := by
    rintro s pre op post t ⟨hwalked, hs⟩ ht hsource hcond
    have hstored := hwalked.1.tracked.stored op (List.mem_append_right _ (List.mem_cons_self ..))
    have hfire := hS.machine.preserves.fire s pre op post t hwalked ht hsource hcond
    obtain ⟨y, es, hrun, hlog, hmoved⟩ := hS.moved error t ht s op _ _ hstored hsource hcond
    rw [hrun] at hfire ⊢
    refine ⟨hfire, ?_⟩
    show SeriesInv K S error start y.1.log _
    rw [hlog]
    exact seriesInv_moved hS hwalked.1 (layout_grown hlayout hwalked.2) hs hmoved
  pop := fun _ _ _ h hfin =>
    ⟨hS.machine.preserves.pop _ _ _ h.1 hfin,
      seriesInv_pop h.2 hfin⟩

theorem seriesInv_restart (h : SeriesInv K S error start log ops) :
    SeriesInv K S error log log ops :=
  ⟨h.released, h.given, h.follows, h.flagged, h.checked, fun _ _ hc => hc⟩

theorem chained_of_split {R : State → Op → Prop} {p : State} {ops : List Op}
    (h : ∀ pre op post, ops = pre ++ op :: post → R (lastState p pre) op) : Chained R p ops := by
  induction ops generalizing p with
  | nil => trivial
  | cons hd tl ih =>
      refine ⟨h [] hd tl rfl, ih (fun pre op post hsplit => ?_)⟩
      exact h (hd :: pre) op post (congrArg (hd :: ·) hsplit)

/-- A chunk that is not the first of its buffer stands behind one of the same buffer. -/
theorem same_buffer (hS : SeriesLaws K ts S) (h : ChunkInv K error next s (pre ++ op :: post))
    (hlayout : Layout tensors s.log) (hid : (K.chunk op).chunkId ≠ 0) {p : Op} {rest : List Op}
    (hpre : pre = rest ++ [p]) :
    sequenceNumber p + 1 = sequenceNumber op
      ∧ (K.chunk p).bufferSequenceNumber = (K.chunk op).bufferSequenceNumber
      ∧ (K.chunk p).isCpuBuffer = (K.chunk op).isCpuBuffer := by
  have hop : op ∈ pre ++ op :: post := List.mem_append_right _ (List.mem_cons_self ..)
  have hp : p ∈ pre ++ op :: post := by
    rw [hpre]
    exact List.mem_append_left _ (List.mem_append_right _ (List.mem_singleton_self _))
  have hnum := h.tracked.numbered
  have hmid := numbered_mid hnum
  rw [hpre, List.append_assoc] at hnum
  have hmid' : sequenceNumber p + (op :: post).length + 1 = next := numbered_mid hnum
  rw [List.length_cons] at hmid'
  have hnumber : sequenceNumber p + 1 = sequenceNumber op := by omega
  obtain ⟨buffer, length, first, i, -, -, hn, hchunk, hpieces⟩ := layout_op hS h hlayout hop
  generalize (K.chunk op).bufferSequenceNumber = b at *
  rw [hchunk, piece_chunkId] at hid
  obtain ⟨callback, hmem⟩ := hpieces (i - 1) (by omega)
  have hpmem : .emplaced (sequenceNumber p) (buffer.piece b length (i - 1)) callback ∈ s.log := by
    rw [show sequenceNumber p = first + (i - 1) by omega]
    exact hmem
  have hpchunk := chunk_unique hS h hp hpmem
  refine ⟨hnumber, ?_, ?_⟩
  · rw [hpchunk, piece_buffer]
  · rw [hpchunk, hchunk, piece_isCpuBuffer, piece_isCpuBuffer]

variable {x : Queue Op (Staging Call)} {f : Op → Op} {e : Event Call}

/-- A half between two tasks, with its buffers. -/
structure BufferInv (K : Kind Op State Call)
    (ts : Bool → List (Transition (Staging Call) Op State)) (S : Series Op State Call)
    (error : Bool) (tensors : Nat) (x : Queue Op (Staging Call)) : Prop where
  half : HalfInv K ts error x
  layout : Layout tensors x.outside.log
  complete : Complete none x.outside.log
  series : SeriesInv K S error x.outside.log x.outside.log x.ops

theorem bufferInv_init : BufferInv K ts S error 0 { outside := {} } :=
  ⟨halfInv_init, layout_nil, nofun,
    ⟨trivial, trivial, fun _ => trivial, nofun, always_nil, fun _ _ hc => hc⟩⟩

theorem bufferInv_mono {tensors' : Nat} (h : BufferInv K ts S error tensors x)
    (hle : tensors ≤ tensors') : BufferInv K ts S error tensors' x :=
  ⟨h.half, layout_mono h.layout hle, h.complete, h.series⟩

/-- Events that lay out nothing. -/
theorem seriesInv_append (h : SeriesInv K S error log log ops)
    (hes : ∀ e ∈ es, ∀ before, CallbackOk K S before e) :
    SeriesInv K S error (log ++ es) (log ++ es) ops :=
  ⟨h.released, h.given, h.follows, h.flagged, always_append h.checked hes, fun _ _ hc => hc⟩

theorem seriesInv_record (h : SeriesInv K S error log log ops) (he : CallbackOk K S log e) :
    SeriesInv K S error (log ++ [e]) (log ++ [e]) ops :=
  ⟨h.released, h.given, h.follows, h.flagged, always_snoc.mpr ⟨h.checked, he⟩, fun _ _ hc => hc⟩

/-- At rest the order allows for an error. -/
theorem seriesInv_fail (hS : SeriesLaws K ts S) (h : BufferInv K ts S false tensors x) :
    SeriesInv K S true x.outside.log x.outside.log x.ops := by
  refine ⟨h.series.released, h.series.given, fun _ => chained_of_split ?_, h.series.flagged,
    h.series.checked, fun _ _ hc => hc⟩
  intro pre op post hsplit hid
  have hinv := h.half.quiet.inv
  have hstable := h.half.quiet.stable
  rw [hsplit] at hinv
  rw [Stable, hsplit] at hstable
  rcases List.eq_nil_or_concat pre with rfl | ⟨rest, p, hpre⟩
  · exact hS.follows_finished _ _
  · rw [List.concat_eq_append] at hpre
    obtain ⟨-, -, hcpu⟩ := same_buffer hS hinv h.layout hid hpre
    have hdisabled := (chained_append.mp hstable).2.1
    have hp : p ∈ pre ++ op :: post := by
      rw [hpre]
      exact List.mem_append_left _ (List.mem_append_right _ (List.mem_singleton_self _))
    rw [hpre, lastState_append] at hdisabled ⊢
    exact hS.follows_stable p op _ _ (hinv.tracked.stored p hp)
      (hinv.tracked.stored op (List.mem_append_right _ (List.mem_cons_self ..))) hcpu hdisabled

/-- The chunk before one that the inner channel works on has passed, if the inner channel has
    completed every earlier chunk of the buffer. -/
theorem passed_prev (hS : SeriesLaws K ts S) (h : BufferInv K ts S error tensors x)
    (hsplit : x.ops = pre ++ op :: post) (hid : (K.chunk op).chunkId ≠ 0)
    (hcpu : (K.chunk op).isCpuBuffer = true)
    (hgiven : S.Given (K.chunk op) (Operation.state op))
    (hinner : ∀ n k callback, n < sequenceNumber op → .emplaced n k callback ∈ x.outside.log →
      k.bufferSequenceNumber = (K.chunk op).bufferSequenceNumber →
      ∀ c, S.inner c = some n → .issued c ∈ x.outside.log → .reported c ∈ x.outside.log) :
    S.Passed true (lastState (finished Op) pre) := by
  have hinv := h.half.quiet.inv
  have hstable := h.half.quiet.stable
  have hchain := h.series.given
  rw [hsplit] at hinv hchain
  rw [Stable, hsplit] at hstable
  rcases List.eq_nil_or_concat pre with rfl | ⟨rest, p, hpre⟩
  · exact hS.passed_finished true
  · rw [List.concat_eq_append] at hpre
    obtain ⟨hnumber, hbuffer, hpcpu⟩ := same_buffer hS hinv h.layout hid hpre
    have hp : p ∈ pre ++ op :: post := by
      rw [hpre]
      exact List.mem_append_left _ (List.mem_append_right _ (List.mem_singleton_self _))
    have hreached := (chained_append.mp hchain).2.1 hid hgiven
    have hdisabled := (chained_append.mp hstable).1
    rw [hpre] at hdisabled
    have hstored := hinv.tracked.stored p hp
    obtain ⟨callback, hmem⟩ := hS.stored_mem _ _ _ hstored
    rw [hpre, lastState_append] at hreached ⊢
    refine hS.passed_inner error p _ _ hstored (hpcpu.trans hcpu) hreached
      (chained_append.mp hdisabled).2.1 ?_
    intro c hc hissued
    have hreported := hinner (sequenceNumber p) (K.chunk p) callback (by omega)
      (mem_history.mp hmem).1 hbuffer c hc (mem_history.mp hissued).1
    exact mem_history.mpr ⟨hreported, hS.captures_inner c _ hc⟩

variable [DecidableEq State]

/-- An advance keeps the order of the chunks. -/
theorem SeriesLaws.advance (hS : SeriesLaws K ts S) (h : Ready K ts error n x)
    (hlayout : Layout tensors x.outside.log)
    (hs : SeriesInv K S error x.outside.log x.outside.log x.ops) :
    SeriesInv K S error x.outside.log (x.advance (ts error) n).outside.log
      (x.advance (ts error) n).ops :=
  (quiet_advance (x := x) (hS.preserves hlayout) (hS.machine.forward error)
    ⟨⟨h.inv, grown_refl _⟩, hs⟩ h.frontOpen h.mem h.chained).inv.2

/-- **Emplace rule.** -/
theorem SeriesLaws.emplace (hS : SeriesLaws K ts S) (h : HalfInv K ts false x)
    {first b length i : Nat} {buffer : Buffer}
    (hl : Laying first b buffer length i x.next x.outside.log)
    (hs : SeriesInv K S false x.outside.log x.outside.log x.ops) (hi : i < numChunks length)
    (hnumber : sequenceNumber op = x.next) (horder : K.order (Operation.state op) = 0)
    (hstate : Operation.state op ≠ finished Op)
    (hstored : K.Stored false op [.emplaced x.next (buffer.piece b length i)
      (buffer.piece b length i).isLast])
    (hnew : ¬ S.Released op) (hgiven : ¬ S.Given (K.chunk op) (Operation.state op))
    (hflag : S.callback op = true → (K.chunk op).isLast = true)
    {y : Queue Op (Staging Call)}
    (hy : y = Queue.advance (ts false)
      { next := x.next + 1, ops := x.ops ++ [op]
        outside := x.outside.record (.emplaced x.next (buffer.piece b length i)
          (buffer.piece b length i).isLast) } x.next) :
    Laying first b buffer length (i + 1) y.next y.outside.log
      ∧ SeriesInv K S false y.outside.log y.outside.log y.ops := by
  have hready := hS.machine.ready_emplace h hnumber horder hstate hstored
  have hlaying := laying_emplaced hl hi
  have hpushed : SeriesInv K S false (x.outside.log ++ [.emplaced x.next (buffer.piece b length i)
      (buffer.piece b length i).isLast]) (x.outside.log ++ [.emplaced x.next
      (buffer.piece b length i) (buffer.piece b length i).isLast]) (x.ops ++ [op]) := by
    refine ⟨chained_snoc hs.released (fun _ hreleased => absurd hreleased hnew),
      chained_snoc hs.given (fun _ hg => absurd hg hgiven), nofun, ?_, ?_, fun _ _ hc => hc⟩
    · intro o ho hflag'
      rcases List.mem_append.mp ho with hold | hlast
      · exact hs.flagged o hold hflag'
      · rw [List.mem_singleton.mp hlast] at hflag' ⊢
        exact hflag hflag'
    · refine always_snoc.mpr ⟨hs.checked, callbackOk_other ?_ _⟩
      exact fun _ _ heq => nomatch heq
  have hadvanced := hS.advance hready hlaying.layout hpushed
  obtain ⟨-, hgrown⟩ := hS.machine.advance hready
  rw [← hy] at hadvanced hgrown
  have hnext : y.next = x.next + 1 := by rw [hy]; rfl
  rw [hnext]
  exact ⟨laying_grown hlaying hgrown, seriesInv_restart hadvanced⟩

/-- What a task writes in an operation must not release it early. -/
structure Writes (K : Kind Op State Call) (S : Series Op State Call) (ops : List Op) (op : Op)
    (f : Op → Op) : Prop where
  chunk : K.chunk (f op) = K.chunk op
  callback : S.callback (f op) = S.callback op
  released : ∀ pre post, ops = pre ++ op :: post → (K.chunk op).chunkId ≠ 0 → S.Released (f op) →
    S.Passed (K.chunk op).isCpuBuffer (lastState (finished Op) pre)

omit [DecidableEq State] in
theorem seriesInv_tell (h : SeriesInv K S error log log (pre ++ op :: post))
    (ht : Tells K (sequenceNumber op) f e) (hw : Writes K S (pre ++ op :: post) op f)
    (he : ∀ b error, e ≠ .callback b error) :
    SeriesInv K S error (log ++ [e]) (log ++ [e]) (pre ++ f op :: post) := by
  have hnext : ∀ {P : State → Prop}, P (Operation.state op) → P (Operation.state (f op)) := by
    intro P hP
    rw [ht.state]
    exact hP
  refine ⟨?_, ?_, ?_, ?_, always_snoc.mpr ⟨h.checked, callbackOk_other he _⟩, fun _ _ hc => hc⟩
  · refine chained_set h.released ?_ (fun o ho hid hreleased => hnext (ho hid hreleased))
    rw [hw.chunk]
    exact hw.released pre post rfl
  · refine chained_set h.given ?_ (fun o ho hid hgiven => hnext (ho hid hgiven))
    rw [hw.chunk, ht.state]
    exact (chained_append.mp h.given).2.1
  · intro herror
    refine chained_set (h.follows herror) ?_
      (fun o ho hid => hnext (P := fun st => S.Follows st _ _) (ho hid))
    rw [hw.chunk, ht.state]
    exact (chained_append.mp (h.follows herror)).2.1
  · intro o ho hflag
    rcases List.mem_append.mp ho with hpre | hmid
    · exact h.flagged o (List.mem_append_left _ hpre) hflag
    · rcases List.mem_cons.mp hmid with rfl | hpost
      · rw [hw.chunk]
        rw [hw.callback] at hflag
        exact h.flagged op (List.mem_append_right _ (List.mem_cons_self ..)) hflag
      · exact h.flagged o (List.mem_append_right _ (List.mem_cons_of_mem _ hpost)) hflag

/-- **Tell rule.** -/
theorem SeriesLaws.tell (hS : SeriesLaws K ts S) (h : BufferInv K ts S error tensors x)
    {s : Staging Call} (hop : op ∈ x.ops) (ht : Tells K (sequenceNumber op) f e)
    (hstored : K.Stored error (f op)
      (history (Event.about K.captures) (sequenceNumber op) x.outside.log ++ [e]))
    (hlog : s.log = x.outside.log ++ [e]) (hslots : SlotInv K.asks s)
    (hw : Writes K S x.ops op f) (he : ∀ b error, e ≠ .callback b error)
    (hlayout : e.isLayout = false) {y : Queue Op (Staging Call)}
    (hy : y = Queue.advance (ts error)
      { x with outside := s, ops := modifyOperation (sequenceNumber op) f x.ops }
        (sequenceNumber op)) :
    Layout tensors y.outside.log ∧ Complete none y.outside.log
      ∧ SeriesInv K S error y.outside.log y.outside.log y.ops := by
  have hready := hS.machine.ready_tell h.half hop ht hstored hlog hslots
  have hes : ∀ e' ∈ [e], Event.isLayout e' = false := List.forall_mem_singleton.mpr hlayout
  have hlaid := layout_append h.layout hes
  have hcomplete := complete_append h.complete hes
  rw [← hlog] at hlaid hcomplete
  have htold : SeriesInv K S error s.log s.log (modifyOperation (sequenceNumber op) f x.ops) := by
    obtain ⟨pre, post, hsplit⟩ := List.append_of_mem hop
    have hnum := h.half.quiet.inv.tracked.numbered
    have hs := h.series
    rw [hsplit] at hnum hs hw
    rw [hsplit, modifyOperation_mid hnum f, hlog]
    exact seriesInv_tell hs ht hw he
  have hadvanced := hS.advance hready hlaid htold
  obtain ⟨-, es, hgrown, hinner⟩ := hS.machine.advance hready
  rw [← hy] at hadvanced hgrown
  refine ⟨?_, ?_, seriesInv_restart hadvanced⟩
  · rw [hgrown]
    exact layout_append hlaid (fun e' he' => isLayout_of_inner (hinner e' he'))
  · rw [hgrown]
    exact complete_append hcomplete (fun e' he' => isLayout_of_inner (hinner e' he'))

/-- **Error rule.** -/
theorem SeriesLaws.fail (hS : SeriesLaws K ts S) (h : BufferInv K ts S false tensors x) :
    BufferInv K ts S true tensors (x.advanceAll (ts true))
      ∧ ∀ c, .issued c ∈ (x.advanceAll (ts true)).outside.log → .issued c ∈ x.outside.log := by
  obtain ⟨hhalf, es, hgrown, hinner⟩ := hS.machine.fail h.half
  have hlayout : ∀ e ∈ es, e.isLayout = false := fun e he => isLayout_of_inner (hinner e he)
  have hquiet := quiet_advanceAll (x := x) (hS.preserves h.layout)
    (hS.machine.forward true)
    ⟨⟨chunkInv_error hS.machine.lawful h.half.quiet.inv, grown_refl _⟩, seriesInv_fail hS h⟩
    h.half.quiet.frontOpen (fun _ _ hops => hS.machine.front_waits h.half hops)
  refine ⟨⟨hhalf, ?_, ?_, seriesInv_restart hquiet.inv.2⟩, hquiet.inv.2.silent rfl⟩
  · rw [hgrown]
    exact layout_append h.layout hlayout
  · rw [hgrown]
    exact complete_append h.complete hlayout

end Series

end TpCudaBasic
