import Mathlib.Tactic.Common
import Tensorpipe.CudaBasicRunProofs

/-! # How a buffer is cut in chunks

    The loops of `sendImplFromLoop` and `recvImplFromLoop` lay the chunks of a buffer end to
    end, with consecutive numbers, and give the callback to the last one. -/

namespace TpCudaBasic

open TpStateMachine TpAllocator

-- ── Pieces of a buffer ───────────────────────────────────────────────────────

/-- The number of chunks of a tensor. -/
def numChunks (length : Nat) : Nat := ceilOfRatio length kSlotSize

/-- A chunk exists when it starts inside the tensor. -/
theorem lt_numChunks {i length : Nat} : i < numChunks length ↔ i * kSlotSize < length := by
  rw [numChunks, ceilOfRatio, kSlotSize]
  omega

/-- The `i`-th chunk of a buffer. -/
def Buffer.piece (buffer : Buffer) (b length i : Nat) : Chunk :=
  buffer.chunk b length (i * kSlotSize)

section Piece

variable (buffer : Buffer) (b length i : Nat)

@[simp] theorem piece_buffer : (buffer.piece b length i).bufferSequenceNumber = b := by
  cases buffer <;> rfl

@[simp] theorem piece_isCpuBuffer :
    (buffer.piece b length i).isCpuBuffer = buffer.isCpuBuffer := by
  cases buffer <;> rfl

@[simp] theorem piece_numChunks : (buffer.piece b length i).numChunks = numChunks length := by
  cases buffer <;> rfl

@[simp] theorem piece_devicePtr :
    (buffer.piece b length i).devicePtr = buffer.ptr + i * kSlotSize := by
  cases buffer <;> rfl

@[simp] theorem piece_length :
    (buffer.piece b length i).length = min (length - i * kSlotSize) kSlotSize := by
  cases buffer <;> rfl

@[simp] theorem piece_chunkId : (buffer.piece b length i).chunkId = i := by
  have hdiv : i * kSlotSize / kSlotSize = i := Nat.mul_div_cancel i (by decide)
  cases buffer <;> exact hdiv

/-- The last piece is the one with the callback. -/
theorem piece_isLast : (buffer.piece b length i).isLast = decide (i = numChunks length - 1) := by
  rw [Chunk.isLast, piece_chunkId, piece_numChunks]
  rfl

end Piece

/-- Chunks laid end to end from `ptr`, over `length` bytes. -/
def Tiles (ptr length : Nat) : List Chunk → Prop
  | [] => length = 0
  | chunk :: rest => chunk.devicePtr = ptr ∧ 0 < chunk.length ∧ chunk.length ≤ length
      ∧ Tiles (ptr + chunk.length) (length - chunk.length) rest

/-- The pieces from one on tile the rest of the buffer. -/
theorem tiles_pieces (buffer : Buffer) (b length : Nat) :
    ∀ m i, i + m = numChunks length →
      Tiles (buffer.ptr + i * kSlotSize) (length - i * kSlotSize)
        ((List.range' i m).map (buffer.piece b length)) := by
  intro m
  induction m with
  | zero =>
      intro i hi
      have hlast := (not_congr (@lt_numChunks i length)).mp (by omega)
      show length - i * kSlotSize = 0
      omega
  | succ m ih =>
      intro i hi
      have hlt := lt_numChunks.mp (show i < numChunks length by omega)
      refine ⟨piece_devicePtr .., ?_, ?_, ?_⟩
      · rw [piece_length, kSlotSize] at *
        omega
      · rw [piece_length]
        omega
      · have hrest := ih (i + 1) (by omega)
        rw [piece_length]
        by_cases hfull : kSlotSize ≤ length - i * kSlotSize
        · have hnext : (i + 1) * kSlotSize = i * kSlotSize + kSlotSize := Nat.succ_mul ..
          rw [Nat.min_eq_right hfull, Nat.add_assoc, ← hnext, Nat.sub_sub, ← hnext]
          exact hrest
        · -- a chunk that is not full is the last one
          have hm : m = 0 := by
            have := (not_congr (@lt_numChunks (i + 1) length)).mpr (by
              rw [Nat.succ_mul]; omega)
            omega
          subst hm
          show length - i * kSlotSize - min (length - i * kSlotSize) kSlotSize = 0
          omega

-- ── The layout of a log ──────────────────────────────────────────────────────

section Layouts

variable {Call : Type} {log es : List (Event Call)} {tensors b n : Nat} {buffer : Buffer}
  {length first m : Nat}

/-- The chunk of a buffer that an entry emplaces. -/
def Event.chunkOf? (b : Nat) : Event Call → Option (Nat × Chunk × Bool)
  | emplaced n chunk last =>
      if chunk.bufferSequenceNumber = b then some (n, chunk, last) else none
  | _ => none

/-- The chunks of a buffer in the order in which they were emplaced: the number of each, and
    whether it carries the callback. -/
def chunksOf (b : Nat) (log : List (Event Call)) : List (Nat × Chunk × Bool) :=
  log.filterMap (Event.chunkOf? b)

/-- The chunks of a buffer are among the entries. -/
theorem mem_chunksOf {k : Chunk} {callback : Bool} :
    (n, k, callback) ∈ chunksOf b log
      ↔ .emplaced n k callback ∈ log ∧ k.bufferSequenceNumber = b := by
  rw [chunksOf, List.mem_filterMap]
  constructor
  · rintro ⟨e, he, hsome⟩
    cases e with
    | emplaced n' k' callback' =>
        by_cases hb : k'.bufferSequenceNumber = b
        · rw [Event.chunkOf?, if_pos hb] at hsome
          obtain ⟨rfl, hrest⟩ := Prod.mk.inj (Option.some.inj hsome)
          obtain ⟨rfl, rfl⟩ := Prod.mk.inj hrest
          exact ⟨he, hb⟩
        · rw [Event.chunkOf?, if_neg hb] at hsome
          exact nomatch hsome
    | _ => exact nomatch hsome
  · rintro ⟨he, hb⟩
    exact ⟨_, he, if_pos hb⟩

/-- The first `m` chunks of a buffer, numbered from `first`. -/
def pieces (first b : Nat) (buffer : Buffer) (length m : Nat) : List (Nat × Chunk × Bool) :=
  (List.range m).map (fun i =>
    (first + i, buffer.piece b length i, decide (i = numChunks length - 1)))

/-- One piece more. -/
theorem pieces_succ : pieces first b buffer length (m + 1) = pieces first b buffer length m
    ++ [(first + m, buffer.piece b length m, decide (m = numChunks length - 1))] := by
  rw [pieces, List.range_succ, List.map_append]
  rfl

/-- What the pieces of a buffer are. -/
theorem mem_pieces {k : Chunk} {callback : Bool} :
    (n, k, callback) ∈ pieces first b buffer length m ↔ ∃ i < m, n = first + i
      ∧ k = buffer.piece b length i ∧ callback = decide (i = numChunks length - 1) := by
  rw [pieces, List.mem_map]
  constructor
  · rintro ⟨i, hi, heq⟩
    obtain ⟨rfl, hrest⟩ := Prod.mk.inj heq
    obtain ⟨rfl, rfl⟩ := Prod.mk.inj hrest
    exact ⟨i, List.mem_range.mp hi, rfl, rfl, rfl⟩
  · rintro ⟨i, hi, rfl, rfl, rfl⟩
    exact ⟨i, List.mem_range.mpr hi, rfl⟩

/-- The events that lay chunks out. -/
def Event.isLayout : Event Call → Bool
  | submitted _ _ _ => true
  | emplaced _ _ _ => true
  | _ => false

/-- Every chunk belongs to a buffer that was submitted, and the chunks of a buffer are its
    first pieces, in order. -/
structure Layout (tensors : Nat) (log : List (Event Call)) : Prop where
  bounded : ∀ b buffer length, .submitted b buffer length ∈ log → b < tensors
  unique : ∀ b buffer length buffer' length', .submitted b buffer length ∈ log →
    .submitted b buffer' length' ∈ log → buffer = buffer' ∧ length = length'
  known : Always (fun before e => ∀ n k callback, e = .emplaced n k callback →
    ∃ buffer length, .submitted k.bufferSequenceNumber buffer length ∈ before) log
  pieces : ∀ b buffer length, .submitted b buffer length ∈ log →
    ∃ first m, m ≤ numChunks length ∧ chunksOf b log = pieces first b buffer length m

/-- Every buffer but `b` was laid out whole. -/
def Complete (b : Option Nat) (log : List (Event Call)) : Prop :=
  ∀ b' buffer length, b ≠ some b' → .submitted b' buffer length ∈ log →
    ∃ first, chunksOf b' log = pieces first b' buffer length (numChunks length)

/-- Nothing was laid out. -/
theorem layout_nil : Layout 0 ([] : List (Event Call)) := ⟨nofun, nofun, always_nil, nofun⟩

/-- A chunk belongs to a buffer that was submitted. -/
theorem Layout.submitted (h : Layout tensors log) {k : Chunk} {callback : Bool}
    (hmem : .emplaced n k callback ∈ log) :
    ∃ buffer length, .submitted k.bufferSequenceNumber buffer length ∈ log := by
  obtain ⟨before, after, hlog⟩ := List.append_of_mem hmem
  obtain ⟨buffer, length, hsub⟩ := h.known before _ after hlog n k callback rfl
  refine ⟨buffer, length, ?_⟩
  rw [hlog]
  exact List.mem_append_left _ hsub

/-- Other entries emplace no chunk. -/
theorem chunksOf_append_other (hes : ∀ e ∈ es, e.isLayout = false) (b : Nat) :
    chunksOf b (log ++ es) = chunksOf b log := by
  have hnone : es.filterMap (Event.chunkOf? b) = [] := by
    refine List.filterMap_eq_nil_iff.mpr (fun e he => ?_)
    cases e with
    | emplaced n k callback => exact nomatch hes _ he
    | _ => rfl
  rw [chunksOf, List.filterMap_append, hnone, List.append_nil]
  rfl

/-- Entries about the layout are not among the others. -/
theorem mem_layout (hes : ∀ e ∈ es, e.isLayout = false) {e : Event Call} (he : e ∈ log ++ es)
    (hlayout : e.isLayout = true) : e ∈ log := by
  rcases List.mem_append.mp he with hold | hnew
  · exact hold
  · exact nomatch (hes e hnew).symm.trans hlayout

/-- Other events leave the layout as it is. -/
theorem layout_append (h : Layout tensors log) (hes : ∀ e ∈ es, e.isLayout = false) :
    Layout tensors (log ++ es) := by
  refine ⟨?_, ?_, ?_, ?_⟩
  · intro b buffer length hmem
    exact h.bounded b buffer length (mem_layout hes hmem rfl)
  · intro b buffer length buffer' length' hmem hmem'
    exact h.unique b buffer length buffer' length' (mem_layout hes hmem rfl)
      (mem_layout hes hmem' rfl)
  · refine always_append h.known ?_
    rintro e he before n k callback rfl
    exact nomatch hes _ he
  · intro b buffer length hmem
    rw [chunksOf_append_other hes]
    exact h.pieces b buffer length (mem_layout hes hmem rfl)

/-- Other entries leave the buffers complete. -/
theorem complete_append {b : Option Nat} (h : Complete b log)
    (hes : ∀ e ∈ es, e.isLayout = false) : Complete b (log ++ es) := by
  intro b' buffer length hne hmem
  rw [chunksOf_append_other hes]
  exact h b' buffer length hne (mem_layout hes hmem rfl)

/-- Entries about the inside are not about the layout. -/
theorem isLayout_of_inner {e : Event Call} (he : e.isOuter = false) : e.isLayout = false := by
  cases e with
  | submitted _ _ _ => exact nomatch he
  | emplaced _ _ _ => exact nomatch he
  | _ => rfl

/-- Growth leaves the layout. -/
theorem layout_grown {log' : List (Event Call)} (h : Layout tensors log) (hgrown : Grown log log') :
    Layout tensors log' := by
  obtain ⟨es, rfl, hes⟩ := hgrown
  exact layout_append h (fun e he => isLayout_of_inner (hes e he))

/-- The layout allows for more tensors. -/
theorem layout_mono {tensors' : Nat} (h : Layout tensors log) (hle : tensors ≤ tensors') :
    Layout tensors' log :=
  ⟨fun b buffer length hmem => Nat.lt_of_lt_of_le (h.bounded b buffer length hmem) hle, h.unique,
    h.known, h.pieces⟩

/-- A new buffer has no chunks. -/
theorem layout_fresh (h : Layout tensors log) (hb : tensors ≤ b) : chunksOf b log = [] := by
  refine List.eq_nil_iff_forall_not_mem.mpr ?_
  rintro ⟨n, k, callback⟩ hmem
  obtain ⟨hemplaced, rfl⟩ := mem_chunksOf.mp hmem
  obtain ⟨buffer, length, hsub⟩ := h.submitted hemplaced
  have := h.bounded _ _ _ hsub
  omega

/-- The layout in the middle of the loop: `i` chunks of buffer `b` are out. -/
structure Laying (first b : Nat) (buffer : Buffer) (length i next : Nat)
    (log : List (Event Call)) : Prop where
  layout : Layout (b + 1) log
  complete : Complete (some b) log
  submitted : .submitted b buffer length ∈ log
  chunks : chunksOf b log = pieces first b buffer length i
  next : next = first + i

/-- A buffer that was submitted has no chunk yet. -/
theorem laying_submitted (h : Layout b log) (hcomplete : Complete none log) (buffer : Buffer)
    (length next : Nat) :
    Laying next b buffer length 0 next (log ++ [.submitted b buffer length]) := by
  have hmem : ∀ {b' buffer' length'}, .submitted b' buffer' length'
      ∈ log ++ [.submitted b buffer length] → .submitted b' buffer' length' ∈ log
        ∨ (b' = b ∧ buffer' = buffer ∧ length' = length) := by
    intro b' buffer' length' hmem
    rcases List.mem_append.mp hmem with hold | hnew
    · exact Or.inl hold
    · obtain ⟨rfl, rfl, rfl⟩ := Event.submitted.inj (List.mem_singleton.mp hnew)
      exact Or.inr ⟨rfl, rfl, rfl⟩
  have hchunks : ∀ b', chunksOf b' (log ++ [.submitted b buffer length]) = chunksOf b' log := by
    intro b'
    rw [chunksOf, List.filterMap_append]
    exact List.append_nil _
  have hfresh := layout_fresh h (Nat.le_refl b)
  refine ⟨⟨?_, ?_, ?_, ?_⟩, ?_, List.mem_append_right _ (List.mem_singleton_self _), ?_, rfl⟩
  · intro b' buffer' length' hsub
    rcases hmem hsub with hold | ⟨rfl, -, -⟩
    · exact Nat.lt_succ_of_lt (h.bounded _ _ _ hold)
    · exact Nat.lt_succ_self _
  · intro b' buffer' length' buffer'' length'' hsub hsub'
    rcases hmem hsub with hold | ⟨rfl, rfl, rfl⟩
    · rcases hmem hsub' with hold' | ⟨rfl, -, -⟩
      · exact h.unique _ _ _ _ _ hold hold'
      · exact absurd (h.bounded _ _ _ hold) (Nat.lt_irrefl _)
    · rcases hmem hsub' with hold' | ⟨-, rfl, rfl⟩
      · exact absurd (h.bounded _ _ _ hold') (Nat.lt_irrefl _)
      · exact ⟨rfl, rfl⟩
  · exact always_snoc.mpr ⟨h.known, nofun⟩
  · intro b' buffer' length' hsub
    rw [hchunks]
    rcases hmem hsub with hold | ⟨rfl, rfl, rfl⟩
    · exact h.pieces _ _ _ hold
    · exact ⟨0, 0, Nat.zero_le _, hfresh⟩
  · intro b' buffer' length' hne hsub
    rw [hchunks]
    rcases hmem hsub with hold | ⟨rfl, -, -⟩
    · exact hcomplete _ _ _ nofun hold
    · exact absurd rfl hne
  · rw [hchunks]
    exact hfresh

/-- The next chunk of the buffer is laid. -/
theorem laying_emplaced {i next : Nat} (h : Laying first b buffer length i next log)
    (hi : i < numChunks length) :
    Laying first b buffer length (i + 1) (next + 1) (log ++ [.emplaced next
      (buffer.piece b length i) (buffer.piece b length i).isLast]) := by
  have hsub : ∀ {b' buffer' length'}, .submitted b' buffer' length' ∈ log ++ [.emplaced next
      (buffer.piece b length i) (buffer.piece b length i).isLast] →
      .submitted b' buffer' length' ∈ log := by
    intro b' buffer' length' hmem
    rcases List.mem_append.mp hmem with hold | hnew
    · exact hold
    · exact nomatch List.mem_singleton.mp hnew
  have hself : chunksOf b (log ++ [.emplaced next (buffer.piece b length i)
      (buffer.piece b length i).isLast]) = pieces first b buffer length (i + 1) := by
    rw [chunksOf, List.filterMap_append, ← chunksOf, h.chunks, pieces_succ, ← h.next,
      ← piece_isLast buffer b length i]
    exact congrArg (_ ++ ·) (List.filterMap_cons_some (if_pos (piece_buffer ..)))
  have hother : ∀ b', b' ≠ b → chunksOf b' (log ++ [.emplaced next (buffer.piece b length i)
      (buffer.piece b length i).isLast]) = chunksOf b' log := by
    intro b' hne
    rw [chunksOf, List.filterMap_append, List.filterMap_cons_none]
    · exact List.append_nil _
    · refine if_neg ?_
      rw [piece_buffer]
      exact Ne.symm hne
  refine ⟨⟨?_, ?_, ?_, ?_⟩, ?_, List.mem_append_left _ h.submitted, hself, ?_⟩
  · exact fun b' buffer' length' hmem => h.layout.bounded _ _ _ (hsub hmem)
  · exact fun b' _ _ _ _ hmem hmem' => h.layout.unique _ _ _ _ _ (hsub hmem) (hsub hmem')
  · refine always_snoc.mpr ⟨h.layout.known, fun n k callback heq => ?_⟩
    obtain ⟨-, rfl, -⟩ := Event.emplaced.inj heq
    rw [piece_buffer]
    exact ⟨buffer, length, h.submitted⟩
  · intro b' buffer' length' hmem
    by_cases hb : b' = b
    · subst hb
      obtain ⟨rfl, rfl⟩ := h.layout.unique _ _ _ _ _ h.submitted (hsub hmem)
      exact ⟨first, i + 1, hi, hself⟩
    · rw [hother b' hb]
      exact h.layout.pieces _ _ _ (hsub hmem)
  · intro b' buffer' length' hne hmem
    have hb : b' ≠ b := fun heq => hne (congrArg some heq.symm)
    rw [hother b' hb]
    exact h.complete _ _ _ hne (hsub hmem)
  · rw [h.next]
    rfl

/-- Growth leaves a buffer as far as it is laid. -/
theorem laying_grown {i next : Nat} {log' : List (Event Call)}
    (h : Laying first b buffer length i next log) (hgrown : Grown log log') :
    Laying first b buffer length i next log' := by
  obtain ⟨es, rfl, hes⟩ := hgrown
  have hlayout : ∀ e ∈ es, e.isLayout = false := fun e he => isLayout_of_inner (hes e he)
  refine ⟨layout_append h.layout hlayout, complete_append h.complete hlayout,
    List.mem_append_left _ h.submitted, ?_, h.next⟩
  rw [chunksOf_append_other hlayout]
  exact h.chunks

/-- All chunks are out. -/
theorem laying_complete {next : Nat}
    (h : Laying first b buffer length (numChunks length) next log) : Complete none log := by
  intro b' buffer' length' _ hmem
  by_cases hb : b' = b
  · subst hb
    obtain ⟨rfl, rfl⟩ := h.layout.unique _ _ _ _ _ h.submitted hmem
    exact ⟨first, h.chunks⟩
  · exact h.complete _ _ _ (fun heq => hb (Option.some.inj heq).symm) hmem

/-- What the layout says about one chunk: it is a piece of its buffer, and the pieces before
    it have the numbers before its own. -/
theorem layout_piece (h : Layout tensors log) {k : Chunk} {callback : Bool}
    (hmem : .emplaced n k callback ∈ log) :
    ∃ buffer length first i, .submitted k.bufferSequenceNumber buffer length ∈ log
      ∧ i < numChunks length ∧ n = first + i
      ∧ k = buffer.piece k.bufferSequenceNumber length i
      ∧ ∀ j ≤ i, ∃ callback', .emplaced (first + j)
        (buffer.piece k.bufferSequenceNumber length j) callback' ∈ log := by
  obtain ⟨buffer, length, hsub⟩ := h.submitted hmem
  obtain ⟨first, m, hm, hchunks⟩ := h.pieces _ _ _ hsub
  have hin := mem_chunksOf.mpr ⟨hmem, rfl⟩
  rw [hchunks] at hin
  obtain ⟨i, hi, rfl, hk, -⟩ := mem_pieces.mp hin
  refine ⟨buffer, length, first, i, hsub, by omega, rfl, hk, ?_⟩
  intro j hj
  have hpiece : (first + j, buffer.piece k.bufferSequenceNumber length j,
      decide (j = numChunks length - 1)) ∈ chunksOf k.bufferSequenceNumber log := by
    rw [hchunks]
    exact mem_pieces.mpr ⟨j, by omega, rfl, rfl, rfl⟩
  exact ⟨_, (mem_chunksOf.mp hpiece).1⟩

end Layouts

end TpCudaBasic
