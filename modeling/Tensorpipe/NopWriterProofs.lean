import Mathlib.Data.List.GetD
import Mathlib.Tactic.Common
import Tensorpipe.RingOperationProofs

/-! # Writing to two buffers as to one

    Where a grant of the ring wraps, libnop writes through a `NopWriter` that fills a first
    buffer and then spills over into a second one.

    The idea: a position of the output is an address (`Split.cell`), and each write puts its
    bytes at the cells of the next positions.  A writer over one buffer is the same thing with
    an empty second buffer, so the two agree as soon as each of them follows the positions.

    `Skip` is the exception.  Where it spills it fills all of its padding at the end of the
    first buffer, not the part that fits: that is the same only if the second buffer starts
    right there. -/

namespace TpRing

-- ── The writer ───────────────────────────────────────────────────────────────

/-- The memory, and the addresses that have been written to. -/
structure Output where
  memory : Nat → UInt8
  written : List Nat := []

namespace Output

/-- Also `memset`, with as many bytes of one value. -/
def memcpy (out : Output) (ptr : Nat) (bytes : List UInt8) : Output where
  memory a := if ptr ≤ a ∧ a < ptr + bytes.length then bytes.getD (a - ptr) 0 else out.memory a
  written := out.written ++ List.range' ptr bytes.length

end Output

/-- A writer with two buffers, the second of which follows the first. -/
structure NopWriter where
  ptr1 : Nat
  len1 : Nat
  ptr2 : Nat := 0
  len2 : Nat := 0
deriving DecidableEq, Repr

namespace NopWriter

/-- The second buffer takes the place of the first. -/
def spill (w : NopWriter) : NopWriter := { ptr1 := w.ptr2, len1 := w.len2 }

/-- Goes on in the first buffer. -/
def advance (w : NopWriter) (size : Nat) : NopWriter :=
  { w with ptr1 := w.ptr1 + size, len1 := w.len1 - size }

/-- Whether there is room for that many bytes. -/
def Prepare (w : NopWriter) (size : Nat) : ErrorStatus :=
  if size ≤ w.len1 + w.len2 then .None else .WriteLimitReached

/-- Writes one byte, in the second buffer if the first is full. -/
def WriteByte (w : NopWriter) (byte : UInt8) (out : Output) : NopWriter × Output :=
  let w := if w.len1 = 0 then w.spill else w
  (w.advance 1, out.memcpy w.ptr1 [byte])

/-- Writes bytes, across the end of the first buffer if need be. -/
def Write (w : NopWriter) (bytes : List UInt8) (out : Output) : NopWriter × Output :=
  if w.len1 < bytes.length then
    let out := out.memcpy w.ptr1 (bytes.take w.len1)
    let bytes := bytes.drop w.len1
    let w := w.spill
    (w.advance bytes.length, out.memcpy w.ptr1 bytes)
  else (w.advance bytes.length, out.memcpy w.ptr1 bytes)

/-- Leaves out bytes, across the end of the first buffer if need be. -/
def Skip (w : NopWriter) (paddingBytes : Nat) (paddingValue : UInt8) (out : Output) :
    NopWriter × Output :=
  if w.len1 < paddingBytes then
    -- the whole padding, also what does not fit into the first buffer
    let out := out.memcpy w.ptr1 (List.replicate paddingBytes paddingValue)
    let paddingBytes := paddingBytes - w.len1
    let w := w.spill
    (w.advance paddingBytes, out.memcpy w.ptr1 (List.replicate paddingBytes paddingValue))
  else
    (w.advance paddingBytes, out.memcpy w.ptr1 (List.replicate paddingBytes paddingValue))

end NopWriter

/-- A call that libnop makes. -/
inductive NopOp where
  | prepare (size : Nat)
  | writeByte (byte : UInt8)
  | write (bytes : List UInt8)
  | skip (paddingBytes : Nat) (paddingValue : UInt8)
deriving DecidableEq, Repr

namespace NopOp

/-- What a call puts out. -/
def bytes : NopOp → List UInt8
  | prepare _ => []
  | writeByte byte => [byte]
  | write bytes => bytes
  | skip paddingBytes paddingValue => List.replicate paddingBytes paddingValue

/-- How many bytes a call writes. -/
def size (op : NopOp) : Nat := op.bytes.length

end NopOp

namespace NopWriter

/-- One call of the writer. -/
def step (op : NopOp) (w : NopWriter) (out : Output) : ErrorStatus × NopWriter × Output :=
  match op with
  | .prepare size => (w.Prepare size, w, out)
  | .writeByte byte => (.None, w.WriteByte byte out)
  | .write bytes => (.None, w.Write bytes out)
  | .skip paddingBytes paddingValue => (.None, w.Skip paddingBytes paddingValue out)

/-- A sequence of calls: the statuses, and what it leaves. -/
def run : List NopOp → NopWriter → Output → List ErrorStatus × Output
  | [], _, out => ([], out)
  | op :: ops, w, out =>
      let (status, w, out) := w.step op out
      let (statuses, out) := w.run ops out
      (status :: statuses, out)

end NopWriter

-- ── An output area in two pieces ─────────────────────────────────────────────

/-- Two buffers, either possibly empty, that do not overlap. -/
structure Split where
  ptr1 : Nat
  len1 : Nat
  ptr2 : Nat
  len2 : Nat
  apart : ptr1 + len1 ≤ ptr2 ∨ ptr2 + len2 ≤ ptr1

namespace Split

variable (split : Split)

/-- One buffer. -/
def whole (ptr len : Nat) : Split := ⟨ptr, len, 0, 0, Or.inr (Nat.zero_le _)⟩

/-- The room in both buffers. -/
def length : Nat := split.len1 + split.len2

/-- A writer on both buffers. -/
def writer : NopWriter := ⟨split.ptr1, split.len1, split.ptr2, split.len2⟩

/-- Where a position of the output is. -/
def cell (k : Nat) : Nat :=
  if k < split.len1 then split.ptr1 + k else split.ptr2 + (k - split.len1)

/-- The addresses of the two buffers. -/
def Inside (a : Nat) : Prop :=
  split.ptr1 ≤ a ∧ a < split.ptr1 + split.len1 ∨ split.ptr2 ≤ a ∧ a < split.ptr2 + split.len2

/-- The writer, when `used` bytes have been put out. -/
def At (used : Nat) (w : NopWriter) : Prop :=
  used ≤ split.len1
      ∧ w = ⟨split.ptr1 + used, split.len1 - used, split.ptr2, split.len2⟩
    ∨ split.len1 < used
      ∧ w = ⟨split.ptr2 + (used - split.len1), split.length - used, 0, 0⟩

variable {split}

theorem cell_inside {k : Nat} (h : k < split.length) : split.Inside (split.cell k) := by
  rw [cell, Inside]
  rw [length] at h
  by_cases hk : k < split.len1
  · rw [if_pos hk]
    omega
  · rw [if_neg hk]
    omega

theorem cell_injective {j k : Nat} (hj : j < split.length) (hk : k < split.length)
    (h : split.cell j = split.cell k) : j = k := by
  have hapart := split.apart
  rw [length] at hj hk
  rw [cell, cell] at h
  by_cases hj1 : j < split.len1
  · rw [if_pos hj1] at h
    by_cases hk1 : k < split.len1
    · rw [if_pos hk1] at h
      omega
    · rw [if_neg hk1] at h
      omega
  · rw [if_neg hj1] at h
    by_cases hk1 : k < split.len1
    · rw [if_pos hk1] at h
      omega
    · rw [if_neg hk1] at h
      omega

theorem at_init : split.At 0 split.writer := Or.inl ⟨Nat.zero_le _, rfl⟩

end Split

-- ── The tape ─────────────────────────────────────────────────────────────────

/-- A tape with some bytes put at a position. -/
def splice (tape : Nat → UInt8) (used : Nat) (bytes : List UInt8) (k : Nat) : UInt8 :=
  if used ≤ k ∧ k < used + bytes.length then bytes.getD (k - used) 0 else tape k

theorem splice_nil (tape : Nat → UInt8) (used : Nat) : splice tape used [] = tape := by
  ext k
  rw [splice, if_neg]
  rintro ⟨hle, hlt⟩
  exact Nat.lt_irrefl k (Nat.lt_of_lt_of_le hlt hle)

theorem splice_append (tape : Nat → UInt8) (used : Nat) (xs ys : List UInt8) :
    splice (splice tape used xs) (used + xs.length) ys = splice tape used (xs ++ ys) := by
  ext k
  rw [splice, splice, splice, List.length_append]
  by_cases hys : used + xs.length ≤ k ∧ k < used + xs.length + ys.length
  · rw [if_pos hys, if_pos (by omega), List.getD_append_right _ _ _ _ (by omega)]
    rw [Nat.sub_sub]
  · rw [if_neg hys]
    by_cases hxs : used ≤ k ∧ k < used + xs.length
    · rw [if_pos hxs, if_pos (by omega), List.getD_append _ _ _ _ (by omega)]
    · rw [if_neg hxs, if_neg (by omega)]

/-- The buffers show the tape, and nothing outside of them has been written to. -/
structure HoldsTape (split : Split) (out : Output) (tape : Nat → UInt8) : Prop where
  memory : ∀ k < split.length, out.memory (split.cell k) = tape k
  inside : ∀ a ∈ out.written, split.Inside a

section Writes

variable {split : Split} {used : Nat} {w : NopWriter} {out : Output} {tape : Nat → UInt8}

theorem Output.memcpy_memory (out : Output) (ptr : Nat) (bytes : List UInt8) (a : Nat) :
    (out.memcpy ptr bytes).memory a
      = if ptr ≤ a ∧ a < ptr + bytes.length then bytes.getD (a - ptr) 0 else out.memory a := rfl

/-- Putting bytes at the cells of the positions from `used` on. -/
theorem HoldsTape.memcpy (h : HoldsTape split out tape) (used : Nat) (bytes : List UInt8) {ptr : Nat}
    (hroom : used + bytes.length ≤ split.length)
    (hcells : ∀ j < bytes.length, split.cell (used + j) = ptr + j) :
    HoldsTape split (out.memcpy ptr bytes) (splice tape used bytes) := by
  constructor
  · intro k hk
    rw [Output.memcpy_memory, splice]
    by_cases hput : used ≤ k ∧ k < used + bytes.length
    · have hcell := hcells (k - used) (by omega)
      rw [Nat.add_sub_cancel' hput.1] at hcell
      rw [if_pos hput, hcell, if_pos (by omega), Nat.add_sub_cancel_left]
    · rw [if_neg hput]
      have hother : ¬ (ptr ≤ split.cell k ∧ split.cell k < ptr + bytes.length) := by
        rintro ⟨hle, hlt⟩
        have hcell := hcells (split.cell k - ptr) (by omega)
        rw [Nat.add_sub_cancel' hle] at hcell
        have hsame := Split.cell_injective (by omega) hk hcell
        omega
      rw [if_neg hother, h.memory k hk]
  · intro a ha
    rcases List.mem_append.mp ha with hold | hnew
    · exact h.inside a hold
    · rw [List.mem_range'_1] at hnew
      have hcell := hcells (a - ptr) (by omega)
      rw [Nat.add_sub_cancel' hnew.1] at hcell
      rw [← hcell]
      exact Split.cell_inside (by omega)

/-- In the first buffer. -/
theorem HoldsTape.first (h : HoldsTape split out tape) (used : Nat) (bytes : List UInt8)
    (hroom : used + bytes.length ≤ split.len1) :
    HoldsTape split (out.memcpy (split.ptr1 + used) bytes) (splice tape used bytes) := by
  refine h.memcpy used bytes (Nat.le_trans hroom (Nat.le_add_right _ _)) (fun j hj => ?_)
  rw [Split.cell, if_pos (by omega), Nat.add_assoc]

/-- In the second. -/
theorem HoldsTape.second (h : HoldsTape split out tape) (bytes : List UInt8)
    (hused : split.len1 ≤ used) (hroom : used + bytes.length ≤ split.length) :
    HoldsTape split (out.memcpy (split.ptr2 + (used - split.len1)) bytes)
      (splice tape used bytes) := by
  refine h.memcpy used bytes hroom (fun j _ => ?_)
  rw [Split.cell, if_neg (by omega)]
  omega

/-- A write that fits into what is left of the buffer at hand. -/
theorem HoldsTape.fits (h : HoldsTape split out tape) (hat : split.At used w) (bytes : List UInt8)
    (hfits : bytes.length ≤ w.len1) :
    split.At (used + bytes.length) (w.advance bytes.length)
      ∧ HoldsTape split (out.memcpy w.ptr1 bytes) (splice tape used bytes) := by
  rcases hat with ⟨hused, rfl⟩ | ⟨hused, rfl⟩
  · have hroom : used + bytes.length ≤ split.len1 := by
      dsimp only at hfits
      omega
    refine ⟨Or.inl ⟨hroom, ?_⟩, h.first used bytes hroom⟩
    rw [NopWriter.advance, Nat.add_assoc, Nat.sub_sub]
  · dsimp only at hfits
    have hlt : split.len1 < used + bytes.length := by omega
    refine ⟨Or.inr ⟨hlt, ?_⟩, ?_⟩
    · rw [NopWriter.advance, Nat.sub_sub]
      congr 1
      dsimp only
      omega
    · by_cases hover : used + bytes.length ≤ split.length
      · exact h.second bytes (Nat.le_of_lt hused) hover
      · -- nothing is left, and nothing is written
        have hnil : bytes = [] := List.length_eq_zero_iff.mp (by omega)
        subst hnil
        rw [splice_nil]
        refine ⟨fun k hk => ?_, fun a ha => ?_⟩
        · rw [Output.memcpy_memory, if_neg (by simp only [List.length_nil]; omega)]
          exact h.memory k hk
        · rcases List.mem_append.mp ha with hold | hnew
          · exact h.inside a hold
          · exact absurd hnew List.not_mem_nil

/-- What does not fit goes to the second buffer, from its start on. -/
theorem HoldsTape.spill (h : HoldsTape split out tape) (rest : List UInt8)
    (hw : w.ptr2 = split.ptr2 ∧ w.len2 = split.len2) (hpos : 0 < rest.length)
    (hroom : split.len1 + rest.length ≤ split.length) :
    split.At (split.len1 + rest.length) (w.spill.advance rest.length)
      ∧ HoldsTape split (out.memcpy w.spill.ptr1 rest) (splice tape split.len1 rest) := by
  constructor
  · refine Or.inr ⟨by omega, ?_⟩
    rw [NopWriter.spill, NopWriter.advance, hw.1, hw.2, Nat.add_sub_cancel_left, Split.length,
      Nat.add_sub_add_left]
  · have hsecond := h.second rest (Nat.le_refl _) hroom
    rw [Nat.sub_self, Nat.add_zero] at hsecond
    rw [NopWriter.spill, hw.1]
    exact hsecond

end Writes

-- ── One call ─────────────────────────────────────────────────────────────────

/-- The calls from the position `used` on stay within the room there is. -/
def WithinRoom (length : Nat) : Nat → List NopOp → Prop
  | _, [] => True
  | used, op :: ops => used + op.size ≤ length ∧ WithinRoom length (used + op.size) ops

/-- A skip that begins in the first buffer, or right behind it, and does not end there. -/
def NopOp.Straddles (split : Split) (used : Nat) : NopOp → Prop
  | .skip paddingBytes _ => used ≤ split.len1 ∧ split.len1 < used + paddingBytes
  | _ => False

/-- Some skip of the sequence straddles. -/
def SomeStraddles (split : Split) : Nat → List NopOp → Prop
  | _, [] => False
  | used, op :: ops => op.Straddles split used ∨ SomeStraddles split (used + op.size) ops

/-- The status of a call at the position `used`. -/
def NopOp.status (length used : Nat) : NopOp → ErrorStatus
  | .prepare size => if size ≤ length - used then .None else .WriteLimitReached
  | _ => .None

/-- What the calls return, one after the other. -/
def statuses (length : Nat) : Nat → List NopOp → List ErrorStatus
  | _, [] => []
  | used, op :: ops => op.status length used :: statuses length (used + op.size) ops

/-- Everything that a sequence of calls puts out. -/
def output (ops : List NopOp) : List UInt8 := ops.flatMap NopOp.bytes

section Step

variable {split : Split} {used : Nat} {w : NopWriter} {out : Output} {tape : Nat → UInt8}

theorem Split.At.left (hat : split.At used w) :
    w.len1 + w.len2 = split.length - used := by
  rcases hat with ⟨hle, rfl⟩ | ⟨-, rfl⟩
  · rw [Split.length]
    dsimp only
    omega
  · rfl

/-- A writer that has to spill is still in the first buffer. -/
theorem Split.At.first (hat : split.At used w) {size : Nat} (hspill : w.len1 < size)
    (hroom : used + size ≤ split.length) :
    used ≤ split.len1 ∧ w = ⟨split.ptr1 + used, split.len1 - used, split.ptr2, split.len2⟩ := by
  rcases hat with hfirst | ⟨-, rfl⟩
  · exact hfirst
  · have hlt : split.length - used < size := hspill
    omega

/-- A write in two parts, each of which fits. -/
theorem HoldsTape.spilled {bytes : List UInt8} (h : HoldsTape split out tape) (hat : split.At used w)
    (hspill : w.len1 < bytes.length) (hroom : used + bytes.length ≤ split.length) :
    split.At (used + bytes.length) (w.spill.advance (bytes.drop w.len1).length)
      ∧ HoldsTape split ((out.memcpy w.ptr1 (bytes.take w.len1)).memcpy w.spill.ptr1
          (bytes.drop w.len1)) (splice tape used bytes) := by
  obtain ⟨hused, rfl⟩ := hat.first hspill hroom
  dsimp only at hspill ⊢
  have htake : (bytes.take (split.len1 - used)).length = split.len1 - used := by
    rw [List.length_take]
    omega
  have hdrop : (bytes.drop (split.len1 - used)).length = used + bytes.length - split.len1 := by
    rw [List.length_drop]
    omega
  have hfirst := h.first used (bytes.take (split.len1 - used)) (by omega)
  have hrest := hfirst.spill
    (w := ⟨split.ptr1 + used, split.len1 - used, split.ptr2, split.len2⟩)
    (bytes.drop (split.len1 - used)) ⟨rfl, rfl⟩ (by omega) (by omega)
  have hsplice : splice (splice tape used (bytes.take (split.len1 - used))) split.len1
      (bytes.drop (split.len1 - used)) = splice tape used bytes := by
    have happend := splice_append tape used (bytes.take (split.len1 - used))
      (bytes.drop (split.len1 - used))
    rwa [htake, Nat.add_sub_cancel' hused, List.take_append_drop] at happend
  rw [hsplice] at hrest
  refine ⟨?_, hrest.2⟩
  have hend : split.len1 + (bytes.drop (split.len1 - used)).length = used + bytes.length := by
    omega
  exact hend ▸ hrest.1

/-- Where the second buffer starts right behind the first, what is filled beyond the first
    is the start of the second, and is filled again with the same value. -/
theorem HoldsTape.overfilled {paddingBytes : Nat} {paddingValue : UInt8} (h : HoldsTape split out tape)
    (hat : split.At used w) (hspill : w.len1 < paddingBytes)
    (hroom : used + paddingBytes ≤ split.length) (hnext : split.ptr1 + split.len1 = split.ptr2) :
    split.At (used + paddingBytes) (w.spill.advance (paddingBytes - w.len1))
      ∧ HoldsTape split ((out.memcpy w.ptr1 (List.replicate paddingBytes paddingValue)).memcpy
          w.spill.ptr1 (List.replicate (paddingBytes - w.len1) paddingValue))
          (splice tape used (List.replicate paddingBytes paddingValue)) := by
  obtain ⟨hused, rfl⟩ := hat.first hspill hroom
  dsimp only at hspill ⊢
  have hcells : ∀ j < (List.replicate paddingBytes paddingValue).length,
      split.cell (used + j) = split.ptr1 + used + j := by
    intro j _
    rw [Split.cell]
    split <;> omega
  have hall := h.memcpy used _ (by rwa [List.length_replicate]) hcells
  have hrest := hall.spill
    (w := ⟨split.ptr1 + used, split.len1 - used, split.ptr2, split.len2⟩)
    (List.replicate (paddingBytes - (split.len1 - used)) paddingValue) ⟨rfl, rfl⟩
    (by rw [List.length_replicate]; omega) (by rw [List.length_replicate]; omega)
  have hsame : splice (splice tape used (List.replicate paddingBytes paddingValue)) split.len1
      (List.replicate (paddingBytes - (split.len1 - used)) paddingValue)
      = splice tape used (List.replicate paddingBytes paddingValue) := by
    ext k
    rw [splice, splice, List.length_replicate, List.length_replicate]
    by_cases hin : split.len1 ≤ k
        ∧ k < split.len1 + (paddingBytes - (split.len1 - used))
    · rw [if_pos hin, if_pos (by omega), List.getD_replicate _ (by omega),
        List.getD_replicate _ (by omega)]
    · rw [if_neg hin]
  rw [hsame, List.length_replicate] at hrest
  refine ⟨?_, hrest.2⟩
  have hend : split.len1 + (paddingBytes - (split.len1 - used)) = used + paddingBytes := by omega
  exact hend ▸ hrest.1

/-- **One call.**  Within the room, and if it does not straddle or the buffers are next to each
    other, a call puts its bytes at the next positions. -/
theorem HoldsTape.step {op : NopOp} (h : HoldsTape split out tape) (hat : split.At used w)
    (hroom : used + op.size ≤ split.length)
    (hskip : ¬ op.Straddles split used ∨ split.ptr1 + split.len1 = split.ptr2) :
    (w.step op out).1 = op.status split.length used
      ∧ split.At (used + op.size) (w.step op out).2.1
      ∧ HoldsTape split (w.step op out).2.2 (splice tape used op.bytes) := by
  cases op with
  | prepare size =>
      refine ⟨?_, hat, ?_⟩
      · rw [NopWriter.step, NopWriter.Prepare, hat.left]
        rfl
      · rw [NopOp.bytes, splice_nil]
        exact h
  | writeByte byte =>
      refine ⟨rfl, ?_⟩
      rw [NopWriter.step, NopWriter.WriteByte]
      by_cases hzero : w.len1 = 0
      · rw [if_pos hzero]
        obtain ⟨hused, rfl⟩ := hat.first (by rw [hzero]; exact Nat.one_pos) hroom
        have hend : used = split.len1 := Nat.le_antisymm hused (Nat.sub_eq_zero_iff_le.mp hzero)
        subst hend
        exact h.spill [byte] ⟨rfl, rfl⟩ Nat.one_pos hroom
      · rw [if_neg hzero]
        exact h.fits hat [byte] (Nat.one_le_iff_ne_zero.mpr hzero)
  | write bytes =>
      refine ⟨rfl, ?_⟩
      rw [NopWriter.step, NopWriter.Write]
      by_cases hspill : w.len1 < bytes.length
      · rw [if_pos hspill]
        exact h.spilled hat hspill hroom
      · rw [if_neg hspill]
        exact h.fits hat bytes (Nat.le_of_not_lt hspill)
  | skip paddingBytes paddingValue =>
      refine ⟨rfl, ?_⟩
      rw [NopWriter.step, NopWriter.Skip]
      have hsize : (NopOp.skip paddingBytes paddingValue).size = paddingBytes :=
        List.length_replicate
      rw [hsize] at hroom ⊢
      by_cases hspill : w.len1 < paddingBytes
      · rw [if_pos hspill]
        have hnext : split.ptr1 + split.len1 = split.ptr2 := by
          refine hskip.resolve_left (fun hno => hno ?_)
          obtain ⟨hused, rfl⟩ := hat.first hspill hroom
          dsimp only at hspill
          exact ⟨hused, by omega⟩
        exact h.overfilled hat hspill hroom hnext
      · rw [if_neg hspill]
        have hfits := h.fits hat (List.replicate paddingBytes paddingValue)
          (by rw [List.length_replicate]; exact Nat.le_of_not_lt hspill)
        rw [List.length_replicate] at hfits
        exact hfits

end Step

-- ── A sequence of calls ──────────────────────────────────────────────────────

section Run

variable {split : Split} {used : Nat} {w : NopWriter} {out : Output} {tape : Nat → UInt8}

/-- By induction on the calls, with the position they have reached. -/
theorem HoldsTape.run (ops : List NopOp) (h : HoldsTape split out tape) (hat : split.At used w)
    (hroom : WithinRoom split.length used ops)
    (hskip : ¬ SomeStraddles split used ops ∨ split.ptr1 + split.len1 = split.ptr2) :
    (w.run ops out).1 = statuses split.length used ops
      ∧ HoldsTape split (w.run ops out).2 (splice tape used (output ops)) := by
  induction ops generalizing used w out tape with
  | nil =>
      refine ⟨rfl, ?_⟩
      rw [output, List.flatMap_nil, splice_nil]
      exact h
  | cons op ops ih =>
      obtain ⟨hstatus, hat', hshows⟩ := h.step hat hroom.1 (hskip.imp_left (fun hno hop =>
        hno (Or.inl hop)))
      obtain ⟨hrest, hfinal⟩ := ih hshows hat' hroom.2 (hskip.imp_left (fun hno hops =>
        hno (Or.inr hops)))
      rw [NopOp.size, splice_append] at hfinal
      exact ⟨congrArg₂ List.cons hstatus hrest, hfinal⟩

theorem written_memcpy {ptr a : Nat} {bytes : List UInt8} (h : a ∈ out.written) :
    a ∈ (out.memcpy ptr bytes).written :=
  List.mem_append_left _ h

/-- What has been written to stays so. -/
theorem written_step {op : NopOp} {a : Nat} (h : a ∈ out.written) :
    a ∈ (w.step op out).2.2.written := by
  cases op with
  | prepare size => exact h
  | writeByte byte => exact written_memcpy h
  | write bytes =>
      rw [NopWriter.step, NopWriter.Write]
      split
      · exact written_memcpy (written_memcpy h)
      · exact written_memcpy h
  | skip paddingBytes paddingValue =>
      rw [NopWriter.step, NopWriter.Skip]
      split
      · exact written_memcpy (written_memcpy h)
      · exact written_memcpy h

theorem written_run (ops : List NopOp) {a : Nat} (h : a ∈ out.written) :
    a ∈ (w.run ops out).2.written := by
  induction ops generalizing w out with
  | nil => exact h
  | cons op ops ih => exact ih (written_step h)

/-- A skip that straddles fills the byte right behind the first buffer. -/
theorem straddling_writes {op : NopOp} (hat : split.At used w) (hop : op.Straddles split used) :
    split.ptr1 + split.len1 ∈ (w.step op out).2.2.written := by
  cases op with
  | prepare size => exact hop.elim
  | writeByte byte => exact hop.elim
  | write bytes => exact hop.elim
  | skip paddingBytes paddingValue =>
      obtain ⟨hused, hlt⟩ := hop
      obtain ⟨-, rfl⟩ | ⟨hafter, -⟩ := hat
      · rw [NopWriter.step, NopWriter.Skip]
        dsimp only
        rw [if_pos (by omega)]
        refine written_memcpy (List.mem_append_right _ ?_)
        rw [List.mem_range'_1, List.length_replicate]
        omega
      · omega

theorem outside_of_straddles (ops : List NopOp) (h : HoldsTape split out tape)
    (hat : split.At used w) (hroom : WithinRoom split.length used ops)
    (hstraddles : SomeStraddles split used ops) :
    split.ptr1 + split.len1 ∈ (w.run ops out).2.written := by
  induction ops generalizing used w out tape with
  | nil => exact hstraddles.elim
  | cons op ops ih =>
      by_cases hop : op.Straddles split used
      · exact written_run ops (straddling_writes hat hop)
      · obtain ⟨-, hat', hshows⟩ := h.step hat hroom.1 (Or.inl hop)
        exact ih hshows hat' hroom.2 (hstraddles.resolve_left hop)

/-- Within one buffer no skip straddles. -/
theorem whole_not_straddles (ptr length : Nat) (ops : List NopOp)
    (hroom : WithinRoom length used ops) : ¬ SomeStraddles (.whole ptr length) used ops := by
  induction ops generalizing used with
  | nil => exact not_false
  | cons op ops ih =>
      rintro (hop | hops)
      · cases op with
        | prepare size => exact hop
        | writeByte byte => exact hop
        | write bytes => exact hop
        | skip paddingBytes paddingValue =>
            have hle := hroom.1
            rw [NopOp.size, NopOp.bytes, List.length_replicate] at hle
            exact Nat.not_lt.mpr hle hop.2
      · exact ih hroom.2 hops

end Run

/-- Over the two buffers the calls return what they return over one buffer of the same length
    and contents, the two together become what the one becomes, and nothing outside of them is
    written to. -/
def SameAsOneBuffer (split : Split) (ops : List NopOp) : Prop :=
  ∀ (memory contiguous : Nat → UInt8) (ptr : Nat),
    (∀ k < split.length, memory (split.cell k) = contiguous (ptr + k)) →
    ((split.writer.run ops { memory }).1
        = (NopWriter.run ops { ptr1 := ptr, len1 := split.length } { memory := contiguous }).1
      ∧ (∀ k < split.length, (split.writer.run ops { memory }).2.memory (split.cell k)
          = (NopWriter.run ops { ptr1 := ptr, len1 := split.length }
              { memory := contiguous }).2.memory (ptr + k))
      ∧ ∀ a ∈ (split.writer.run ops { memory }).2.written, split.Inside a)

/-- **Two buffers are as good as one** exactly if no skip straddles, unless there is nothing
    between the buffers. -/
theorem sameAsOneBuffer_iff (split : Split) (ops : List NopOp)
    (hroom : WithinRoom split.length 0 ops) :
    SameAsOneBuffer split ops ↔
      ¬ SomeStraddles split 0 ops ∨ split.ptr1 + split.len1 = split.ptr2 := by
  have hfresh : ∀ (area : Split) (memory tape : Nat → UInt8),
      (∀ k < area.length, memory (area.cell k) = tape k) → HoldsTape area { memory } tape := by
    intro area memory tape hmem
    exact ⟨hmem, fun a ha => absurd ha List.not_mem_nil⟩
  constructor
  · intro hsame
    by_contra hno
    obtain ⟨hstraddles, hgap⟩ := not_or.mp hno
    obtain ⟨-, -, hinside⟩ := hsame (fun _ => 0) (fun _ => 0) 0 (fun _ _ => rfl)
    have hout := hinside _ (outside_of_straddles ops
      (hfresh split (fun _ => 0) (fun _ => 0) (fun _ _ => rfl)) Split.at_init hroom
      (not_not.mp hstraddles))
    have hapart := split.apart
    rw [Split.Inside] at hout
    omega
  · intro hskip memory contiguous ptr hagree
    have htwo := HoldsTape.run ops (hfresh split memory _ hagree) Split.at_init hroom hskip
    have hcell : ∀ k < split.length, (Split.whole ptr split.length).cell k = ptr + k := by
      intro k hk
      exact if_pos hk
    have hone := HoldsTape.run ops
      (hfresh (.whole ptr split.length) contiguous (fun k => contiguous (ptr + k))
        (fun k hk => congrArg contiguous (hcell k hk)))
      Split.at_init hroom (Or.inl (whole_not_straddles ptr split.length ops hroom))
    refine ⟨htwo.1.trans hone.1.symm, fun k hk => ?_, htwo.2.inside⟩
    have hshown := hone.2.memory k hk
    rw [hcell k hk] at hshown
    exact (htwo.2.memory k hk).trans hshown.symm

/-- A write that spills, and a skip behind it. -/
theorem sameAsOneBuffer_prepared :
    SameAsOneBuffer ⟨8, 2, 0, 2, Or.inr (by decide)⟩
      [.prepare 3, .write [1, 2, 3], .skip 1 0] := by
  have hroom : WithinRoom 4 0 [.prepare 3, .write [1, 2, 3], .skip 1 0] :=
    ⟨by decide, by decide, by decide, trivial⟩
  refine (sameAsOneBuffer_iff ⟨8, 2, 0, 2, Or.inr (by decide)⟩
    [.prepare 3, .write [1, 2, 3], .skip 1 0] hroom).mpr (Or.inl ?_)
  rintro (hop | hop | ⟨hle, -⟩ | hop)
  · exact hop
  · exact hop
  · exact absurd hle (by decide)
  · exact hop

/-- A skip of three bytes that begins in a buffer of two. -/
theorem skip_overfills :
    ¬ ∀ (split : Split) (ops : List NopOp), WithinRoom split.length 0 ops →
      SameAsOneBuffer split ops := by
  intro h
  obtain ⟨-, -, hinside⟩ := h ⟨8, 2, 0, 2, Or.inr (by decide)⟩ [.skip 3 7]
    ⟨by decide, trivial⟩ (fun _ => 0) (fun _ => 0) 0 (fun _ _ => rfl)
  rcases hinside 10 (by decide) with ⟨-, hlt⟩ | ⟨-, hlt⟩
  · exact absurd hlt (by decide)
  · exact absurd hlt (by decide)

end TpRing
