import Mathlib

/-! # Framing on a byte stream — the uv transport

    A write goes out as its length, in eight bytes, and then its bytes.  A read is a small
    parser that survives being fed any fragments: libuv asks it for a buffer, puts at most that
    many bytes of the stream there, perhaps none, and tells it how many.

    The idea of the proofs: what a read operation holds is a function of the bytes that it was
    fed so far (`image`), however they were cut. -/

namespace TpUv

-- ── Lengths ──────────────────────────────────────────────────────────────────

/-- `sizeof(readLength_)`. -/
def kLengthSize : Nat := 8

/-- The bytes of an integer, in the order of a little-endian machine. -/
def lengthBytes : Nat → Nat → List UInt8
  | 0, _ => []
  | size + 1, n => UInt8.ofNat n :: lengthBytes size (n / 256)

/-- The length that a field of bytes holds. -/
def lengthOfBytes (bytes : List UInt8) : Nat := bytes.foldr (fun b n => b.toNat + 256 * n) 0

/-- A length field has its size. -/
theorem length_lengthBytes (size n : Nat) : (lengthBytes size n).length = size := by
  induction size generalizing n with
  | zero => rfl
  | succ size ih => exact congrArg (· + 1) (ih (n / 256))

/-- Reading a length field back, up to what fits it. -/
theorem lengthOfBytes_lengthBytes (size n : Nat) :
    lengthOfBytes (lengthBytes size n) = n % 256 ^ size := by
  induction size generalizing n with
  | zero => rw [Nat.pow_zero, Nat.mod_one]; rfl
  | succ size ih =>
      show (UInt8.ofNat n).toNat + 256 * lengthOfBytes (lengthBytes size (n / 256)) = _
      have hpow : 256 ^ (size + 1) = 256 * 256 ^ size := Nat.pow_succ'
      rw [ih, UInt8.toNat_ofNat', hpow, Nat.mod_mul]

/-- What a write sends.  Its length is a `size_t`. -/
structure Payload where
  bytes : List UInt8
  fits : bytes.length < 2 ^ 64
deriving DecidableEq, Repr

-- ── Operations ───────────────────────────────────────────────────────────────

/-- The buffers of a `StreamWriteOperation`. -/
def Payload.getBufs (p : Payload) : List (List UInt8) :=
  let numBuffers := if p.bytes.length = 0 then 1 else 2
  [lengthBytes kLengthSize p.bytes.length, p.bytes].take numBuffers

/-- What a write puts on the stream. -/
def Payload.frame (p : Payload) : List UInt8 := p.getBufs.flatten

/-- How far a read operation has come. -/
inductive Mode where
  | READ_LENGTH
  | READ_PAYLOAD
  | COMPLETE
deriving DecidableEq, Repr

/-- `lengthField` is the memory of `readLength_`, and `ptr` the memory that `ptr_` points to. -/
structure StreamReadOperation where
  mode : Mode := .READ_LENGTH
  ptr : Option (List UInt8) := none
  givenLength : Option Nat := none
  lengthField : List UInt8 := List.replicate kLengthSize 0
  bytesRead : Nat := 0
deriving DecidableEq, Repr

/-- The two places that a buffer can lie in. -/
inductive Region where
  | lengthField
  | destination
deriving DecidableEq, Repr

/-- The memory that a read operation offers to the stream. -/
structure Offer where
  region : Region
  offset : Nat
  len : Nat
deriving DecidableEq, Repr

/-- Bytes are stored in memory from this offset on. -/
def overwrite (memory : List UInt8) (offset : Nat) (bytes : List UInt8) : List UInt8 :=
  memory.take offset ++ bytes ++ memory.drop (offset + bytes.length)

namespace StreamReadOperation

/-- The two constructors: for an allocation of its own, or for a buffer of the user. -/
def make : Option (List UInt8) → StreamReadOperation
  | none => {}
  | some buffer => { ptr := some buffer, givenLength := some buffer.length }

/-- The length that was read. -/
def readLength (op : StreamReadOperation) : Nat := lengthOfBytes op.lengthField

/-- `none` stands for the failed assertion on the mode. -/
def allocFromLoop (op : StreamReadOperation) : Option Offer :=
  match op.mode with
  | .READ_LENGTH =>
      some { region := .lengthField, offset := op.bytesRead, len := kLengthSize - op.bytesRead }
  | .READ_PAYLOAD =>
      some { region := .destination, offset := op.bytesRead, len := op.readLength - op.bytesRead }
  | .COMPLETE => none

/-- The memory of a region. -/
def memory (op : StreamReadOperation) : Region → List UInt8
  | .lengthField => op.lengthField
  | .destination => op.ptr.getD []

/-- The kernel copies bytes to the buffer that it was offered. -/
def store (offer : Offer) (bytes : List UInt8) (op : StreamReadOperation) : StreamReadOperation :=
  match offer.region with
  | .lengthField => { op with lengthField := overwrite op.lengthField offer.offset bytes }
  | .destination => { op with ptr := op.ptr.map (fun m => overwrite m offer.offset bytes) }

/-- Some of the offered bytes have arrived. -/
def readFromLoop (nread : Nat) (op : StreamReadOperation) : Option StreamReadOperation :=
  let bytesRead := op.bytesRead + nread
  match op.mode with
  | .READ_LENGTH =>
      if bytesRead = kLengthSize then
        some { op with
          ptr :=
            match op.givenLength with
            | some _ => op.ptr
            | none => some (List.replicate op.readLength 0)
          mode := if op.readLength = 0 then .COMPLETE else .READ_PAYLOAD
          bytesRead := 0 }
      else some { op with bytesRead }
  | .READ_PAYLOAD =>
      if bytesRead = op.readLength then some { op with mode := .COMPLETE, bytesRead }
      else some { op with bytesRead }
  | .COMPLETE => none

/-- Whether all bytes have arrived. -/
def completeFromLoop (op : StreamReadOperation) : Bool := op.mode = .COMPLETE

/-- A round of libuv: the allocation callback, the bytes, and the first part of the read
    callback. -/
def feed (bytes : List UInt8) (op : StreamReadOperation) : Option StreamReadOperation :=
  op.allocFromLoop.bind (fun offer => (op.store offer bytes).readFromLoop bytes.length)

end StreamReadOperation

-- ── The two ends ─────────────────────────────────────────────────────────────

/-- One direction of a connection: the writes of one side, the bytes on their way, and the reads
    of the other side.  `reads` has the buffers that they were given, and `completed` what the
    callbacks were told. -/
structure Connection where
  writes : List Payload := []
  inFlight : List UInt8 := []
  reads : List (Option (List UInt8)) := []
  readOperations : List StreamReadOperation := []
  reading : Bool := false
  completed : List (Nat × List UInt8) := []
deriving DecidableEq, Repr

namespace Connection

/-- A write: its frame follows what is in flight. -/
def writeImplFromLoop (p : Payload) (c : Connection) : Connection :=
  { c with writes := c.writes ++ [p], inFlight := c.inFlight ++ p.frame }

/-- A read, which waits behind those before it. -/
def readImplFromLoop (buffer : Option (List UInt8)) (c : Connection) : Connection :=
  let readOperations := c.readOperations ++ [.make buffer]
  { c with
    reads := c.reads ++ [buffer]
    readOperations
    reading := if readOperations.length = 1 then true else c.reading }

/-- `allocCallbackFromLoop` and `readCallbackFromLoop`, with `nread` bytes. -/
def readable (nread : Nat) (c : Connection) : Option Connection :=
  match c.readOperations with
  | [] => none
  | op :: rest =>
      (op.feed (c.inFlight.take nread)).map (fun op =>
        let c := { c with inFlight := c.inFlight.drop nread }
        if op.completeFromLoop then
          { c with
            completed := c.completed ++ [(op.readLength, op.ptr.getD [])]
            readOperations := rest
            reading := if rest.isEmpty then false else c.reading }
        else { c with readOperations := op :: rest })

/-- What happens to a connection. -/
inductive Step where
  | write (p : Payload)
  | read (buffer : Option (List UInt8))
  | readable (nread : Nat)
deriving DecidableEq, Repr

/-- The buffer of a read is as long as what the write of the same number sends. -/
def Matches (reads : List (Option (List UInt8))) (writes : List Payload) : Prop :=
  ∀ (i : Nat) (buffer : List UInt8) (p : Payload), reads[i]? = some (some buffer) →
    writes[i]? = some p → buffer.length = p.bytes.length

/-- While reading was started, libuv delivers bytes that have arrived, as many as the buffer
    that it was offered holds, or fewer. -/
def enabled (c : Connection) : Step → Prop
  | .write p => Matches c.reads (c.writes ++ [p])
  | .read buffer => Matches (c.reads ++ [buffer]) c.writes
  | .readable nread => c.reading = true ∧ nread ≤ c.inFlight.length
      ∧ ∀ op rest offer, c.readOperations = op :: rest → op.allocFromLoop = some offer →
        nread ≤ offer.len

/-- One step of a connection. -/
def step (c : Connection) : Step → Option Connection
  | .write p => some (c.writeImplFromLoop p)
  | .read buffer => some (c.readImplFromLoop buffer)
  | .readable nread => c.readable nread

/-- The connections that can be reached from a new one. -/
inductive Reachable : Connection → Prop where
  | init : Reachable {}
  | step {c c' : Connection} (h : Reachable c) (s : Step) (henabled : c.enabled s)
      (hstep : c.step s = some c') : Reachable c'

end Connection

-- ── What a read operation holds ──────────────────────────────────────────────

/-- A read operation that was fed these bytes. -/
def image (buffer : Option (List UInt8)) (fed : List UInt8) : StreamReadOperation :=
  if fed.length < kLengthSize then
    { ptr := buffer
      givenLength := buffer.map List.length
      lengthField := fed ++ List.replicate (kLengthSize - fed.length) 0
      bytesRead := fed.length }
  else
    let length := lengthOfBytes (fed.take kLengthSize)
    let payload := fed.drop kLengthSize
    { mode := if payload.length < length then .READ_PAYLOAD else .COMPLETE
      ptr := some (payload ++ (buffer.getD (List.replicate length 0)).drop payload.length)
      givenLength := buffer.map List.length
      lengthField := fed.take kLengthSize
      bytesRead := payload.length }

section Image

variable {buffer : Option (List UInt8)} {fed bytes : List UInt8}

/-- An operation which has read part of its length. -/
theorem image_length (h : fed.length < kLengthSize) :
    image buffer fed = {
      ptr := buffer
      givenLength := buffer.map List.length
      lengthField := fed ++ List.replicate (kLengthSize - fed.length) 0
      bytesRead := fed.length } := by
  rw [image, if_pos h]

/-- An operation which has read its length. -/
theorem image_payload (h : kLengthSize ≤ fed.length) :
    image buffer fed = {
      mode := if (fed.drop kLengthSize).length < lengthOfBytes (fed.take kLengthSize)
        then .READ_PAYLOAD else .COMPLETE
      ptr := some (fed.drop kLengthSize ++ (buffer.getD (List.replicate
        (lengthOfBytes (fed.take kLengthSize)) 0)).drop (fed.drop kLengthSize).length)
      givenLength := buffer.map List.length
      lengthField := fed.take kLengthSize
      bytesRead := (fed.drop kLengthSize).length } := by
  rw [image, if_neg (Nat.not_lt.mpr h)]

/-- A new operation has read nothing. -/
theorem make_eq_image (buffer : Option (List UInt8)) :
    StreamReadOperation.make buffer = image buffer [] := by
  cases buffer <;> rfl

/-- Storing bytes right behind those that are there. -/
theorem overwrite_append (front back : List UInt8) :
    overwrite (front ++ back) front.length bytes = front ++ bytes ++ back.drop bytes.length := by
  rw [overwrite, List.take_left, ← List.drop_drop, List.drop_left]

/-- Feeding a read operation in the first of its modes. -/
theorem feed_length (hfed : fed.length < kLengthSize)
    (hbytes : bytes.length ≤ kLengthSize - fed.length) :
    (image buffer fed).feed bytes = some (image buffer (fed ++ bytes)) := by
  have hfield : overwrite (fed ++ List.replicate (kLengthSize - fed.length) 0) fed.length bytes
      = fed ++ bytes ++ List.replicate (kLengthSize - (fed ++ bytes).length) 0 := by
    rw [overwrite_append, List.drop_replicate, List.length_append, Nat.sub_sub]
  rw [image_length hfed]
  simp only [StreamReadOperation.feed, StreamReadOperation.allocFromLoop, Option.bind_some,
    StreamReadOperation.store, StreamReadOperation.readFromLoop, hfield]
  by_cases hfull : fed.length + bytes.length = kLengthSize
  · -- the length is complete, and the destination is known
    have hsize : (fed ++ bytes).length = kLengthSize := by rw [List.length_append]; exact hfull
    have htake : (fed ++ bytes).take kLengthSize = fed ++ bytes :=
      List.take_of_length_le (Nat.le_of_eq hsize)
    have hdrop : (fed ++ bytes).drop kLengthSize = [] :=
      List.drop_of_length_le (Nat.le_of_eq hsize)
    have hpad : fed ++ bytes ++ List.replicate (kLengthSize - (fed ++ bytes).length) 0
        = fed ++ bytes := by
      rw [hsize, Nat.sub_self]
      exact List.append_nil _
    rw [if_pos hfull, image_payload (Nat.le_of_eq hsize.symm), htake, hdrop, hpad]
    have hmode : (if lengthOfBytes (fed ++ bytes) = 0 then Mode.COMPLETE else .READ_PAYLOAD)
        = if 0 < lengthOfBytes (fed ++ bytes) then .READ_PAYLOAD else .COMPLETE := by
      by_cases hzero : lengthOfBytes (fed ++ bytes) = 0
      · rw [if_pos hzero, if_neg (Nat.not_lt.mpr (Nat.le_of_eq hzero))]
      · rw [if_neg hzero, if_pos (Nat.pos_of_ne_zero hzero)]
    have hptr : (match buffer.map List.length with
        | some _ => buffer
        | none => some (List.replicate (lengthOfBytes (fed ++ bytes)) 0))
        = some (buffer.getD (List.replicate (lengthOfBytes (fed ++ bytes)) 0)) := by
      cases buffer <;> rfl
    exact congrArg some (StreamReadOperation.mk.injEq .. ▸ ⟨hmode, hptr, rfl, rfl, rfl⟩)
  · have hsize : (fed ++ bytes).length < kLengthSize := by rw [List.length_append]; omega
    rw [if_neg hfull, image_length hsize, List.length_append]

/-- Feeding it in the second mode. -/
theorem feed_payload (hfed : kLengthSize ≤ fed.length)
    (hopen : (fed.drop kLengthSize).length < lengthOfBytes (fed.take kLengthSize))
    (hbytes : bytes.length
      ≤ lengthOfBytes (fed.take kLengthSize) - (fed.drop kLengthSize).length) :
    (image buffer fed).feed bytes = some (image buffer (fed ++ bytes)) := by
  have hfed' : kLengthSize ≤ (fed ++ bytes).length := by rw [List.length_append]; omega
  have htake : (fed ++ bytes).take kLengthSize = fed.take kLengthSize :=
    List.take_append_of_le_length hfed
  have hdrop : (fed ++ bytes).drop kLengthSize = fed.drop kLengthSize ++ bytes :=
    List.drop_append_of_le_length hfed
  rw [image_payload hfed, image_payload hfed', htake, hdrop]
  generalize fed.take kLengthSize = field at *
  generalize fed.drop kLengthSize = payload at *
  simp only [StreamReadOperation.feed, StreamReadOperation.allocFromLoop, if_pos hopen,
    Option.bind_some, StreamReadOperation.store, StreamReadOperation.readFromLoop,
    StreamReadOperation.readLength, Option.map_some, overwrite_append, List.drop_drop,
    List.length_append]
  by_cases hfull : payload.length + bytes.length = lengthOfBytes field
  · rw [if_pos hfull, if_neg (by omega)]
  · rw [if_neg hfull, if_pos (by omega)]

/-- The buffer that a read operation offers. -/
theorem allocFromLoop_length (hfed : fed.length < kLengthSize) :
    (image buffer fed).allocFromLoop = some
      { region := .lengthField, offset := fed.length, len := kLengthSize - fed.length } := by
  rw [image_length hfed]
  rfl

/-- Past the length field, what the operation offers is its buffer. -/
theorem allocFromLoop_payload (hfed : kLengthSize ≤ fed.length)
    (hopen : (fed.drop kLengthSize).length < lengthOfBytes (fed.take kLengthSize)) :
    (image buffer fed).allocFromLoop = some
      { region := .destination
        offset := (fed.drop kLengthSize).length
        len := lengthOfBytes (fed.take kLengthSize) - (fed.drop kLengthSize).length } := by
  rw [image_payload hfed]
  simp only [StreamReadOperation.allocFromLoop, if_pos hopen, StreamReadOperation.readLength]

end Image

-- ── Frames ───────────────────────────────────────────────────────────────────

section Frames

variable {p : Payload} {buffer : Option (List UInt8)} {fed bytes : List UInt8}

/-- A frame is the length and then the payload. -/
theorem frame_eq (p : Payload) :
    p.frame = lengthBytes kLengthSize p.bytes.length ++ p.bytes := by
  rw [Payload.frame, Payload.getBufs]
  by_cases hempty : p.bytes.length = 0
  · rw [if_pos hempty, List.length_eq_zero_iff.mp hempty]
    rfl
  · rw [if_neg hempty]
    show lengthBytes kLengthSize p.bytes.length ++ (p.bytes ++ []) = _
    rw [List.append_nil]

/-- How long a frame is. -/
theorem length_frame (p : Payload) : p.frame.length = kLengthSize + p.bytes.length := by
  rw [frame_eq, List.length_append, length_lengthBytes]

/-- The length that a reader finds. -/
theorem frame_length (p : Payload) : lengthOfBytes (p.frame.take kLengthSize) = p.bytes.length := by
  rw [frame_eq, List.take_left' (length_lengthBytes ..), lengthOfBytes_lengthBytes]
  exact Nat.mod_eq_of_lt p.fits

/-- Part of a frame has the same length, once it has it. -/
theorem fed_length (hfed : fed <+: p.frame) (hsize : kLengthSize ≤ fed.length) :
    lengthOfBytes (fed.take kLengthSize) = p.bytes.length := by
  obtain ⟨rest, hrest⟩ := hfed
  have htake : (fed ++ rest).take kLengthSize = fed.take kLengthSize :=
    List.take_append_of_le_length hsize
  rw [hrest] at htake
  rw [← htake, frame_length]

/-- A buffer that is not empty, lies where it should, holds no more than `room`, and can be
    filled with any bytes up to its size. -/
def Sound (buffer : Option (List UInt8)) (fed : List UInt8) (room : Nat) (offer : Offer) : Prop :=
  0 < offer.len
    ∧ offer.offset + offer.len ≤ ((image buffer fed).memory offer.region).length
    ∧ offer.len ≤ room
    ∧ ∀ bytes : List UInt8, bytes.length ≤ offer.len →
      (image buffer fed).feed bytes = some (image buffer (fed ++ bytes))

/-- The buffer that a read operation offers, in the length of a frame. -/
theorem offer_in_length (hsize : fed.length < kLengthSize) :
    ∃ offer, (image buffer fed).allocFromLoop = some offer
      ∧ Sound buffer fed (kLengthSize - fed.length) offer := by
  refine ⟨_, allocFromLoop_length hsize, ?_, ?_, Nat.le_refl _,
    fun bytes hbytes => feed_length hsize hbytes⟩
  · show 0 < kLengthSize - fed.length
    omega
  · rw [image_length hsize]
    show fed.length + (kLengthSize - fed.length) ≤ (fed ++ _).length
    refine Nat.le_of_eq ?_
    rw [List.length_append, List.length_replicate]

/-- And anywhere in a frame: it holds no more than is left of the frame. -/
theorem offer_in_frame (hfed : fed <+: p.frame) (hopen : fed.length < p.frame.length)
    (hbuffer : ∀ b, buffer = some b → b.length = p.bytes.length) :
    ∃ offer, (image buffer fed).allocFromLoop = some offer
      ∧ Sound buffer fed (p.frame.length - fed.length) offer := by
  rw [length_frame] at hopen ⊢
  by_cases hsize : fed.length < kLengthSize
  · obtain ⟨offer, hoffer, hpos, hwithin, hroom, hfeed⟩ :=
      @offer_in_length buffer fed hsize
    exact ⟨offer, hoffer, hpos, hwithin, by omega, hfeed⟩
  · have hsize' := Nat.not_lt.mp hsize
    have hlength := fed_length hfed hsize'
    have hdrop : (fed.drop kLengthSize).length < lengthOfBytes (fed.take kLengthSize) := by
      rw [hlength, List.length_drop]
      omega
    refine ⟨_, allocFromLoop_payload hsize' hdrop, ?_, ?_, ?_,
      fun bytes hbytes => feed_payload hsize' hdrop hbytes⟩
    · show 0 < lengthOfBytes _ - _
      omega
    · rw [image_payload hsize']
      show (fed.drop kLengthSize).length + (lengthOfBytes (fed.take kLengthSize) - _)
        ≤ (fed.drop kLengthSize ++ _).length
      have hroom : (buffer.getD (List.replicate (lengthOfBytes (fed.take kLengthSize)) 0)).length
          = lengthOfBytes (fed.take kLengthSize) := by
        cases buffer with
        | none => exact List.length_replicate
        | some b => exact (hbuffer b rfl).trans hlength.symm
      refine Nat.le_of_eq ?_
      rw [List.length_append, List.length_drop (i := (fed.drop kLengthSize).length), hroom]
    · show lengthOfBytes _ - (fed.drop kLengthSize).length ≤ _
      rw [hlength, List.length_drop]
      omega

/-- A read operation is complete when it was fed a whole frame, and then it holds the bytes of
    the write. -/
theorem image_frame (hbuffer : ∀ b, buffer = some b → b.length = p.bytes.length) :
    (image buffer p.frame).completeFromLoop = true
      ∧ (image buffer p.frame).readLength = p.bytes.length
      ∧ (image buffer p.frame).ptr.getD [] = p.bytes := by
  have hsize : kLengthSize ≤ p.frame.length := by rw [length_frame]; omega
  have hdrop : p.frame.drop kLengthSize = p.bytes := by
    rw [frame_eq, List.drop_left' (length_lengthBytes ..)]
  rw [image_payload hsize]
  simp only [frame_length, hdrop, Nat.lt_irrefl, if_false]
  refine ⟨rfl, frame_length p, ?_⟩
  show p.bytes ++ _ = p.bytes
  have hroom : (buffer.getD (List.replicate p.bytes.length 0)).length = p.bytes.length := by
    cases buffer with
    | none => exact List.length_replicate
    | some b => exact hbuffer b rfl
  rw [List.drop_of_length_le (Nat.le_of_eq hroom), List.append_nil]

/-- An operation is complete only with its whole frame. -/
theorem image_open (hfed : fed <+: p.frame) (hopen : fed.length < p.frame.length) :
    (image buffer fed).completeFromLoop = false := by
  rw [length_frame] at hopen
  by_cases hsize : fed.length < kLengthSize
  · rw [image_length hsize]
    rfl
  · have hsize' := Nat.not_lt.mp hsize
    have hlength := fed_length hfed hsize'
    rw [image_payload hsize', if_pos (by rw [hlength, List.length_drop]; omega)]
    rfl

end Frames

-- ── Runs ─────────────────────────────────────────────────────────────────────

namespace Connection

/-- The read operations, when the front one was fed these bytes. -/
def operations (fed : List UInt8) : List (Option (List UInt8)) → List StreamReadOperation
  | [] => []
  | buffer :: rest => image buffer fed :: rest.map .make

/-- `fed` are the bytes that the front read operation was fed. -/
structure Framed (c : Connection) (fed : List UInt8) : Prop where
  matching : Matches c.reads c.writes
  countReads : c.completed.length ≤ c.reads.length
  countWrites : c.completed.length ≤ c.writes.length
  completed : c.completed
    = (c.writes.take c.completed.length).map (fun p => (p.bytes.length, p.bytes))
  queue : c.readOperations = operations fed (c.reads.drop c.completed.length)
  stream : fed ++ c.inFlight = (c.writes.drop c.completed.length).flatMap Payload.frame
  idle : c.reads.drop c.completed.length = [] → fed = []
  unfinished : ∀ p rest, c.writes.drop c.completed.length = p :: rest →
    fed.length < p.frame.length
  reading : c.reading = !c.readOperations.isEmpty

variable {c c' : Connection} {fed : List UInt8}

/-- A new connection. -/
theorem framed_init : Framed {} [] where
  matching := by intro i buffer p h; cases h
  countReads := Nat.le_refl 0
  countWrites := Nat.le_refl 0
  completed := rfl
  queue := rfl
  stream := rfl
  idle := fun _ => rfl
  unfinished := by intro p rest h; cases h
  reading := rfl

/-- Bytes that arrive before any write was read are the bytes of that write. -/
theorem Framed.fed_prefix (h : Framed c fed) {p : Payload} {rest : List Payload}
    (hwrites : c.writes.drop c.completed.length = p :: rest) : fed <+: p.frame := by
  have hstream := h.stream
  rw [hwrites, List.flatMap_cons] at hstream
  have hfed : fed <+: p.frame ++ rest.flatMap Payload.frame := ⟨c.inFlight, hstream⟩
  exact List.prefix_of_prefix_length_le hfed (List.prefix_append ..)
    (Nat.le_of_lt (h.unfinished p rest hwrites))

/-- When every write was read, nothing is in flight. -/
theorem Framed.drained (h : Framed c fed) (hwrites : c.writes.drop c.completed.length = []) :
    fed = [] ∧ c.inFlight = [] := by
  have hstream := h.stream
  rw [hwrites] at hstream
  exact List.append_eq_nil_iff.mp hstream

/-- The front read got a buffer of the size of the front write. -/
theorem Framed.buffer_size (h : Framed c fed) {p : Payload} {rest : List Payload}
    {buffer : Option (List UInt8)} {later : List (Option (List UInt8))}
    (hwrites : c.writes.drop c.completed.length = p :: rest)
    (hreads : c.reads.drop c.completed.length = buffer :: later) :
    ∀ b, buffer = some b → b.length = p.bytes.length := by
  intro b hb
  have hread : c.reads[c.completed.length]? = some (some b) := by
    rw [← List.head?_drop, hreads, hb]
    rfl
  have hwrite : c.writes[c.completed.length]? = some p := by
    rw [← List.head?_drop, hwrites]
    rfl
  exact h.matching _ _ _ hread hwrite

/-- What is left of the frame that is being received. -/
def room (c : Connection) (fed : List UInt8) : Nat :=
  match c.writes.drop c.completed.length with
  | [] => kLengthSize
  | p :: _ => p.frame.length - fed.length

/-- The buffer that libuv is offered. -/
theorem Framed.offer (h : Framed c fed) {buffer : Option (List UInt8)}
    {later : List (Option (List UInt8))}
    (hreads : c.reads.drop c.completed.length = buffer :: later) :
    ∃ offer, (image buffer fed).allocFromLoop = some offer
      ∧ Sound buffer fed (c.room fed) offer := by
  cases hwrites : c.writes.drop c.completed.length with
  | nil =>
      have hroom : c.room fed = kLengthSize := by rw [room, hwrites]
      rw [hroom, (h.drained hwrites).1]
      exact @offer_in_length buffer [] (by decide)
  | cons p rest =>
      have hroom : c.room fed = p.frame.length - fed.length := by rw [room, hwrites]
      rw [hroom]
      exact offer_in_frame (h.fed_prefix hwrites) (h.unfinished p rest hwrites)
        (h.buffer_size hwrites hreads)

-- ── Steps ────────────────────────────────────────────────────────────────────

/-- A write keeps the framing. -/
theorem framed_write (h : Framed c fed) (p : Payload)
    (henabled : c.enabled (.write p)) : Framed (c.writeImplFromLoop p) fed where
  matching := henabled
  countReads := h.countReads
  countWrites := by
    show c.completed.length ≤ (c.writes ++ [p]).length
    rw [List.length_append]
    exact Nat.le_add_right_of_le h.countWrites
  completed := by
    show c.completed = ((c.writes ++ [p]).take c.completed.length).map _
    rw [List.take_append_of_le_length h.countWrites]
    exact h.completed
  queue := h.queue
  stream := by
    show fed ++ (c.inFlight ++ p.frame) = ((c.writes ++ [p]).drop c.completed.length).flatMap _
    rw [List.drop_append_of_le_length h.countWrites, List.flatMap_append, ← h.stream,
      List.append_assoc]
    rw [List.flatMap_cons, List.flatMap_nil, List.append_nil]
  idle := h.idle
  unfinished := by
    intro q rest hwrites
    have happend : (c.writes ++ [p]).drop c.completed.length = q :: rest := hwrites
    rw [List.drop_append_of_le_length h.countWrites] at happend
    cases hdrop : c.writes.drop c.completed.length with
    | nil =>
        rw [(h.drained hdrop).1, length_frame]
        exact Nat.lt_of_lt_of_le (by decide) (Nat.le_add_right kLengthSize _)
    | cons q' rest' =>
        rw [hdrop] at happend
        exact (List.cons.inj happend).1 ▸ h.unfinished q' rest' hdrop
  reading := h.reading

/-- A read takes its place behind the others. -/
theorem operations_append (fed : List UInt8) (reads : List (Option (List UInt8)))
    (buffer : Option (List UInt8)) (hidle : reads = [] → fed = []) :
    operations fed (reads ++ [buffer]) = operations fed reads ++ [.make buffer] := by
  cases reads with
  | nil => rw [hidle rfl, make_eq_image]; rfl
  | cons front rest =>
      show image front fed :: (rest ++ [buffer]).map .make = _
      rw [List.map_append]
      rfl

/-- A read keeps the framing. -/
theorem framed_read (h : Framed c fed) (buffer : Option (List UInt8))
    (henabled : c.enabled (.read buffer)) : Framed (c.readImplFromLoop buffer) fed where
  matching := henabled
  countReads := by
    show c.completed.length ≤ (c.reads ++ [buffer]).length
    rw [List.length_append]
    exact Nat.le_add_right_of_le h.countReads
  countWrites := h.countWrites
  completed := h.completed
  queue := by
    show c.readOperations ++ [.make buffer]
      = operations fed ((c.reads ++ [buffer]).drop c.completed.length)
    rw [List.drop_append_of_le_length h.countReads, operations_append _ _ _ h.idle, h.queue]
  stream := h.stream
  idle := by
    intro hreads
    have happend : (c.reads ++ [buffer]).drop c.completed.length = [] := hreads
    rw [List.drop_append_of_le_length h.countReads] at happend
    exact absurd happend (List.append_ne_nil_of_right_ne_nil _ (List.cons_ne_nil _ _))
  unfinished := h.unfinished
  reading := by
    show (if (c.readOperations ++ [StreamReadOperation.make buffer]).length = 1 then true
      else c.reading) = !(c.readOperations ++ [StreamReadOperation.make buffer]).isEmpty
    rw [h.reading]
    cases c.readOperations with
    | nil => rfl
    | cons op rest =>
        have hlength : (op :: rest ++ [StreamReadOperation.make buffer]).length ≠ 1 := by
          rw [List.length_append, List.length_cons, List.length_singleton]
          omega
        rw [if_neg hlength]
        rfl

/-- What a round of libuv does to the front operation. -/
theorem readable_eq (h : Framed c fed) {nread : Nat} {buffer : Option (List UInt8)}
    {later : List (Option (List UInt8))}
    (hreads : c.reads.drop c.completed.length = buffer :: later)
    (henabled : c.enabled (.readable nread)) :
    nread ≤ c.room fed ∧ c.readable nread = some (
      let op := image buffer (fed ++ c.inFlight.take nread)
      let c := { c with inFlight := c.inFlight.drop nread }
      if op.completeFromLoop then
        { c with
          completed := c.completed ++ [(op.readLength, op.ptr.getD [])]
          readOperations := later.map .make
          reading := if (later.map StreamReadOperation.make).isEmpty then false else c.reading }
      else { c with readOperations := op :: later.map .make }) := by
  obtain ⟨offer, hoffer, -, -, hroom, hfeed⟩ := h.offer hreads
  have hqueue : c.readOperations = image buffer fed :: later.map .make := by
    rw [h.queue, hreads]
    rfl
  have hnread : nread ≤ offer.len := henabled.2.2 _ _ offer hqueue hoffer
  have hbytes : (c.inFlight.take nread).length ≤ offer.len := by
    rw [List.length_take]
    exact Nat.le_trans (Nat.min_le_left ..) hnread
  refine ⟨Nat.le_trans hnread hroom, ?_⟩
  rw [readable, hqueue]
  show Option.map _ ((image buffer fed).feed (c.inFlight.take nread)) = _
  rw [hfeed _ hbytes]
  rfl

/-- The operation wants more bytes. -/
theorem framed_more (h : Framed c fed) {nread : Nat} {buffer : Option (List UInt8)}
    {later : List (Option (List UInt8))}
    (hreads : c.reads.drop c.completed.length = buffer :: later)
    (hopen : ∀ p rest, c.writes.drop c.completed.length = p :: rest →
      (fed ++ c.inFlight.take nread).length < p.frame.length) :
    Framed { c with
      inFlight := c.inFlight.drop nread
      readOperations := image buffer (fed ++ c.inFlight.take nread) :: later.map .make }
      (fed ++ c.inFlight.take nread) where
  matching := h.matching
  countReads := h.countReads
  countWrites := h.countWrites
  completed := h.completed
  queue := by
    show _ = operations _ (c.reads.drop c.completed.length)
    rw [hreads]
    rfl
  stream := by
    show fed ++ c.inFlight.take nread ++ c.inFlight.drop nread = _
    rw [List.append_assoc, List.take_append_drop]
    exact h.stream
  idle := by
    intro hnone
    have hnone' : c.reads.drop c.completed.length = [] := hnone
    rw [hreads] at hnone'
    cases hnone'
  unfinished := hopen
  reading := by
    show c.reading = true
    rw [h.reading, h.queue, hreads]
    rfl

/-- One element more is taken from a list. -/
theorem drop_succ_of_cons {α : Type} {l rest : List α} {k : Nat} {a : α}
    (h : l.drop k = a :: rest) : l.drop (k + 1) = rest ∧ l.take (k + 1) = l.take k ++ [a]
      ∧ k + 1 ≤ l.length := by
  have hget : l[k]? = some a := by
    rw [← List.head?_drop, h]
    rfl
  refine ⟨?_, ?_, (List.getElem?_eq_some_iff.mp hget).1⟩
  · rw [← List.drop_drop, h]
    rfl
  · rw [List.take_add_one, hget]
    rfl

/-- The operation is complete. -/
theorem framed_complete (h : Framed c fed) {nread : Nat} {buffer : Option (List UInt8)}
    {later : List (Option (List UInt8))} {p : Payload} {rest : List Payload}
    (hreads : c.reads.drop c.completed.length = buffer :: later)
    (hwrites : c.writes.drop c.completed.length = p :: rest)
    (hfull : fed ++ c.inFlight.take nread = p.frame) :
    Framed { c with
      inFlight := c.inFlight.drop nread
      completed := c.completed ++ [(p.bytes.length, p.bytes)]
      readOperations := later.map .make
      reading := if (later.map StreamReadOperation.make).isEmpty then false else c.reading } [] := by
  obtain ⟨hreads', -, hcountReads⟩ := drop_succ_of_cons hreads
  obtain ⟨hwrites', htake, hcountWrites⟩ := drop_succ_of_cons hwrites
  have hcount : (c.completed ++ [(p.bytes.length, p.bytes)]).length = c.completed.length + 1 := by
    rw [List.length_append, List.length_singleton]
  have hstream : p.frame ++ c.inFlight.drop nread = p.frame ++ rest.flatMap Payload.frame := by
    rw [← List.flatMap_cons, ← hwrites, ← h.stream, ← hfull, List.append_assoc,
      List.take_append_drop]
  constructor
  case matching => exact h.matching
  case countReads =>
    show (c.completed ++ [_]).length ≤ _
    rw [hcount]
    exact hcountReads
  case countWrites =>
    show (c.completed ++ [_]).length ≤ _
    rw [hcount]
    exact hcountWrites
  case completed =>
    show c.completed ++ [_] = (c.writes.take (c.completed ++ [_]).length).map _
    rw [hcount, htake, List.map_append, ← h.completed]
    rfl
  case queue =>
    show later.map .make = operations [] (c.reads.drop (c.completed ++ [_]).length)
    rw [hcount, hreads']
    cases later with
    | nil => rfl
    | cons front later =>
        rw [List.map_cons, make_eq_image]
        rfl
  case stream =>
    show [] ++ c.inFlight.drop nread = (c.writes.drop (c.completed ++ [_]).length).flatMap _
    rw [hcount, hwrites', List.nil_append]
    exact List.append_cancel_left hstream
  case idle => exact fun _ => rfl
  case unfinished =>
    intro q rest _
    rw [length_frame]
    exact Nat.lt_of_lt_of_le (by decide) (Nat.le_add_right kLengthSize _)
  case reading =>
    have hreading : c.reading = true := by
      rw [h.reading, h.queue, hreads]
      rfl
    show (if (later.map StreamReadOperation.make).isEmpty then false else c.reading) = _
    rw [hreading]
    cases later <;> rfl

/-- Bytes which do not complete the frame. -/
theorem readable_more (h : Framed c fed) {nread : Nat} {buffer : Option (List UInt8)}
    {later : List (Option (List UInt8))}
    (hreads : c.reads.drop c.completed.length = buffer :: later)
    (henabled : c.enabled (.readable nread))
    (hopen : (image buffer (fed ++ c.inFlight.take nread)).completeFromLoop = false) :
    c.readable nread = some { c with
      inFlight := c.inFlight.drop nread
      readOperations := image buffer (fed ++ c.inFlight.take nread) :: later.map .make } := by
  rw [(readable_eq h hreads henabled).2]
  exact congrArg some (if_neg (Bool.eq_false_iff.mp hopen))

/-- Bytes which complete the frame. -/
theorem readable_complete (h : Framed c fed) {nread : Nat} {buffer : Option (List UInt8)}
    {later : List (Option (List UInt8))} {p : Payload} {rest : List Payload}
    (hreads : c.reads.drop c.completed.length = buffer :: later)
    (hwrites : c.writes.drop c.completed.length = p :: rest)
    (henabled : c.enabled (.readable nread))
    (hfull : fed ++ c.inFlight.take nread = p.frame) :
    c.readable nread = some { c with
      inFlight := c.inFlight.drop nread
      completed := c.completed ++ [(p.bytes.length, p.bytes)]
      readOperations := later.map .make
      reading := if (later.map StreamReadOperation.make).isEmpty then false else c.reading } := by
  obtain ⟨hcomplete, hlength, hptr⟩ := image_frame (h.buffer_size hwrites hreads)
  rw [(readable_eq h hreads henabled).2, hfull, ← hlength, ← hptr]
  exact congrArg some (if_pos hcomplete)

/-- A round of libuv. -/
theorem framed_readable (h : Framed c fed) {nread : Nat} (henabled : c.enabled (.readable nread)) :
    ∃ c' fed', c.readable nread = some c' ∧ Framed c' fed'
      ∧ c'.inFlight = c.inFlight.drop nread := by
  cases hreads : c.reads.drop c.completed.length with
  | nil =>
      have hreading := henabled.1
      rw [h.reading, h.queue, hreads] at hreading
      cases hreading
  | cons buffer later =>
      cases hwrites : c.writes.drop c.completed.length with
      | nil =>
          -- nothing was written, so nothing was delivered
          obtain ⟨hfed, hflight⟩ := h.drained hwrites
          have hopen : (image buffer (fed ++ c.inFlight.take nread)).completeFromLoop = false := by
            rw [hfed, hflight, List.take_nil]
            rfl
          refine ⟨_, _, readable_more h hreads henabled hopen, framed_more h hreads ?_, rfl⟩
          intro q rest hq
          rw [hwrites] at hq
          cases hq
      | cons p rest =>
          have hroom := (readable_eq h hreads henabled).1
          rw [show c.room fed = p.frame.length - fed.length by rw [room, hwrites]] at hroom
          have hsize : (fed ++ c.inFlight.take nread).length = fed.length + nread := by
            rw [List.length_append, List.length_take, Nat.min_eq_left henabled.2.1]
          have hunfinished := h.unfinished p rest hwrites
          have hpart : fed ++ c.inFlight.take nread <+: p.frame := by
            have hstream := h.stream
            rw [hwrites, List.flatMap_cons, ← List.take_append_drop nread c.inFlight,
              ← List.append_assoc] at hstream
            exact List.prefix_of_prefix_length_le ⟨_, hstream⟩ (List.prefix_append ..)
              (by rw [hsize]; omega)
          by_cases hopen : (fed ++ c.inFlight.take nread).length < p.frame.length
          · refine ⟨_, _, readable_more h hreads henabled (image_open hpart hopen),
              framed_more h hreads ?_, rfl⟩
            intro q rest' hq
            rw [hwrites] at hq
            exact (List.cons.inj hq).1 ▸ hopen
          · -- the last byte of the frame
            have hfull : fed ++ c.inFlight.take nread = p.frame :=
              hpart.eq_of_length_le (Nat.not_lt.mp hopen)
            exact ⟨_, _, readable_complete h hreads hwrites henabled hfull,
              framed_complete h hreads hwrites hfull, rfl⟩

/-- What a step preserves; none throws. -/
theorem framed_step (h : Framed c fed) (s : Step) (henabled : c.enabled s) :
    ∃ c' fed', c.step s = some c' ∧ Framed c' fed' := by
  cases s with
  | write p => exact ⟨_, fed, rfl, framed_write h p henabled⟩
  | read buffer => exact ⟨_, fed, rfl, framed_read h buffer henabled⟩
  | readable nread =>
      obtain ⟨c', fed', hstep, hframed, -⟩ := framed_readable h henabled
      exact ⟨c', fed', hstep, hframed⟩

/-- What a run preserves. -/
theorem framed_of_reachable (h : Reachable c) : ∃ fed, Framed c fed := by
  induction h with
  | init => exact ⟨[], framed_init⟩
  | step _ s henabled hstep ih =>
      obtain ⟨fed, hframed⟩ := ih
      obtain ⟨c', fed', hstep', hframed'⟩ := framed_step hframed s henabled
      rw [hstep] at hstep'
      exact ⟨fed', Option.some.inj hstep' ▸ hframed'⟩

-- ── Completions ──────────────────────────────────────────────────────────────

/-- Everything that was written, and how much of it has been received. -/
def sent (c : Connection) : List UInt8 := c.writes.flatMap Payload.frame

/-- How much of the stream has arrived. -/
def received (c : Connection) : Nat := c.sent.length - c.inFlight.length

/-- Where the frame of a write starts. -/
def frameStart (c : Connection) (k : Nat) : Nat :=
  ((c.writes.take k).flatMap Payload.frame).length

/-- A round of libuv, whatever its number of bytes. -/
def Delivery (c c' : Connection) : Prop :=
  ∃ nread, c.enabled (.readable nread) ∧ c.step (.readable nread) = some c'

/-- What was sent is what was read, what was fed and what is in flight. -/
theorem Framed.sent_eq (h : Framed c fed) :
    c.sent = (c.writes.take c.completed.length).flatMap Payload.frame ++ fed ++ c.inFlight := by
  rw [List.append_assoc, h.stream, ← List.flatMap_append, List.take_append_drop]
  rfl

/-- How much has arrived, counted by frames. -/
theorem Framed.received_eq (h : Framed c fed) :
    c.received = c.frameStart c.completed.length + fed.length := by
  rw [received, h.sent_eq, List.length_append, Nat.add_sub_cancel, List.length_append]
  rfl

/-- What is in flight is what has not arrived. -/
theorem Framed.inFlight_eq (h : Framed c fed) : c.inFlight = c.sent.drop c.received := by
  rw [h.received_eq, h.sent_eq]
  exact (List.drop_left' (List.length_append ..)).symm

/-- The same of the operation at the front of the queue. -/
theorem Framed.front_offer (h : Framed c fed) {op : StreamReadOperation}
    {rest : List StreamReadOperation} (hqueue : c.readOperations = op :: rest) :
    ∃ offer, op.allocFromLoop = some offer ∧ 0 < offer.len
      ∧ offer.offset + offer.len ≤ (op.memory offer.region).length ∧ offer.len ≤ c.room fed := by
  have hoperations := h.queue
  rw [hqueue] at hoperations
  cases hreads : c.reads.drop c.completed.length with
  | nil =>
      rw [hreads] at hoperations
      cases hoperations
  | cons buffer later =>
      rw [hreads] at hoperations
      obtain ⟨offer, hoffer, hpos, hwithin, hroom, -⟩ := h.offer hreads
      rw [(List.cons.inj hoperations).1]
      exact ⟨offer, hoffer, hpos, hwithin, hroom⟩

/-- What is left of a frame, counted from the start of the stream. -/
theorem Framed.frame_end (h : Framed c fed) {p : Payload}
    (hwrite : c.writes[c.completed.length]? = some p) :
    c.received + c.room fed = c.frameStart (c.completed.length + 1) := by
  have hcons : ∃ rest, c.writes.drop c.completed.length = p :: rest := by
    rw [← List.head?_drop] at hwrite
    exact List.head?_eq_some_iff.mp hwrite
  obtain ⟨rest, hwrites⟩ := hcons
  have hunfinished := h.unfinished p rest hwrites
  rw [show c.room fed = p.frame.length - fed.length by rw [room, hwrites], h.received_eq,
    frameStart, frameStart, (drop_succ_of_cons hwrites).2.1, List.flatMap_append,
    List.length_append, List.flatMap_singleton]
  omega

/-- Once all that arrived is delivered, or no read is waiting, each read that has its write is
    complete. -/
theorem Framed.all_complete (h : Framed c fed) (hrest : c.inFlight = [] ∨ c.readOperations = []) :
    c.completed.length = min c.reads.length c.writes.length := by
  have hreads := h.countReads
  have hwrites := h.countWrites
  rcases hrest with hflight | hqueue
  · cases hdrop : c.writes.drop c.completed.length with
    | nil =>
        have := List.drop_eq_nil_iff.mp hdrop
        omega
    | cons p rest =>
        have hstream := congrArg List.length h.stream
        have hunfinished := h.unfinished p rest hdrop
        rw [hflight, hdrop, List.append_nil, List.flatMap_cons, List.length_append] at hstream
        omega
  · have hnone : c.reads.drop c.completed.length = [] := by
      have hoperations := h.queue
      rw [hqueue] at hoperations
      cases hdrop : c.reads.drop c.completed.length with
      | nil => rfl
      | cons buffer later =>
          rw [hdrop] at hoperations
          cases hoperations
    have := List.drop_eq_nil_iff.mp hnone
    omega

/-- Delivering one byte at a time empties the stream, or stops at the last read. -/
theorem delivered (n : Nat) {c : Connection} {fed : List UInt8} (h : Framed c fed)
    (hn : c.inFlight.length = n) : ∃ c', Relation.ReflTransGen Delivery c c'
      ∧ (c'.inFlight = [] ∨ c'.readOperations = []) := by
  induction n generalizing c fed with
  | zero => exact ⟨c, .refl, .inl (List.length_eq_zero_iff.mp hn)⟩
  | succ n ih =>
      cases hqueue : c.readOperations with
      | nil => exact ⟨c, .refl, .inr hqueue⟩
      | cons op rest =>
          have henabled : c.enabled (.readable 1) := by
            refine ⟨?_, by omega, ?_⟩
            · rw [h.reading, hqueue]
              rfl
            · intro op' rest' offer hop hoffer
              obtain ⟨offer', hoffer', hpos⟩ := h.front_offer hop
              rw [hoffer] at hoffer'
              exact Option.some.inj hoffer' ▸ hpos.1
          obtain ⟨c', fed', hstep, hframed, hflight⟩ := framed_readable h henabled
          have hn' : c'.inFlight.length = n := by
            rw [hflight, List.length_drop, hn]
            rfl
          obtain ⟨c'', hrun, hdone⟩ := ih hframed hn'
          exact ⟨c'', .head ⟨1, henabled, hstep⟩ hrun, hdone⟩

/-- Writes and reads on the two ends of a connection. -/
structure StreamFraming (c : Connection) : Prop where
  /-- The reads complete in order, each with what the write of its number sent. -/
  order : ∀ (k : Nat) (result : Nat × List UInt8), c.completed[k]? = some result →
    ∃ p : Payload, c.writes[k]? = some p ∧ result = (p.bytes.length, p.bytes)
  queued : c.completed.length + c.readOperations.length = c.reads.length
  /-- What is on its way is the part of the stream that was not received. -/
  stream : c.inFlight = c.sent.drop c.received
  /-- The buffer that the front operation offers, if any bytes come, is filled from its own
      frame only. -/
  offers : ∀ op rest, c.readOperations = op :: rest → ∃ offer, op.allocFromLoop = some offer
    ∧ 0 < offer.len ∧ offer.offset + offer.len ≤ (op.memory offer.region).length
    ∧ (c.completed.length < c.writes.length →
      c.frameStart c.completed.length ≤ c.received
        ∧ c.received + offer.len ≤ c.frameStart (c.completed.length + 1))
  /-- libuv calls back only while there is a read operation, and no callback throws. -/
  reading : c.reading = true ↔ c.readOperations ≠ []
  safe : ∀ s, c.enabled s → ∃ c', c.step s = some c'
  /-- A read is not complete only when libuv still has bytes for it, or its write is to come. -/
  settled : c.inFlight = [] ∨ c.readOperations = [] →
    c.completed.length = min c.reads.length c.writes.length
  settles : ∃ c', Relation.ReflTransGen Delivery c c'
    ∧ (c'.inFlight = [] ∨ c'.readOperations = [])

/-- There is one operation for each read. -/
theorem length_operations (fed : List UInt8) (reads : List (Option (List UInt8))) :
    (operations fed reads).length = reads.length := by
  cases reads with
  | nil => rfl
  | cons buffer rest => exact congrArg (· + 1) (List.length_map ..)

/-- Each read completes with what the write of its number sent, however the bytes are cut. -/
theorem stream_framing (h : Reachable c) : StreamFraming c := by
  obtain ⟨fed, hframed⟩ := framed_of_reachable h
  constructor
  case order =>
    intro k result hresult
    rw [hframed.completed, List.getElem?_map, Option.map_eq_some_iff] at hresult
    obtain ⟨p, hp, hresult⟩ := hresult
    have hk : k < c.completed.length := by
      have := (List.getElem?_eq_some_iff.mp hp).1
      rw [List.length_take] at this
      omega
    rw [List.getElem?_take_of_lt hk] at hp
    exact ⟨p, hp, hresult.symm⟩
  case queued =>
    have := hframed.countReads
    rw [hframed.queue, length_operations, List.length_drop]
    omega
  case stream => exact hframed.inFlight_eq
  case offers =>
    intro op rest hqueue
    obtain ⟨offer, hoffer, hpos, hwithin, hroom⟩ := hframed.front_offer hqueue
    refine ⟨offer, hoffer, hpos, hwithin, fun hwritten => ?_⟩
    have hend := hframed.frame_end (List.getElem?_eq_getElem hwritten)
    have hreceived := hframed.received_eq
    omega
  case reading =>
    rw [hframed.reading]
    cases c.readOperations with
    | nil => exact ⟨nofun, fun hne => absurd rfl hne⟩
    | cons op rest => exact ⟨fun _ => nofun, fun _ => rfl⟩
  case safe =>
    intro s henabled
    obtain ⟨c', -, hstep, -⟩ := framed_step hframed s henabled
    exact ⟨c', hstep⟩
  case settled => exact hframed.all_complete
  case settles => exact delivered _ hframed rfl

/-- A frame of ten bytes that arrives cut inside its length, with an empty round. -/
theorem stream_framing_cut : ∃ c, Reachable c ∧ StreamFraming c
    ∧ c.completed = [(2, [7, 9])] := by
  have hmatches : ∀ writes, Matches [none] writes := by
    intro writes i buffer p hread
    rcases i with _ | i <;> cases hread
  have hwritten : Reachable _ := .step (.step .init (.read none) (hmatches []) rfl)
    (.write ⟨[7, 9], by decide⟩) (hmatches _) rfl
  have hlength : Reachable _ := .step hwritten (.readable 5)
    ⟨rfl, by decide, by rintro op rest offer ⟨⟩ ⟨⟩; decide⟩ rfl
  have hempty : Reachable _ := .step hlength (.readable 0)
    ⟨rfl, by decide, by rintro op rest offer ⟨⟩ ⟨⟩; decide⟩ rfl
  have hpayload : Reachable _ := .step hempty (.readable 3)
    ⟨rfl, by decide, by rintro op rest offer ⟨⟩ ⟨⟩; decide⟩ rfl
  have hall : Reachable _ := .step hpayload (.readable 2)
    ⟨rfl, by decide, by rintro op rest offer ⟨⟩ ⟨⟩; decide⟩ rfl
  exact ⟨_, hall, stream_framing hall, rfl⟩

end Connection

end TpUv
