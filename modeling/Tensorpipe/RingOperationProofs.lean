import Mathlib.Tactic.Common
import Tensorpipe.RingBufferProofs

/-! # Read and write operations over a ring buffer

    A frame on the ring is a length, in four bytes, and then the content: the bytes of
    a buffer, or the encoding of a nop object.  `handleWrite` and `handleRead` are
    resumable: each call opens a transaction, does what the ring has room or data
    for, and commits.  A length and a nop object go through whole or not at all, a
    buffer in parts.

    The reader (role 0) and the writer (role 1) run in different processes, so their
    calls interleave between any two accesses to the ring.  A `Point` says where
    within `handleWrite` or `handleRead` a side is.  Each side handles its front
    operation only, and pops it when it is complete.

    The libnop encoders are a parameter, `AbstractNopHolder`. -/

namespace TpRing

-- ── libnop ───────────────────────────────────────────────────────────────────

/-- The statuses that the operations tell apart. -/
inductive ErrorStatus where
  | None
  | ReadLimitReached
  | WriteLimitReached
  | Other
deriving DecidableEq, Repr

/-- The (de)serialization of the objects of one type.  `write` gets the size of the
    area it may fill and says which bytes it puts there; `read` gets the bytes and
    overwrites the object it was given. -/
structure AbstractNopHolder (α : Type) where
  getSize : α → Nat
  write : α → Nat → List UInt8 × ErrorStatus
  read : List UInt8 → α → ErrorStatus × α

-- ── The length of a frame ────────────────────────────────────────────────────

/-- The bytes of a `uint32_t`, in the order of a little-endian machine. -/
def lengthBytes (length : UInt32) : List UInt8 :=
  [UInt8.ofNat length.toNat, UInt8.ofNat (length.toNat / 256),
    UInt8.ofNat (length.toNat / 256 ^ 2), UInt8.ofNat (length.toNat / 256 ^ 3)]

/-- The length in a header of four bytes. -/
def lengthOfBytes (bytes : List UInt8) : UInt32 :=
  UInt32.ofNat (bytes.foldr (fun b n => b.toNat + 256 * n) 0)

theorem lengthOfBytes_lengthBytes (length : UInt32) :
    lengthOfBytes (lengthBytes length) = length := by
  have hlt := length.toNat_lt
  have hvalue : (lengthBytes length).foldr (fun b n => b.toNat + 256 * n) 0 = length.toNat := by
    simp only [lengthBytes, List.foldr_cons, List.foldr_nil, UInt8.toNat_ofNat']
    omega
  rw [lengthOfBytes, hvalue, UInt32.ofNat_toNat]

-- ── Operations ───────────────────────────────────────────────────────────────

/-- Whether a write has its length still to write. -/
inductive WriteMode where
  | WRITE_LENGTH
  | WRITE_PAYLOAD
deriving DecidableEq, Repr

/-- A write operation and how far it has come. -/
structure RingbufferWriteOperation (α : Type) where
  mode : WriteMode := .WRITE_LENGTH
  ptr : List UInt8 := []
  nopObject : Option α := none
  len : Nat := 0
  bytesWritten : Nat := 0

/-- Whether a read has its length still to read. -/
inductive ReadMode where
  | READ_LENGTH
  | READ_PAYLOAD
deriving DecidableEq, Repr

/-- `ptr` is what has been copied to the buffer so far. -/
structure RingbufferReadOperation (α : Type) where
  mode : ReadMode := .READ_LENGTH
  ptr : List UInt8 := []
  nopObject : Option α := none
  len : Nat := 0
  bytesRead : Nat := 0
  ptrProvided : Bool := false

/-- What an operation can throw. -/
inductive Thrown where
  | system (e : Errno)
  | assert
deriving DecidableEq, Repr

/-- Where a side is within `handleWrite` or `handleRead`: at one of the calls to the
    ring (about to make it, or within it), or between two of them in the code of
    libnop, which has these bytes left to write from this offset of the transaction
    on (`fill`) or is about to parse (`parse`). -/
inductive Point where
  | start
  | length
  | payload
  | fill (offset : Nat) (bytes : List UInt8) (status : ErrorStatus)
  | parse
  | commit
  | threw (e : Thrown)
deriving DecidableEq, Repr

/-- A ring without enough room or data is no error: the call goes on to its commit. -/
def Point.afterError : Errno → Point
  | .ENODATA => .commit
  | e => .threw (.system e)

section Operations

variable {α : Type}

namespace RingbufferWriteOperation

/-- A write of bytes. -/
def ofPtr (ptr : List UInt8) : RingbufferWriteOperation α :=
  { ptr := ptr, len := ptr.length }

/-- A write of an object. -/
def ofNopObject (holder : AbstractNopHolder α) (nopObject : α) : RingbufferWriteOperation α :=
  { nopObject := some nopObject, len := holder.getSize nopObject }

/-- Whether the write has moved all its bytes. -/
def completed (op : RingbufferWriteOperation α) : Bool :=
  op.mode = .WRITE_PAYLOAD ∧ op.bytesWritten = op.len

/-- The call to the ring at this point. -/
def call (op : RingbufferWriteOperation α) : Point → Action
  | .length => .writeInTx false (lengthBytes (UInt32.ofNat op.len))
  | .payload =>
      match op.nopObject with
      | some _ => .accessContiguousInTx false (UInt64.ofNat op.len)
      | none =>
          .writeInTx true ((op.ptr.drop op.bytesWritten).take (op.len - op.bytesWritten))
  | .commit => .commitTx
  | _ => .startTx

/-- The return from that call, with what it adds to `bytesWrittenNow`. -/
def returned (holder : AbstractNopHolder α) (op : RingbufferWriteOperation α)
    (txSize : Nat) (ret : Except Errno Nat) :
    Point → RingbufferWriteOperation α × Point × Nat
  | .length =>
      match ret with
      | .ok n => ({ op with mode := .WRITE_PAYLOAD }, .payload, n)
      | .error e => (op, .afterError e, 0)
  | .payload =>
      match ret with
      | .ok n =>
          match op.nopObject with
          | some object =>
              let (bytes, status) := holder.write object op.len
              (op, .fill (txSize - op.len) bytes status, 0)
          | none => ({ op with bytesWritten := op.bytesWritten + n }, .commit, n)
      | .error e => (op, .afterError e, 0)
  | .start =>
      match ret with
      | .ok _ => (op, if op.mode = .WRITE_LENGTH then .length else .payload, 0)
      | .error e => (op, .threw (.system e), 0)
  | point => (op, point, 0)

/-- The status of a nop object that has been written. -/
def filled (op : RingbufferWriteOperation α) :
    ErrorStatus → RingbufferWriteOperation α × Point × Nat
  | .None => ({ op with bytesWritten := op.bytesWritten + op.len }, .commit, op.len)
  | .WriteLimitReached => (op, .afterError .ENODATA, 0)
  | _ => (op, .afterError .EINVAL, 0)

end RingbufferWriteOperation

namespace RingbufferReadOperation

/-- A read into a buffer of the user. -/
def ofPtr (len : Nat) : RingbufferReadOperation α := { len := len, ptrProvided := true }

/-- A read into a buffer of its own. -/
def auto : RingbufferReadOperation α := {}

/-- A read of an object. -/
def ofNopObject (nopObject : α) : RingbufferReadOperation α := { nopObject := some nopObject }

/-- Whether the read has moved all its bytes. -/
def completed (op : RingbufferReadOperation α) : Bool :=
  op.mode = .READ_PAYLOAD ∧ op.bytesRead = op.len

/-- The call to the ring at this point. -/
def call (op : RingbufferReadOperation α) : Point → Action
  | .length => .readInTx false 4
  | .payload =>
      match op.nopObject with
      | some _ => .accessContiguousInTx false (UInt64.ofNat op.len)
      | none => .readInTx true (UInt64.ofNat (op.len - op.bytesRead))
  | .commit => .commitTx
  | _ => .startTx

/-- The length of the frame; it must be that of a buffer that the user provided. -/
def setLength (op : RingbufferReadOperation α) (length : Nat) :
    RingbufferReadOperation α × Bool :=
  let op := { op with mode := .READ_PAYLOAD }
  match op.nopObject with
  | some _ => ({ op with len := length }, true)
  | none =>
      if op.ptrProvided = true then (op, length == op.len)
      else ({ op with len := length, ptr := [] }, true)

/-- The return from that call, with what it adds to `bytesReadNow` and whether its
    check passes. -/
def returned (op : RingbufferReadOperation α) (out : List UInt8) (ret : Except Errno Nat) :
    Point → RingbufferReadOperation α × Point × Nat × Bool
  | .length =>
      match ret with
      | .ok n =>
          let (op, dcheck) := op.setLength (lengthOfBytes (out.take n)).toNat
          (op, .payload, n, dcheck)
      | .error e => (op, .afterError e, 0, true)
  | .payload =>
      match ret with
      | .ok n =>
          match op.nopObject with
          | some _ => (op, .parse, 0, true)
          | none =>
              ({ op with ptr := op.ptr ++ out.take n, bytesRead := op.bytesRead + n },
                .commit, n, true)
      | .error e => (op, .afterError e, 0, true)
  | .start =>
      match ret with
      | .ok _ => (op, if op.mode = .READ_LENGTH then .length else .payload, 0, true)
      | .error e => (op, .threw (.system e), 0, true)
  | point => (op, point, 0, true)

/-- Parse the object from these bytes. -/
def parsed (holder : AbstractNopHolder α) (op : RingbufferReadOperation α)
    (bytes : List UInt8) : RingbufferReadOperation α × Point × Nat :=
  match op.nopObject.map (holder.read bytes) with
  | some (.None, object) =>
      ({ op with nopObject := some object, bytesRead := op.bytesRead + op.len }, .commit, op.len)
  | some (.ReadLimitReached, object) =>
      ({ op with nopObject := some object }, .afterError .ENODATA, 0)
  | some (_, object) => ({ op with nopObject := some object }, .afterError .EINVAL, 0)
  | none => (op, .afterError .EINVAL, 0)

end RingbufferReadOperation

-- ── The two sides ────────────────────────────────────────────────────────────

/-- What the user writes, or is given. -/
inductive Content (α : Type) where
  | buffer (bytes : List UInt8)
  | object (a : α)
deriving DecidableEq, Repr

/-- Where a read puts it: a buffer of a length that the user knows, one that is
    allocated, or an object. -/
inductive Target (α : Type) where
  | ptr (len : Nat)
  | auto
  | nopObject (object : α)
deriving DecidableEq, Repr

/-- The operation of a call of `read`. -/
def RingbufferReadOperation.make : Target α → RingbufferReadOperation α
  | .ptr len => .ofPtr len
  | .auto => .auto
  | .nopObject object => .ofNopObject object

/-- The operation of a call of `write`. -/
def RingbufferWriteOperation.make (holder : AbstractNopHolder α) :
    Content α → RingbufferWriteOperation α
  | .buffer bytes => .ofPtr bytes
  | .object a => .ofNopObject holder a

/-- What the callback of a write had been given to write. -/
def RingbufferWriteOperation.content (op : RingbufferWriteOperation α) : Content α :=
  match op.nopObject with
  | some a => .object a
  | none => .buffer op.ptr

/-- What the callback of a read finds. -/
def RingbufferReadOperation.content (op : RingbufferReadOperation α) : Content α :=
  match op.nopObject with
  | some a => .object a
  | none => .buffer op.ptr

/-- The operations of a side, the point within the handling of the front one, and the
    contents of the operations whose callback was called. -/
structure Side (α : Type) (Op : Type) where
  ops : List Op
  point : Point := .start
  bytesNow : Nat := 0
  done : List (Content α) := []
  dchecks : Bool := true

/-- A reader and a writer on one ring, and the history of the ring. -/
structure Stream (α : Type) where
  ring : RingBuffer 2 (Fin 2)
  history : History 2 := {}
  writer : Side α (RingbufferWriteOperation α)
  reader : Side α (RingbufferReadOperation α)

namespace Stream

variable (holder : AbstractNopHolder α)

/-- A step of the ring. -/
def access (s : Stream α) (i : Fin 2) (action : Action) : Option (Stream α) :=
  match s.ring.step id action i with
  | none => none
  | some ring =>
      some { s with ring := ring, history := s.ring.track id action i s.history }

/-- The call is made, or goes on. -/
def pending (s : Stream α) (i : Fin 2) (call : Action) : Action :=
  if (s.ring.roles i).call = .idle then call else .resume

/-- The writer goes on with this operation, from this point. -/
def setWriter (s : Stream α) (rest : List (RingbufferWriteOperation α))
    (next : RingbufferWriteOperation α × Point × Nat) : Stream α :=
  { s with writer := { s.writer with
      ops := next.1 :: rest, point := next.2.1, bytesNow := s.writer.bytesNow + next.2.2 } }

/-- A return to the writer from the ring. -/
def writeReturned (s : Stream α) (op : RingbufferWriteOperation α)
    (rest : List (RingbufferWriteOperation α)) : Stream α :=
  let role := s.ring.roles 1
  match s.writer.point with
  | .commit =>
      match role.result with
      | .error e => s.setWriter rest (op, .threw (.system e), 0)
      | .ok _ =>
          if op.completed = true then
            { s with writer := { s.writer with
                ops := rest, point := .start, done := s.writer.done ++ [op.content] } }
          else s.setWriter rest (op, .start, 0)
  | point => s.setWriter rest (op.returned holder role.txSize.toNat role.result point)

/-- The writer makes the call at its point, or goes on with it. -/
def writeCall (s : Stream α) (op : RingbufferWriteOperation α)
    (rest : List (RingbufferWriteOperation α)) : Option (Stream α) :=
  (s.access 1 (s.pending 1 (op.call s.writer.point))).map (fun s =>
    if (s.ring.roles 1).call = .idle then s.writeReturned holder op rest else s)

/-- One step of the writer within `handleWrite`, up to its next access to the ring. -/
def writeStep (s : Stream α) : Option (Stream α) :=
  match s.writer.ops with
  | [] => none
  | op :: rest =>
      match s.writer.point with
      | .threw _ => none
      | .fill offset (b :: bytes) status =>
          (s.access 1 (.poke offset b)).map
            (fun s => s.setWriter rest (op, .fill (offset + 1) bytes status, 0))
      | .fill _ [] status => some (s.setWriter rest (op.filled status))
      | .start => { s with writer := { s.writer with bytesNow := 0 } }.writeCall holder op rest
      | .payload =>
          if (s.ring.roles 1).call = .idle ∧ op.nopObject.isSome = true
              ∧ s.ring.header.kDataPoolByteSize.toNat < op.len then
            some (s.setWriter rest (op, .threw .assert, 0))
          else s.writeCall holder op rest
      | _ => s.writeCall holder op rest

/-- The reader goes on with this operation, from this point. -/
def setReader (s : Stream α) (rest : List (RingbufferReadOperation α))
    (next : RingbufferReadOperation α × Point × Nat) : Stream α :=
  { s with reader := { s.reader with
      ops := next.1 :: rest, point := next.2.1, bytesNow := s.reader.bytesNow + next.2.2 } }

/-- A return to the reader from the ring. -/
def readReturned (s : Stream α) (op : RingbufferReadOperation α)
    (rest : List (RingbufferReadOperation α)) : Stream α :=
  let role := s.ring.roles 0
  match s.reader.point with
  | .commit =>
      match role.result with
      | .error e => s.setReader rest (op, .threw (.system e), 0)
      | .ok _ =>
          if op.completed = true then
            { s with reader := { s.reader with
                ops := rest, point := .start, done := s.reader.done ++ [op.content] } }
          else s.setReader rest (op, .start, 0)
  | point =>
      let (op, next, n, dcheck) := op.returned role.out role.result point
      { s with reader := { s.reader with dchecks := s.reader.dchecks && dcheck } }.setReader
        rest (op, next, n)

/-- The reader makes the call at its point, or goes on with it. -/
def readCall (s : Stream α) (op : RingbufferReadOperation α)
    (rest : List (RingbufferReadOperation α)) : Option (Stream α) :=
  (s.access 0 (s.pending 0 (op.call s.reader.point))).map (fun s =>
    if (s.ring.roles 0).call = .idle then s.readReturned op rest else s)

/-- One step of the reader within `handleRead`, up to its next access to the ring. -/
def readStep (s : Stream α) : Option (Stream α) :=
  match s.reader.ops with
  | [] => none
  | op :: rest =>
      match s.reader.point with
      | .threw _ => none
      | .parse =>
          let role := s.ring.roles 0
          let area := (addresses role.granted).drop (role.txSize.toNat - op.len)
          some (s.setReader rest (op.parsed holder (area.map s.ring.data)))
      | .start => { s with reader := { s.reader with bytesNow := 0 } }.readCall op rest
      | .payload =>
          if (s.ring.roles 0).call = .idle ∧ op.nopObject.isSome = true
              ∧ s.ring.header.kDataPoolByteSize.toNat < op.len then
            some (s.setReader rest (op, .threw .assert, 0))
          else s.readCall op rest
      | _ => s.readCall op rest

/-- A new ring, and the operations of both sides. -/
def make (minDataByteSize : UInt64) (data : Nat → UInt8) (writes : List (Content α))
    (reads : List (Target α)) : Stream α where
  ring := RingBuffer.make 2 minDataByteSize data
  writer := { ops := writes.map (.make holder) }
  reader := { ops := reads.map .make }

/-- The states of a stream on a ring that the header's checks accept, under any
    interleaving of the two sides. -/
inductive Reachable (minDataByteSize : UInt64) (writes : List (Content α))
    (reads : List (Target α)) : Stream α → Prop where
  | make (data : Nat → UInt8) (haccepted : (RingBufferHeader.make 2 minDataByteSize).Accepted) :
      Reachable minDataByteSize writes reads (.make holder minDataByteSize data writes reads)
  | write {s s' : Stream α} (hs : Reachable minDataByteSize writes reads s)
      (hstep : s.writeStep holder = some s') : Reachable minDataByteSize writes reads s'
  | read {s s' : Stream α} (hs : Reachable minDataByteSize writes reads s)
      (hstep : s.readStep holder = some s') : Reachable minDataByteSize writes reads s'

end Stream

end Operations

end TpRing
