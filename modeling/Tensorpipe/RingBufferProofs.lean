import Mathlib
import Tensorpipe.CursorRingProofs

/-! # The ring buffer and its roles

    A ring buffer has a header with one 64-bit marker and one flag for each role, and
    a data area whose size is a power of two.  The roles follow each other: role 0
    consumes what role 1 released, and so on; the last role produces, up to one whole
    buffer ahead of role 0.

    Several instances of a role may exist; the flag lets only one of them have an
    open transaction.  Threads and processes interleave between any two accesses to
    the shared header, so a call that makes several of them is split there: `step`
    runs the code of one instance up to and including its next access.

    `granted` are the contiguous areas an instance was handed in its open
    transaction; within them its user may write directly (`poke`). -/

namespace TpRing

open TpCursorRing

-- ── The header ───────────────────────────────────────────────────────────────

/-- The errors that the calls of a role return. -/
inductive Errno where
  | EBUSY
  | EAGAIN
  | EINVAL
  | ENODATA
deriving DecidableEq, Repr

/-- Whether a number is a power of two. -/
def isPow2 (n : UInt64) : Bool := decide (n > 0) && ((n - 1) &&& n) == 0

/-- The smallest power of two that is no less, as far as there is one. -/
def nextPow2 (n : UInt64) : UInt64 :=
  let n := n - 1
  let n := n ||| (n >>> 1)
  let n := n ||| (n >>> 2)
  let n := n ||| (n >>> 4)
  let n := n ||| (n >>> 8)
  let n := n ||| (n >>> 16)
  let n := n ||| (n >>> 32)
  n + 1

/-- The header of a ring, in the memory that both roles share. -/
structure RingBufferHeader (NumRoles : Nat) where
  kDataPoolByteSize : UInt64
  kDataModMask : UInt64
  inTx : Fin NumRoles → Bool
  markers : Fin NumRoles → UInt64

namespace RingBufferHeader

variable {NumRoles : Nat}

/-- A header with as many data bytes as asked for, or more. -/
def make (NumRoles : Nat) (minDataByteSize : UInt64) : RingBufferHeader NumRoles where
  kDataPoolByteSize := nextPow2 minDataByteSize
  kDataModMask := nextPow2 minDataByteSize - 1
  inTx := fun _ => false
  markers := fun _ => 0

/-- The checks of the constructor. -/
def Accepted (h : RingBufferHeader NumRoles) : Prop :=
  2 ≤ h.kDataPoolByteSize ∧ isPow2 h.kDataPoolByteSize = true
    ∧ h.kDataPoolByteSize ≤ 2147483647

/-- Test and set; the flag's previous value. -/
def beginTransaction (h : RingBufferHeader NumRoles) (r : Fin NumRoles) :
    RingBufferHeader NumRoles × Bool :=
  ({ h with inTx := Function.update h.inTx r true }, h.inTx r)

/-- Gives the flag of a role back. -/
def endTransaction (h : RingBufferHeader NumRoles) (r : Fin NumRoles) :
    RingBufferHeader NumRoles :=
  { h with inTx := Function.update h.inTx r false }

/-- How many bytes a role has moved, in 64 bits. -/
def readMarker (h : RingBufferHeader NumRoles) (r : Fin NumRoles) : UInt64 := h.markers r

/-- Moves the marker of a role. -/
def incMarker (h : RingBufferHeader NumRoles) (r : Fin NumRoles) (inc : UInt64) :
    RingBufferHeader NumRoles :=
  { h with markers := Function.update h.markers r (h.markers r + inc) }

end RingBufferHeader

-- ── The areas handed out ─────────────────────────────────────────────────────

/-- A contiguous area of the data. -/
structure Buffer where
  ptr : UInt64
  len : UInt64
deriving DecidableEq, Repr

/-- The addresses of an area. -/
def Buffer.addresses (b : Buffer) : List Nat := List.range' b.ptr.toNat b.len.toNat

/-- The addresses of several areas, chained together. -/
def addresses (buffers : List Buffer) : List Nat := buffers.flatMap Buffer.addresses

/-- What follows the two marker reads of `accessContiguousInTx`: the areas granted
    (none, one or two), and the new size of the transaction. -/
def accessContiguous {NumRoles : Nat} (header : RingBufferHeader NumRoles)
    (allowPartial : Bool) (size tail head : UInt64) (txSize : UInt32) :
    Except Errno (List Buffer) × UInt32 :=
  let avail := head - tail - txSize.toUInt64
  if allowPartial = false ∧ avail < size then (.error .ENODATA, txSize)
  else if avail = 0 then (.ok [], txSize)
  else
    let size := if avail < size then avail else size
    let start := (tail + txSize.toUInt64) &&& header.kDataModMask
    let stop := (start + size) &&& header.kDataModMask
    let txSize := (txSize.toUInt64 + size).toUInt32
    -- stop = 0 is the same as the end of the data, in which case it doesn't wrap
    if stop ≤ start ∧ 0 < stop then
      (.ok [⟨start, header.kDataPoolByteSize - start⟩, ⟨0, stop⟩], txSize)
    else (.ok [⟨start, size⟩], txSize)

-- ── The instances of the roles ───────────────────────────────────────────────

/-- What a call does with the areas it is granted: hand them to the caller, copy
    them out, or copy the caller's bytes into them. -/
inductive Use where
  | access
  | read
  | write (buffer : List UInt8)
deriving DecidableEq, Repr

/-- Where an instance is within a call. -/
inductive Call where
  | idle
  | tailRead (use : Use) (allowPartial : Bool) (size tail : UInt64)
  | copying (use : Use) (buffers : List Buffer)
  | ending
deriving DecidableEq, Repr

/-- A role: its transaction, and the call that it is in. -/
structure RingBufferRole where
  txSize : UInt32 := 0
  inTx : Bool := false
  call : Call := .idle
  result : Except Errno Nat := .ok 0
  out : List UInt8 := []
  granted : List Buffer := []

/-- Return from a call. -/
def RingBufferRole.return (r : RingBufferRole) (result : Except Errno Nat) : RingBufferRole :=
  { r with call := .idle, result := result }

/-- A ring buffer, with its instances. -/
structure RingBuffer (NumRoles : Nat) (ι : Type) where
  header : RingBufferHeader NumRoles
  data : Nat → UInt8
  roles : ι → RingBufferRole

/-- A call of the transaction-based interface, the rest of one, or a write by the user
    to a byte of what was granted. -/
inductive Action where
  | startTx
  | commitTx
  | cancelTx
  | accessContiguousInTx (allowPartial : Bool) (size : UInt64)
  | incMarkerInTx (size : UInt64)
  | readInTx (allowPartial : Bool) (size : UInt64)
  | writeInTx (allowPartial : Bool) (buffer : List UInt8)
  | resume
  | poke (offset : Nat) (byte : UInt8)
deriving DecidableEq, Repr

/-- A consumer and a producer. -/
instance twoRoles : NeZero 2 := ⟨by decide⟩

namespace RingBuffer

variable {NumRoles : Nat} [NeZero NumRoles] {ι : Type} [DecidableEq ι]

/-- Replaces a role. -/
def setRole (s : RingBuffer NumRoles ι) (i : ι) (r : RingBufferRole) : RingBuffer NumRoles ι :=
  { s with roles := Function.update s.roles i r }

omit [NeZero NumRoles] in
@[simp] theorem setRole_self (s : RingBuffer NumRoles ι) (i : ι) (r : RingBufferRole) :
    (s.setRole i r).roles i = r :=
  Function.update_self _ _ _

omit [NeZero NumRoles] in
theorem setRole_ne (s : RingBuffer NumRoles ι) {i j : ι} (r : RingBufferRole) (h : j ≠ i) :
    (s.setRole i r).roles j = s.roles j :=
  Function.update_of_ne h _ _

section Calls

variable (roleIdx : ι → Fin NumRoles)

/-- `startTx`: takes the flag of the role. -/
def startTx (i : ι) (s : RingBuffer NumRoles ι) : RingBuffer NumRoles ι :=
  let r := s.roles i
  if r.inTx = true then s.setRole i (r.return (.error .EBUSY))
  else
    let (header, taken) := s.header.beginTransaction (roleIdx i)
    let s := { s with header := header }
    if taken = true then s.setRole i (r.return (.error .EAGAIN))
    else s.setRole i { r.return (.ok 0) with inTx := true }

/-- The marker moves first; the flag is cleared afterwards. -/
def commitTx (i : ι) (s : RingBuffer NumRoles ι) : RingBuffer NumRoles ι :=
  let r := s.roles i
  if r.inTx = false then s.setRole i (r.return (.error .EINVAL))
  else
    let s := { s with header := s.header.incMarker (roleIdx i) r.txSize.toUInt64 }
    s.setRole i { r with txSize := 0, inTx := false, granted := [], call := .ending }

/-- The end of `commitTx`: the flag is given back. -/
def endCommit (i : ι) (s : RingBuffer NumRoles ι) : RingBuffer NumRoles ι :=
  let s := { s with header := s.header.endTransaction (roleIdx i) }
  s.setRole i ((s.roles i).return (.ok 0))

/-- `cancelTx`: gives the flag back and leaves the marker. -/
def cancelTx (i : ι) (s : RingBuffer NumRoles ι) : RingBuffer NumRoles ι :=
  let r := s.roles i
  if r.inTx = false then s.setRole i (r.return (.error .EINVAL))
  else
    let s := { s with header := s.header.endTransaction (roleIdx i) }
    s.setRole i { r.return (.ok 0) with txSize := 0, inTx := false, granted := [] }

/-- An access up to the read of the instance's own marker. -/
def readTail (use : Use) (allowPartial : Bool) (size : UInt64) (i : ι)
    (s : RingBuffer NumRoles ι) : RingBuffer NumRoles ι :=
  let r := s.roles i
  if r.inTx = false then s.setRole i (r.return (.error .EINVAL))
  else if size = 0 then s.setRole i (r.return (.ok 0))
  else s.setRole i { r with
    call := .tailRead use allowPartial size (s.header.readMarker (roleIdx i)) }

/-- The marker of the role that this one follows. -/
def readHead (r : Fin NumRoles) (s : RingBuffer NumRoles ι) : UInt64 :=
  s.header.readMarker (r + 1)
    + (if r.val + 1 = NumRoles then s.header.kDataPoolByteSize else 0)

/-- The read of the marker that limits it, and what follows. -/
def grant (use : Use) (allowPartial : Bool) (size tail : UInt64) (i : ι)
    (s : RingBuffer NumRoles ι) : RingBuffer NumRoles ι :=
  let r := s.roles i
  match accessContiguous s.header allowPartial size tail (s.readHead (roleIdx i)) r.txSize with
  | (.error e, _) => s.setRole i (r.return (.error e))
  | (.ok buffers, txSize) =>
      let r := { r with txSize := txSize, granted := r.granted ++ buffers }
      if use = .access ∨ buffers = [] then s.setRole i (r.return (.ok buffers.length))
      else s.setRole i { r with call := .copying use buffers }

/-- Copy out of, or into, the areas granted. -/
def copy (use : Use) (buffers : List Buffer) (i : ι) (s : RingBuffer NumRoles ι) :
    RingBuffer NumRoles ι :=
  let r := (s.roles i).return (.ok (addresses buffers).length)
  match use with
  | .access => s.setRole i r
  | .read => s.setRole i { r with out := (addresses buffers).map s.data }
  | .write buffer =>
      let data := store s.data (addresses buffers) (buffer.take (addresses buffers).length)
      { s with data := data }.setRole i r

/-- The user of a transaction writes a byte of what it was granted. -/
def poke (offset : Nat) (byte : UInt8) (i : ι) (s : RingBuffer NumRoles ι) :
    Option (RingBuffer NumRoles ι) :=
  if (s.roles i).inTx = false then none
  else match (addresses (s.roles i).granted)[offset]? with
    | none => none
    | some address => some { s with data := Function.update s.data address byte }

/-- One step of an instance: a call up to its first access to the shared header, or
    from one access to the next. -/
def step (action : Action) (i : ι) (s : RingBuffer NumRoles ι) :
    Option (RingBuffer NumRoles ι) :=
  match (s.roles i).call, action with
  | .idle, .startTx => some (s.startTx roleIdx i)
  | .idle, .commitTx => some (s.commitTx roleIdx i)
  | .idle, .cancelTx => some (s.cancelTx roleIdx i)
  | .idle, .accessContiguousInTx allowPartial size =>
      some (s.readTail roleIdx .access allowPartial size i)
  | .idle, .incMarkerInTx size => some (s.readTail roleIdx .access false size i)
  | .idle, .readInTx allowPartial size => some (s.readTail roleIdx .read allowPartial size i)
  | .idle, .writeInTx allowPartial buffer =>
      some (s.readTail roleIdx (.write buffer) allowPartial (UInt64.ofNat buffer.length) i)
  | .idle, .poke offset byte => s.poke offset byte i
  | .tailRead use allowPartial size tail, .resume =>
      some (s.grant roleIdx use allowPartial size tail i)
  | .copying use buffers, .resume => some (s.copy use buffers i)
  | .ending, .resume => some (s.endCommit roleIdx i)
  | _, _ => none

end Calls

/-- A new ring buffer: whatever the data holds, and no transaction. -/
def make (NumRoles : Nat) (minDataByteSize : UInt64) (data : Nat → UInt8) :
    RingBuffer NumRoles ι where
  header := .make NumRoles minDataByteSize
  data := data
  roles := fun _ => {}

end RingBuffer

-- ── The same run on an unbounded tape ────────────────────────────────────────

/-- What a run has done, in unbounded arithmetic: how far each role has come and the
    addresses it committed, the bytes that the last role committed, the bytes the
    other roles then wrote over them, and the bytes that role 0 consumed. -/
structure History (NumRoles : Nat) where
  pos : Fin NumRoles → Nat := fun _ => 0
  committed : Fin NumRoles → List Nat := fun _ => []
  produced : List UInt8 := []
  writes : List (Nat × List UInt8) := []
  consumed : List UInt8 := []

namespace History

variable {NumRoles : Nat}

/-- The produced bytes as the other roles left them. -/
def left (h : History NumRoles) : List UInt8 :=
  h.writes.foldl (fun tape w => overwrite tape w.1 w.2) h.produced

/-- Role `r` commits `k` bytes at these addresses, with these contents. -/
def commit (h : History NumRoles) (r : Fin NumRoles) (addrs : List Nat) (bytes : List UInt8) :
    History NumRoles where
  pos := Function.update h.pos r (h.pos r + addrs.length)
  committed := Function.update h.committed r (h.committed r ++ addrs)
  produced := if r.val + 1 = NumRoles then h.produced ++ bytes else h.produced
  writes := h.writes
  consumed := if r.val = 0 then h.consumed ++ bytes else h.consumed

/-- Role `r` writes bytes from this offset of its transaction on. -/
def write (h : History NumRoles) (r : Fin NumRoles) (offset : Nat) (bytes : List UInt8) :
    History NumRoles :=
  if r.val + 1 = NumRoles then h
  else { h with writes := h.writes ++ [(h.pos r + offset, bytes)] }

end History

namespace RingBuffer

variable {NumRoles : Nat} [NeZero NumRoles] {ι : Type} [DecidableEq ι]

/-- What a step adds to the history. -/
def track (roleIdx : ι → Fin NumRoles) (action : Action) (i : ι) (s : RingBuffer NumRoles ι)
    (h : History NumRoles) : History NumRoles :=
  let r := s.roles i
  match r.call, action with
  | .idle, .commitTx =>
      if r.inTx = true then
        h.commit (roleIdx i) (addresses r.granted) ((addresses r.granted).map s.data)
      else h
  | .idle, .poke offset byte => h.write (roleIdx i) offset [byte]
  | .copying (.write buffer) buffers, .resume =>
      h.write (roleIdx i) (r.txSize.toNat - (addresses buffers).length)
        (buffer.take (addresses buffers).length)
  | _, _ => h

/-- The states of a ring buffer that the header's checks accept, under any interleaving
    of the steps of its instances. -/
inductive Reachable (roleIdx : ι → Fin NumRoles) :
    RingBuffer NumRoles ι → History NumRoles → Prop where
  | make (minDataByteSize : UInt64) (data : Nat → UInt8)
      (haccepted : (RingBufferHeader.make NumRoles minDataByteSize).Accepted) :
      Reachable roleIdx (RingBuffer.make NumRoles minDataByteSize data) {}
  | step {s s' : RingBuffer NumRoles ι} {h : History NumRoles} (action : Action) (i : ι)
      (hs : Reachable roleIdx s h) (hstep : s.step roleIdx action i = some s') :
      Reachable roleIdx s' (s.track roleIdx action i h)

end RingBuffer

end TpRing
