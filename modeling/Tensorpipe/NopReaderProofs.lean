import Mathlib.Data.List.Basic
import Mathlib.Tactic.Common
import Tensorpipe.RingOperationProofs

/-! # Reading from two buffers as from one

    Where what libnop reads wraps around the end of the ring, its `NopReader` consumes a first
    buffer and then switches over to a second one.

    The idea: a reader stands for the addresses that it has left, those of the first buffer and
    then those of the second (`NopReader.addresses`).  Each call takes as many of them off the
    front as it reads or skips, wherever the switch falls.  So two readers go on alike as long
    as the bytes at their addresses are the same. -/

namespace TpRing

-- ── The reader ───────────────────────────────────────────────────────────────

/-- A reader with two buffers, the second of which follows the first. -/
structure NopReader where
  ptr1 : Nat
  len1 : Nat
  ptr2 : Nat := 0
  len2 : Nat := 0
deriving DecidableEq, Repr

/-- How a call ended: its status, and where it read, in the order of the bytes it returns. -/
structure Reading where
  status : ErrorStatus
  addresses : List Nat := []
deriving DecidableEq, Repr

namespace NopReader

/-- The second buffer takes the place of the first. -/
def switch (r : NopReader) : NopReader := { ptr1 := r.ptr2, len1 := r.len2 }

/-- Goes on in the first buffer. -/
def advance (r : NopReader) (size : Nat) : NopReader :=
  { r with ptr1 := r.ptr1 + size, len1 := r.len1 - size }

/-- Whether there are that many bytes. -/
def Ensure (r : NopReader) (size : Nat) : ErrorStatus :=
  if size ≤ r.len1 + r.len2 then .None else .ReadLimitReached

/-- Reads one byte, from the second buffer if the first is used up. -/
def ReadByte (r : NopReader) : Reading × NopReader :=
  let r := if r.len1 = 0 then r.switch else r
  ({ status := .None, addresses := [r.ptr1] }, r.advance 1)

/-- `size` is `end - begin`. -/
def Read (r : NopReader) (size : Nat) : Reading × NopReader :=
  if r.len1 < size then
    let first := List.range' r.ptr1 r.len1
    let size := size - r.len1
    let r := r.switch
    ({ status := .None, addresses := first ++ List.range' r.ptr1 size }, r.advance size)
  else ({ status := .None, addresses := List.range' r.ptr1 size }, r.advance size)

/-- Leaves out bytes, across the end of the first buffer if need be. -/
def Skip (r : NopReader) (paddingBytes : Nat) : Reading × NopReader :=
  if r.len1 < paddingBytes then
    let paddingBytes := paddingBytes - r.len1
    let r := r.switch
    ({ status := .None }, r.advance paddingBytes)
  else ({ status := .None }, r.advance paddingBytes)

end NopReader

/-- A call that libnop makes. -/
inductive NopReadOp where
  | ensure (size : Nat)
  | readByte
  | read (size : Nat)
  | skip (paddingBytes : Nat)
deriving DecidableEq, Repr

/-- How much a call reads or skips. -/
def NopReadOp.size : NopReadOp → Nat
  | ensure _ => 0
  | readByte => 1
  | read size => size
  | skip paddingBytes => paddingBytes

/-- What a call shows: its status, the bytes it returns, and how much is left behind it. -/
structure Observation where
  status : ErrorStatus
  bytes : List UInt8
  remaining : Nat
deriving DecidableEq, Repr

namespace NopReader

/-- One call of the reader. -/
def step (r : NopReader) : NopReadOp → Reading × NopReader
  | .ensure size => ({ status := r.Ensure size }, r)
  | .readByte => r.ReadByte
  | .read size => r.Read size
  | .skip paddingBytes => r.Skip paddingBytes

/-- A sequence of calls, over a memory: what each of them shows. -/
def run (memory : Nat → UInt8) : NopReader → List NopReadOp → List Observation
  | _, [] => []
  | r, op :: ops =>
      { status := (r.step op).1.status
        bytes := (r.step op).1.addresses.map memory
        remaining := (r.step op).2.len1 + (r.step op).2.len2 } :: (r.step op).2.run memory ops

/-- Everywhere that a sequence of calls reads. -/
def reads : NopReader → List NopReadOp → List Nat
  | _, [] => []
  | r, op :: ops => (r.step op).1.addresses ++ (r.step op).2.reads ops

/-- Before each read or skip, `Ensure` would have accepted its size. -/
def Ensured : NopReader → List NopReadOp → Prop
  | _, [] => True
  | r, op :: ops => r.Ensure op.size = .None ∧ (r.step op).2.Ensured ops

-- ── The addresses that are left ──────────────────────────────────────────────

/-- The bytes that are left, in order. -/
def addresses (r : NopReader) : List Nat := List.range' r.ptr1 r.len1 ++ List.range' r.ptr2 r.len2

theorem length_addresses (r : NopReader) : r.addresses.length = r.len1 + r.len2 := by
  rw [addresses, List.length_append, List.length_range', List.length_range']

theorem ensure_iff {r : NopReader} {size : Nat} :
    r.Ensure size = .None ↔ size ≤ r.addresses.length := by
  rw [Ensure, length_addresses]
  by_cases h : size ≤ r.len1 + r.len2
  · rw [if_pos h]
    exact ⟨fun _ => h, fun _ => rfl⟩
  · rw [if_neg h]
    exact ⟨fun hno => (nomatch hno), fun hyes => absurd hyes h⟩

/-- Within the first buffer. -/
theorem addresses_within {r : NopReader} {size : Nat} (h : size ≤ r.len1) :
    r.addresses.take size = List.range' r.ptr1 size
      ∧ r.addresses.drop size = (r.advance size).addresses := by
  obtain ⟨rest, hrest⟩ := Nat.exists_eq_add_of_le h
  have hsplit : List.range' r.ptr1 r.len1
      = List.range' r.ptr1 size ++ List.range' (r.ptr1 + size) rest := by
    rw [hrest, ← List.range'_append_1]
  have hlen : (List.range' r.ptr1 size).length = size := List.length_range'
  constructor
  · rw [addresses, hsplit, List.append_assoc, List.take_left' hlen]
  · rw [addresses, hsplit, List.append_assoc, List.drop_left' hlen, addresses, advance, hrest,
      Nat.add_sub_cancel_left]

/-- Beyond the first buffer what is left is the second one, and the rest is taken from it. -/
theorem addresses_beyond {r : NopReader} {size : Nat} (hmore : r.len1 ≤ size)
    (hroom : size ≤ r.addresses.length) :
    r.addresses.take size = List.range' r.ptr1 r.len1 ++ List.range' r.ptr2 (size - r.len1)
      ∧ r.addresses.drop size = (r.switch.advance (size - r.len1)).addresses := by
  have hfits : size - r.len1 ≤ r.switch.len1 := by
    rw [length_addresses] at hroom
    show size - r.len1 ≤ r.len2
    omega
  have hsecond : r.switch.addresses = List.range' r.ptr2 r.len2 := List.append_nil _
  obtain ⟨htake, hdrop⟩ := addresses_within hfits
  rw [hsecond] at htake hdrop
  have hlen : (List.range' r.ptr1 r.len1).length = r.len1 := List.length_range'
  constructor
  · rw [addresses, List.take_append, List.take_of_length_le (by rwa [hlen]), hlen, htake]
    rfl
  · rw [addresses, List.drop_append, List.drop_of_length_le (by rwa [hlen]), hlen, hdrop,
      List.nil_append]

/-- The addresses that a call reads, if it is given as many as it asks for. -/
def taken (addresses : List Nat) : NopReadOp → List Nat
  | .ensure _ => []
  | .readByte => addresses.take 1
  | .read size => addresses.take size
  | .skip _ => []

/-- **One call.**  It reads off the front of what is left, and leaves the rest. -/
theorem step_spec {r : NopReader} {op : NopReadOp} (h : op.size ≤ r.addresses.length) :
    (r.step op).1.addresses = taken r.addresses op
      ∧ (r.step op).2.addresses = r.addresses.drop op.size := by
  cases op with
  | ensure size => exact ⟨rfl, rfl⟩
  | readByte =>
      rw [step, ReadByte, taken, NopReadOp.size]
      by_cases hempty : r.len1 = 0
      · rw [if_pos hempty]
        obtain ⟨htake, hdrop⟩ := addresses_beyond (hempty ▸ Nat.zero_le 1) h
        rw [hempty] at htake hdrop
        exact ⟨htake.symm, hdrop.symm⟩
      · rw [if_neg hempty]
        obtain ⟨htake, hdrop⟩ := addresses_within (Nat.pos_of_ne_zero hempty)
        exact ⟨htake.symm, hdrop.symm⟩
  | read size =>
      rw [step, Read, taken, NopReadOp.size]
      by_cases hmore : r.len1 < size
      · rw [if_pos hmore]
        obtain ⟨htake, hdrop⟩ := addresses_beyond (Nat.le_of_lt hmore) h
        exact ⟨htake.symm, hdrop.symm⟩
      · rw [if_neg hmore]
        obtain ⟨htake, hdrop⟩ := addresses_within (Nat.le_of_not_lt hmore)
        exact ⟨htake.symm, hdrop.symm⟩
  | skip paddingBytes =>
      rw [step, Skip, taken, NopReadOp.size]
      by_cases hmore : r.len1 < paddingBytes
      · rw [if_pos hmore]
        exact ⟨rfl, (addresses_beyond (Nat.le_of_lt hmore) h).2.symm⟩
      · rw [if_neg hmore]
        exact ⟨rfl, (addresses_within (Nat.le_of_not_lt hmore)).2.symm⟩

theorem taken_subset (addresses : List Nat) (op : NopReadOp) : taken addresses op ⊆ addresses := by
  cases op with
  | ensure size => exact List.nil_subset _
  | readByte => exact List.take_subset _ _
  | read size => exact List.take_subset _ _
  | skip paddingBytes => exact List.nil_subset _

/-- The bytes that a call returns depend on the bytes at the addresses only. -/
theorem map_taken {memory memory' : Nat → UInt8} {as bs : List Nat}
    (h : as.map memory = bs.map memory') (op : NopReadOp) :
    (taken as op).map memory = (taken bs op).map memory' := by
  cases op with
  | ensure size => rfl
  | readByte => rw [taken, taken, List.map_take, List.map_take, h]
  | read size => rw [taken, taken, List.map_take, List.map_take, h]
  | skip paddingBytes => rfl

-- ── Two readers side by side ─────────────────────────────────────────────────

/-- Two readers that have the same bytes left. -/
def Alike (memory memory' : Nat → UInt8) (r r' : NopReader) : Prop :=
  r.addresses.map memory = r'.addresses.map memory'

section Alike

variable {memory memory' : Nat → UInt8} {r r' : NopReader}

theorem Alike.length (h : Alike memory memory' r r') :
    r.addresses.length = r'.addresses.length := by
  simpa only [List.length_map] using congrArg List.length h

theorem Alike.status (h : Alike memory memory' r r') (op : NopReadOp) :
    (r.step op).1.status = (r'.step op).1.status := by
  cases op with
  | ensure size =>
      have hlen := h.length
      rw [length_addresses, length_addresses] at hlen
      rw [step, step, Ensure, Ensure, hlen]
  | readByte => rfl
  | read size =>
      rw [step, step, Read, Read]
      split <;> split <;> rfl
  | skip paddingBytes =>
      rw [step, step, Skip, Skip]
      split <;> split <;> rfl

theorem Alike.step (h : Alike memory memory' r r') {op : NopReadOp}
    (hroom : op.size ≤ r.addresses.length) :
    (r.step op).1.addresses.map memory = (r'.step op).1.addresses.map memory'
      ∧ Alike memory memory' (r.step op).2 (r'.step op).2 := by
  obtain ⟨hreads, hleft⟩ := step_spec hroom
  obtain ⟨hreads', hleft'⟩ := step_spec (h.length ▸ hroom)
  constructor
  · rw [hreads, hreads']
    exact map_taken h op
  · rw [Alike, hleft, hleft', List.map_drop, List.map_drop, h]

/-- Readers that have the same bytes left show the same, call by call. -/
theorem Alike.run (h : Alike memory memory' r r') {ops : List NopReadOp} (hops : r.Ensured ops) :
    r.run memory ops = r'.run memory' ops := by
  induction ops generalizing r r' with
  | nil => rfl
  | cons op ops ih =>
      obtain ⟨hbytes, hnext⟩ := h.step (ensure_iff.mp hops.1)
      have hremaining := hnext.length
      rw [length_addresses, length_addresses] at hremaining
      rw [NopReader.run, NopReader.run, h.status op, hbytes, hremaining, ih hnext hops.2]

end Alike

/-- Nothing is read but what is left. -/
theorem reads_subset {r : NopReader} {ops : List NopReadOp} (hops : r.Ensured ops) :
    r.reads ops ⊆ r.addresses := by
  induction ops generalizing r with
  | nil => exact List.nil_subset _
  | cons op ops ih =>
      obtain ⟨hreads, hleft⟩ := step_spec (ensure_iff.mp hops.1)
      refine List.append_subset.mpr ⟨?_, ?_⟩
      · rw [hreads]
        exact taken_subset _ _
      · have hrest := ih hops.2
        rw [hleft] at hrest
        exact fun a ha => List.mem_of_mem_drop (hrest ha)

end NopReader

-- ── A byte string in one piece, and in two ───────────────────────────────────

/-- A byte string at an address. -/
def HoldsAt (memory : Nat → UInt8) (ptr : Nat) (bytes : List UInt8) : Prop :=
  (List.range' ptr bytes.length).map memory = bytes

/-- The reader that `readNopObject` makes of the areas it was granted; an area that is missing
    is empty. -/
def NopReader.ofBuffers (buffers : List Buffer) : NopReader where
  ptr1 := (buffers.getD 0 ⟨0, 0⟩).ptr.toNat
  len1 := (buffers.getD 0 ⟨0, 0⟩).len.toNat
  ptr2 := (buffers.getD 1 ⟨0, 0⟩).ptr.toNat
  len2 := (buffers.getD 1 ⟨0, 0⟩).len.toNat

theorem NopReader.ofBuffers_addresses {buffers : List Buffer} (h : buffers.length ≤ 2) :
    (ofBuffers buffers).addresses = TpRing.addresses buffers := by
  match buffers with
  | [] => rfl
  | [_] => rfl
  | [_, _] => exact congrArg _ (List.append_nil _).symm
  | _ :: _ :: _ :: _ =>
      simp only [List.length_cons] at h
      omega

/-- What libnop reads from the areas of a grant, it would read from a copy in one piece. -/
theorem granted_as_one {memory contiguous : Nat → UInt8} {buffers : List Buffer} {ptr : Nat}
    (hareas : buffers.length ≤ 2)
    (hcopy : HoldsAt contiguous ptr ((addresses buffers).map memory)) {ops : List NopReadOp}
    (hops : (NopReader.ofBuffers buffers).Ensured ops) :
    NopReader.run memory (.ofBuffers buffers) ops
      = NopReader.run contiguous { ptr1 := ptr, len1 := (addresses buffers).length } ops := by
  refine NopReader.Alike.run ?_ hops
  rw [HoldsAt, List.length_map] at hcopy
  rw [NopReader.Alike, NopReader.ofBuffers_addresses hareas, ← hcopy, NopReader.addresses,
    List.range'_zero, List.append_nil]

/-- **Two buffers are as good as one.**  Wherever a byte string is cut in two, the reader over
    the two buffers shows what a reader over the whole of it shows, and reads nowhere else. -/
theorem two_buffers_as_one {memory contiguous : Nat → UInt8} {ptr1 ptr2 ptr : Nat}
    {xs ys : List UInt8} (hfirst : HoldsAt memory ptr1 xs) (hsecond : HoldsAt memory ptr2 ys)
    (hwhole : HoldsAt contiguous ptr (xs ++ ys)) (ops : List NopReadOp)
    (hops : NopReader.Ensured ⟨ptr1, xs.length, ptr2, ys.length⟩ ops) :
    NopReader.run memory ⟨ptr1, xs.length, ptr2, ys.length⟩ ops
        = NopReader.run contiguous { ptr1 := ptr, len1 := (xs ++ ys).length } ops
      ∧ ∀ a ∈ NopReader.reads ⟨ptr1, xs.length, ptr2, ys.length⟩ ops,
          ptr1 ≤ a ∧ a < ptr1 + xs.length ∨ ptr2 ≤ a ∧ a < ptr2 + ys.length := by
  constructor
  · refine NopReader.Alike.run ?_ hops
    rw [NopReader.Alike, NopReader.addresses, NopReader.addresses, List.range'_zero,
      List.append_nil, List.map_append, hwhole, hfirst, hsecond]
  · intro a ha
    have hleft := NopReader.reads_subset hops ha
    rw [NopReader.addresses, List.mem_append, List.mem_range'_1, List.mem_range'_1] at hleft
    exact hleft

/-- A range across the end of the first buffer, and a skip up to the end of the second. -/
theorem two_buffers_as_one_of_four :
    NopReader.run (fun a => UInt8.ofNat a) ⟨8, 2, 0, 2⟩ [.ensure 4, .read 3, .skip 1]
        = NopReader.run (fun a => [8, 9, 0, 1].getD a 0) { ptr1 := 0, len1 := 4 }
            [.ensure 4, .read 3, .skip 1] := by
  have hfirst : HoldsAt (fun a => UInt8.ofNat a) 8 [8, 9] := by
    unfold HoldsAt
    decide
  have hsecond : HoldsAt (fun a => UInt8.ofNat a) 0 [0, 1] := by
    unfold HoldsAt
    decide
  have hwhole : HoldsAt (fun a => [8, 9, 0, 1].getD a 0) 0 ([8, 9] ++ [0, 1]) := by
    unfold HoldsAt
    decide
  exact (two_buffers_as_one hfirst hsecond hwhole [.ensure 4, .read 3, .skip 1]
    ⟨by decide, by decide, by decide, trivial⟩).1

end TpRing
