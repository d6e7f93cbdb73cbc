import Mathlib.Tactic.Common
import Tensorpipe.RingGeometryProofs
import Tensorpipe.RingOperationProofs

/-! # What one call of `handleRead` or `handleWrite` accounts for

    A call counts the bytes it deals with three times: in the transaction, whose size the
    commit adds to the marker; in its return value; and in the progress of the operation.

    The peer may move its marker between the two accesses of a call, so each of them takes its
    own `Look`.  What an operation makes of an access is what it makes of it in the stepwise
    model; here the access itself is taken whole.

    The idea of the proofs: every access adds the same number to all three counts, except one
    that was granted for a nop object on which libnop then stops at the limit. -/

namespace TpRing

open TpCursorRing

variable {α : Type} {NumRoles : Nat}

-- ── One access of a call ─────────────────────────────────────────────────────

/-- What an access finds: the marker that limits it, and the data. -/
structure Look where
  head : UInt64
  data : Nat → UInt8

/-- A call under way: the operation, the bytes its transaction was granted, and those it has
    counted. -/
structure Handling (Op : Type) where
  op : Op
  txSize : UInt32 := 0
  bytesNow : Nat := 0

/-- The call goes on with this operation and counts these bytes, or it throws. -/
def Handling.settle {Op : Type} (h : Handling Op) (txSize : UInt32) :
    Op × Point × Nat → Except Thrown (Handling Op)
  | (_, .threw e, _) => .error e
  | (op, _, n) => .ok { op, txSize, bytesNow := h.bytesNow + n }

/-- An access, and what the operation makes of the bytes. -/
def Handling.access {Op : Type} (header : RingBufferHeader NumRoles) (tail : UInt64) (look : Look)
    (allowPartial : Bool) (size : UInt64) (finish : List UInt8 → Op × Point × Nat)
    (h : Handling Op) : Except Thrown (Handling Op) :=
  match accessContiguousInTx header allowPartial size tail look.head true h.txSize with
  | (.error e, txSize) => h.settle txSize (h.op, .afterError e, 0)
  | (.ok buffers, txSize) => h.settle txSize (finish ((addresses buffers).map look.data))

/-- The access for a nop object, which must fit the ring. -/
def Handling.accessNopObject {Op : Type} (header : RingBufferHeader NumRoles) (tail : UInt64)
    (look : Look) (len : Nat) (finish : List UInt8 → Op × Point × Nat) (h : Handling Op) :
    Except Thrown (Handling Op) :=
  if header.kDataPoolByteSize.toNat < len then .error .assert
  else h.access header tail look false (UInt64.ofNat len) finish

-- ── The two calls ────────────────────────────────────────────────────────────

/-- What `handleRead` makes of the bytes that it copied out. -/
def RingbufferReadOperation.received (op : RingbufferReadOperation α) (point : Point)
    (out : List UInt8) : RingbufferReadOperation α × Point × Nat :=
  let (op, next, n, _) := op.returned out (.ok out.length) point
  (op, next, n)

/-- The read of a length, in a transaction that is open. -/
def handleReadLength (header : RingBufferHeader NumRoles) (tail : UInt64) (look : Look)
    (h : Handling (RingbufferReadOperation α)) :
    Except Thrown (Handling (RingbufferReadOperation α)) :=
  if h.op.mode = .READ_LENGTH then h.access header tail look false 4 (h.op.received .length)
  else .ok h

/-- The read of an object, in a transaction that is open. -/
def readNopObject (holder : AbstractNopHolder α) (header : RingBufferHeader NumRoles)
    (tail : UInt64) (look : Look) (h : Handling (RingbufferReadOperation α)) :
    Except Thrown (Handling (RingbufferReadOperation α)) :=
  h.accessNopObject header tail look h.op.len (h.op.parsed holder)

/-- The read of a payload, in a transaction that is open. -/
def handleReadPayload (holder : AbstractNopHolder α) (header : RingBufferHeader NumRoles)
    (tail : UInt64) (look : Look) (h : Handling (RingbufferReadOperation α)) :
    Except Thrown (Handling (RingbufferReadOperation α)) :=
  if h.op.mode = .READ_PAYLOAD then
    match h.op.nopObject with
    | some _ => readNopObject holder header tail look h
    | none =>
        h.access header tail look true (UInt64.ofNat (h.op.len - h.op.bytesRead))
          (h.op.received .payload)
  else .ok h

/-- A call that finds no transaction open; its commit adds `txSize` to the marker. -/
def handleRead (holder : AbstractNopHolder α) (header : RingBufferHeader NumRoles)
    (tail : UInt64) (atLength atPayload : Look) (op : RingbufferReadOperation α) :
    Except Thrown (Handling (RingbufferReadOperation α)) :=
  (handleReadLength header tail atLength { op }).bind
    (handleReadPayload holder header tail atPayload)

/-- The write of a length, in a transaction that is open. -/
def handleWriteLength (holder : AbstractNopHolder α) (header : RingBufferHeader NumRoles)
    (tail : UInt64) (look : Look) (h : Handling (RingbufferWriteOperation α)) :
    Except Thrown (Handling (RingbufferWriteOperation α)) :=
  if h.op.mode = .WRITE_LENGTH then
    h.access header tail look false 4 (fun area => h.op.returned holder 4 (.ok area.length) .length)
  else .ok h

/-- The write of an object, in a transaction that is open. -/
def writeNopObject (holder : AbstractNopHolder α) (header : RingBufferHeader NumRoles)
    (tail : UInt64) (look : Look) (object : α) (h : Handling (RingbufferWriteOperation α)) :
    Except Thrown (Handling (RingbufferWriteOperation α)) :=
  h.accessNopObject header tail look h.op.len
    (fun _ => h.op.filled (holder.write object h.op.len).2)

/-- The write of a payload, in a transaction that is open. -/
def handleWritePayload (holder : AbstractNopHolder α) (header : RingBufferHeader NumRoles)
    (tail : UInt64) (look : Look) (h : Handling (RingbufferWriteOperation α)) :
    Except Thrown (Handling (RingbufferWriteOperation α)) :=
  if h.op.mode = .WRITE_PAYLOAD then
    match h.op.nopObject with
    | some object => writeNopObject holder header tail look object h
    | none =>
        h.access header tail look true (UInt64.ofNat (h.op.len - h.op.bytesWritten))
          (fun area => h.op.returned holder 0 (.ok area.length) .payload)
  else .ok h

/-- `handleWrite`: the length, the payload, or both. -/
def handleWrite (holder : AbstractNopHolder α) (header : RingBufferHeader NumRoles)
    (tail : UInt64) (atLength atPayload : Look) (op : RingbufferWriteOperation α) :
    Except Thrown (Handling (RingbufferWriteOperation α)) :=
  (handleWriteLength holder header tail atLength { op }).bind
    (handleWritePayload holder header tail atPayload)

-- ── Accounting ───────────────────────────────────────────────────────────────

/-- The bytes of its frame that an operation has dealt with. -/
def RingbufferReadOperation.progress (op : RingbufferReadOperation α) : Nat :=
  (if op.mode = .READ_PAYLOAD then 4 else 0) + op.bytesRead

/-- How many bytes of its frame a write has moved. -/
def RingbufferWriteOperation.progress (op : RingbufferWriteOperation α) : Nat :=
  (if op.mode = .WRITE_PAYLOAD then 4 else 0) + op.bytesWritten

/-- The marker, the return value and the operation move by the same amount. -/
structure Accounts {Op : Type} (progress : Op → Nat) (op : Op) (h : Handling Op) : Prop where
  marker : h.txSize.toNat = h.bytesNow
  progress : progress h.op = progress op + h.bytesNow

/-- Part of a call: all three counts move by `k`. -/
structure Moves {Op : Type} (progress : Op → Nat) (h h' : Handling Op) (k : Nat) : Prop where
  marker : h'.txSize.toNat = h.txSize.toNat + k
  returned : h'.bytesNow = h.bytesNow + k
  progress : progress h'.op = progress h.op + k

/-- Part of a call in which only the transaction moves. -/
structure Skips {Op : Type} (h h' : Handling Op) (k : Nat) : Prop where
  marker : h'.txSize.toNat = h.txSize.toNat + k
  returned : h'.bytesNow = h.bytesNow

section Moves

variable {Op : Type} {progress : Op → Nat} {op : Op} {h h' h'' : Handling Op} {k l : Nat}

theorem Moves.refl (h : Handling Op) : Moves progress h h 0 := ⟨rfl, rfl, rfl⟩

theorem Moves.trans (hk : Moves progress h h' k) (hl : Moves progress h' h'' l) :
    Moves progress h h'' (k + l) := by
  constructor
  · rw [hl.marker, hk.marker, Nat.add_assoc]
  · rw [hl.returned, hk.returned, Nat.add_assoc]
  · rw [hl.progress, hk.progress, Nat.add_assoc]

theorem Moves.accounts (hk : Moves progress { op } h k) : Accounts progress op h := by
  have hmarker : h.txSize.toNat = 0 + k := hk.marker
  have hreturned : h.bytesNow = 0 + k := hk.returned
  refine ⟨hmarker.trans hreturned.symm, ?_⟩
  rw [hk.progress, hreturned, Nat.zero_add]

/-- What was skipped is missing from the count. -/
theorem Skips.not_accounts (hk : Moves progress { op } h k) (hskips : Skips h h' l)
    (hpos : 0 < l) : ¬ Accounts progress op h' := by
  intro hacc
  have hmarker : h.txSize.toNat = 0 + k := hk.marker
  have hreturned : h.bytesNow = 0 + k := hk.returned
  have hsame := hacc.marker
  rw [hskips.marker, hskips.returned, hmarker, hreturned] at hsame
  omega

end Moves

/-- What an operation makes of `len` bytes: it counts them all, or, if libnop stopped at its
    limit, none. -/
structure Finishes {Op : Type} (progress : Op → Nat) (op : Op) (len : Nat) (limited : Prop)
    (result : Op × Point × Nat) : Prop where
  counts : ¬ limited → (∃ e, result.2.1 = .threw e)
    ∨ result.2.2 = len ∧ progress result.1 = progress op + len
  limit : limited → (∀ e, result.2.1 ≠ .threw e) ∧ result.2.2 = 0
    ∧ progress result.1 = progress op

section Access

variable {header : RingBufferHeader NumRoles} {cap : Nat} {tail : UInt64} {look : Look}
  {Op : Type} {progress : Op → Nat} {h h' : Handling Op} {txSize : UInt32}
  {result : Op × Point × Nat}

theorem settle_ok (hno : ∀ e, result.2.1 ≠ .threw e) :
    h.settle txSize result = .ok { op := result.1, txSize, bytesNow := h.bytesNow + result.2.2 } := by
  obtain ⟨op, point, n⟩ := result
  cases point with
  | threw e => exact absurd rfl (hno e)
  | _ => rfl

theorem settle_threw (h' : Handling Op) (hres : h.settle txSize result = .ok h') :
    ∀ e, result.2.1 ≠ .threw e := by
  obtain ⟨op, point, n⟩ := result
  rintro e hthrew
  obtain rfl : point = .threw e := hthrew
  exact nomatch hres

/-- An access within a transaction: not enough is there, or the next bytes are granted. -/
theorem access_cases (hsz : Sized header cap) (allowPartial : Bool) (size : UInt64)
    (finish : List UInt8 → Op × Point × Nat) (hgap : (look.head - tail).toNat ≤ cap)
    (htx : h.txSize.toNat ≤ (look.head - tail).toNat) :
    h.access header tail look allowPartial size finish = .ok h
      ∧ allowPartial = false ∧ (look.head - tail).toNat < h.txSize.toNat + size.toNat
    ∨ ∃ (granted : Nat) (txSize : UInt32),
      granted = grantedSize allowPartial size.toNat ((look.head - tail).toNat - h.txSize.toNat)
      ∧ txSize.toNat = h.txSize.toNat + granted
      ∧ (allowPartial = false → h.txSize.toNat + size.toNat ≤ (look.head - tail).toNat)
      ∧ h.access header tail look allowPartial size finish = h.settle txSize
        (finish ((cells cap (tail.toNat + h.txSize.toNat) granted).map look.data)) := by
  have hspec := access_spec hsz allowPartial true size tail look.head h.txSize hgap htx
  rw [Handling.access]
  rcases hres : accessContiguousInTx header allowPartial size tail look.head true h.txSize
    with ⟨e | buffers, txSize'⟩
  · rw [hres] at hspec
    obtain ⟨hfalse, -⟩ | ⟨-, hpartial, hlt, rfl⟩ := (hspec.failing e).mp rfl
    · exact nomatch hfalse
    · obtain rfl := UInt32.toNat_inj.mp (hspec.unchanged (Or.inl ⟨_, rfl⟩))
      exact Or.inl ⟨rfl, hpartial, by omega⟩
  · rw [hres] at hspec
    obtain ⟨hslice, hnew⟩ := hspec.slice buffers rfl
    refine Or.inr ⟨_, txSize', rfl, hnew, fun hpartial => ?_, ?_⟩
    · by_contra hlt
      have herror := (hspec.failing .ENODATA).mpr (Or.inr ⟨rfl, hpartial, by omega, rfl⟩)
      exact nomatch herror
    · rw [cells_eq_range, ← hslice.positions]

/-- All counts move by what is copied. -/
theorem access_moves (progress : Op → Nat) (hsz : Sized header cap) {allowPartial : Bool}
    {size : UInt64} {finish : List UInt8 → Op × Point × Nat} (hgap : (look.head - tail).toNat ≤ cap)
    (htx : h.txSize.toNat ≤ (look.head - tail).toNat)
    (hfinish : ∀ out, (∀ e, (finish out).2.1 ≠ .threw e) ∧ (finish out).2.2 = out.length
      ∧ progress (finish out).1 = progress h.op + out.length)
    (hres : h.access header tail look allowPartial size finish = .ok h') :
    ∃ k, Moves progress h h' k := by
  obtain ⟨hok, -⟩ | ⟨granted, txSize, -, hnew, -, hsettle⟩ :=
    access_cases hsz allowPartial size finish hgap htx
  · obtain rfl := Except.ok.inj (hok.symm.trans hres)
    exact ⟨0, Moves.refl h⟩
  · generalize hout : (cells cap (tail.toNat + h.txSize.toNat) granted).map look.data = out
      at hsettle
    have hlen : out.length = granted := by rw [← hout, List.length_map, cells_length]
    obtain ⟨hno, hcount, hprogress⟩ := hfinish out
    rw [settle_ok hno] at hsettle
    obtain rfl := Except.ok.inj (hsettle.symm.trans hres)
    rw [hlen] at hcount hprogress
    exact ⟨granted, hnew, congrArg (h.bytesNow + ·) hcount, hprogress⟩

/-- **An object.**  Its access moves all counts by the same amount, unless libnop stops at its
    limit within an area that is not empty and that is all there. -/
theorem accessNopObject_moves (hsz : Sized header cap) {len : Nat} {limited : Prop}
    (finish : List UInt8 → Op × Point × Nat) (hgap : (look.head - tail).toNat ≤ cap)
    (htx : h.txSize.toNat ≤ (look.head - tail).toNat)
    (hfinish : Finishes progress h.op len limited
      (finish ((cells cap (tail.toNat + h.txSize.toNat) len).map look.data))) :
    (¬ (0 < len ∧ h.txSize.toNat + len ≤ (look.head - tail).toNat ∧ limited) →
      ∀ h', h.accessNopObject header tail look len finish = .ok h' →
        ∃ k, Moves progress h h' k)
    ∧ (0 < len ∧ h.txSize.toNat + len ≤ (look.head - tail).toNat ∧ limited →
      ∃ h', h.accessNopObject header tail look len finish = .ok h' ∧ Skips h h' len) := by
  have hsize : header.kDataPoolByteSize.toNat = cap := by
    rw [hsz.size, toNat_ofNat_small hsz.small]
  rw [Handling.accessNopObject, hsize]
  by_cases hlarge : cap < len
  · rw [if_pos hlarge]
    refine ⟨fun _ _ hres => (nomatch hres), ?_⟩
    rintro ⟨-, hle, -⟩
    omega
  rw [if_neg hlarge]
  have hcap := hsz.small
  have hlen : (UInt64.ofNat len).toNat = len := toNat_ofNat_small (by omega)
  obtain ⟨hok, -, hlt⟩ | ⟨granted, txSize, hgranted, hnew, hle, hsettle⟩ :=
    access_cases hsz false (UInt64.ofNat len) finish hgap htx
  · rw [hlen] at hlt
    refine ⟨fun _ h' hres => ?_, ?_⟩
    · obtain rfl := Except.ok.inj (hok.symm.trans hres)
      exact ⟨0, Moves.refl h⟩
    · rintro ⟨-, hle, -⟩
      omega
  · have hall : granted = len := hgranted.trans hlen
    have hroom := hle rfl
    rw [hlen] at hroom
    subst hall
    rw [hsettle]
    constructor
    · intro hno h' hres
      have hthrew := settle_threw h' hres
      rw [settle_ok hthrew] at hres
      obtain rfl := Except.ok.inj hres
      by_cases hlimited : limited
      · -- the limit was reached on an area without bytes
        obtain ⟨-, hcount, hprogress⟩ := hfinish.limit hlimited
        have hempty : granted = 0 := by
          by_contra hpos
          exact hno ⟨Nat.pos_of_ne_zero hpos, hroom, hlimited⟩
        rw [hempty] at hnew
        exact ⟨0, hnew, congrArg (h.bytesNow + ·) hcount, hprogress⟩
      · obtain ⟨e, hthrow⟩ | ⟨hcount, hprogress⟩ := hfinish.counts hlimited
        · exact absurd hthrow (hthrew e)
        · exact ⟨granted, hnew, congrArg (h.bytesNow + ·) hcount, hprogress⟩
    · rintro ⟨-, -, hlimited⟩
      obtain ⟨hno, hcount, -⟩ := hfinish.limit hlimited
      exact ⟨_, settle_ok hno, hnew, congrArg (h.bytesNow + ·) hcount⟩

/-- **The payload.**  The rest of a call, once its header is accounted for: bytes that go by
    without an object count, and so do those of an object unless libnop stops at its limit. -/
theorem payload_accounts {op : Op} {k gap : Nat} {run : Except Thrown (Handling Op)}
    {payload : Option (Nat × Nat)} {object : Option α} (limited : Nat → Nat → α → Prop)
    (hk : Moves progress { op } h k)
    (hplain : payload = none ∨ object = none → ∀ h', run = .ok h' → ∃ l, Moves progress h h' l)
    (hobject : ∀ start len a, payload = some (start, len) → object = some a →
      (¬ (0 < len ∧ start + len ≤ gap ∧ limited start len a) →
        ∀ h', run = .ok h' → ∃ l, Moves progress h h' l)
      ∧ (0 < len ∧ start + len ≤ gap ∧ limited start len a →
        ∃ h', run = .ok h' ∧ Skips h h' len)) :
    (∀ h', run = .ok h' → Accounts progress op h')
      ↔ ¬ ∃ start len a, payload = some (start, len) ∧ 0 < len ∧ start + len ≤ gap
        ∧ object = some a ∧ limited start len a := by
  constructor
  · rintro hall ⟨start, len, a, hsome, hpos, hroom, hop, hlimited⟩
    obtain ⟨h', hres, hskips⟩ := (hobject start len a hsome hop).2 ⟨hpos, hroom, hlimited⟩
    exact hskips.not_accounts hk hpos (hall h' hres)
  · intro hno h' hres
    obtain ⟨l, hl⟩ : ∃ l, Moves progress h h' l := by
      cases hsome : payload with
      | none => exact hplain (Or.inl hsome) h' hres
      | some p =>
          cases hop : object with
          | none => exact hplain (Or.inr hop) h' hres
          | some a =>
              refine (hobject p.1 p.2 a hsome hop).1 ?_ h' hres
              rintro ⟨hpos, hroom, hlimited⟩
              exact hno ⟨p.1, p.2, a, hsome, hpos, hroom, hop, hlimited⟩
    exact (hk.trans hl).accounts

end Access

-- ── Reading ──────────────────────────────────────────────────────────────────

/-- Where the payload that a call deals with starts behind the marker, and how long it is: the
    operation knows, or the call reads it in the next four bytes. -/
def RingbufferReadOperation.payload? (cap tail gap : Nat) (data : Nat → UInt8)
    (op : RingbufferReadOperation α) : Option (Nat × Nat) :=
  match op.mode with
  | .READ_PAYLOAD => some (0, op.len)
  | .READ_LENGTH =>
      if 4 ≤ gap then some (4, (lengthOfBytes ((cells cap tail 4).map data)).toNat) else none

/-- How much of its payload a write has moved, and how much there is. -/
def RingbufferWriteOperation.payload? (gap : Nat) (op : RingbufferWriteOperation α) :
    Option (Nat × Nat) :=
  match op.mode with
  | .WRITE_PAYLOAD => some (0, op.len)
  | .WRITE_LENGTH => if 4 ≤ gap then some (4, op.len) else none

/-- A call parses an object from an area that is not empty and that is all there, and libnop
    wants to read beyond it. -/
def ReadLimited (holder : AbstractNopHolder α) (cap : Nat) (tail : UInt64)
    (atLength atPayload : Look) (op : RingbufferReadOperation α) : Prop :=
  ∃ start len a,
    op.payload? cap tail.toNat (atLength.head - tail).toNat atLength.data = some (start, len)
    ∧ 0 < len ∧ start + len ≤ (atPayload.head - tail).toNat ∧ op.nopObject = some a
    ∧ (holder.read ((cells cap (tail.toNat + start) len).map atPayload.data) a).1
      = .ReadLimitReached

/-- The same of an object that is written. -/
def WriteLimited (holder : AbstractNopHolder α) (tail : UInt64) (atLength atPayload : Look)
    (op : RingbufferWriteOperation α) : Prop :=
  ∃ start len a, op.payload? (atLength.head - tail).toNat = some (start, len)
    ∧ 0 < len ∧ start + len ≤ (atPayload.head - tail).toNat ∧ op.nopObject = some a
    ∧ (holder.write a len).2 = .WriteLimitReached

section Read

variable {header : RingBufferHeader NumRoles} {cap : Nat} (holder : AbstractNopHolder α)
  {tail : UInt64} {look : Look}

theorem setLength_kept (op : RingbufferReadOperation α) (length : Nat) :
    (op.setLength length).1.mode = .READ_PAYLOAD
      ∧ (op.setLength length).1.bytesRead = op.bytesRead
      ∧ (op.setLength length).1.nopObject = op.nopObject
      ∧ (op.nopObject.isSome = true → (op.setLength length).1.len = length) := by
  obtain ⟨mode, ptr, nopObject, len, bytesRead, ptrProvided⟩ := op
  cases nopObject with
  | some a => exact ⟨rfl, rfl, rfl, fun _ => rfl⟩
  | none =>
      cases ptrProvided with
      | true => exact ⟨rfl, rfl, rfl, fun h => nomatch h⟩
      | false => exact ⟨rfl, rfl, rfl, fun h => nomatch h⟩

/-- After the length the operation is at its payload, or too little was there for a length. -/
theorem handleReadLength_moves (hsz : Sized header cap) (op : RingbufferReadOperation α)
    (hgap : (look.head - tail).toNat ≤ cap) :
    ∃ h k, handleReadLength header tail look { op } = .ok h
      ∧ Moves RingbufferReadOperation.progress { op } h k
      ∧ h.txSize.toNat ≤ (look.head - tail).toNat ∧ h.op.nopObject = op.nopObject
      ∧ ((h.op.mode = .READ_LENGTH
          ∧ op.payload? cap tail.toNat (look.head - tail).toNat look.data = none)
        ∨ h.op.mode = .READ_PAYLOAD ∧ ∃ len,
          op.payload? cap tail.toNat (look.head - tail).toNat look.data
              = some (h.txSize.toNat, len)
            ∧ (op.nopObject.isSome = true → h.op.len = len)) := by
  rw [handleReadLength, RingbufferReadOperation.payload?]
  cases hmode : op.mode with
  | READ_PAYLOAD =>
      rw [if_neg (fun heq => nomatch heq)]
      exact ⟨_, 0, rfl, Moves.refl _, Nat.zero_le _, rfl,
        Or.inr ⟨hmode, op.len, rfl, fun _ => rfl⟩⟩
  | READ_LENGTH =>
      rw [if_pos rfl]
      obtain ⟨hok, -, hlt⟩ | ⟨granted, txSize, hgranted, hnew, hle, hsettle⟩ :=
        access_cases (h := { op }) hsz false 4 (op.received .length) hgap (Nat.zero_le _)
      · refine ⟨_, 0, hok, Moves.refl _, Nat.zero_le _, rfl, Or.inl ⟨hmode, ?_⟩⟩
        exact if_neg (Nat.not_le.mpr (Nat.lt_of_lt_of_eq hlt (Nat.zero_add 4)))
      · have hfour : granted = 4 := hgranted
        subst hfour
        have hroom : 0 + 4 ≤ (look.head - tail).toNat := hle rfl
        generalize hout : (cells cap (tail.toNat + ((0 : UInt32)).toNat) 4).map look.data = out
          at hsettle
        have hlen : out.length = 4 := by rw [← hout, List.length_map, cells_length]
        have htake : out.take 4 = out := List.take_of_length_le (Nat.le_of_eq hlen)
        obtain ⟨hmode', hbytes, hobject, hlength⟩ :=
          setLength_kept op (lengthOfBytes out).toNat
        have hform : op.received .length out
            = ((op.setLength (lengthOfBytes out).toNat).1, .payload, 4) := by
          rw [RingbufferReadOperation.received, RingbufferReadOperation.returned, hlen, htake]
        rw [hform] at hsettle
        refine ⟨_, 4, hsettle, ⟨hnew, rfl, ?_⟩, ?_, hobject, Or.inr ⟨hmode', _, ?_, hlength⟩⟩
        · rw [RingbufferReadOperation.progress, RingbufferReadOperation.progress, hmode, hmode',
            hbytes, if_pos rfl, if_neg (fun heq => nomatch heq)]
          exact (Nat.add_comm 4 op.bytesRead).trans (by rw [Nat.zero_add])
        · exact hnew.trans_le hroom
        · rw [if_pos (by omega), hnew, ← hout]
          rfl

/-- What is made of an object: it counts, unless libnop stops at its limit. -/
theorem parsed_finishes (op : RingbufferReadOperation α) {a : α} (bytes : List UInt8)
    (hobject : op.nopObject = some a) :
    Finishes RingbufferReadOperation.progress op op.len
      ((holder.read bytes a).1 = .ReadLimitReached) (op.parsed holder bytes) := by
  rw [RingbufferReadOperation.parsed, hobject, Option.map_some]
  rcases hread : holder.read bytes a with ⟨status, object⟩
  constructor
  · intro hno
    cases status with
    | None =>
        refine Or.inr ⟨rfl, ?_⟩
        rw [RingbufferReadOperation.progress, RingbufferReadOperation.progress, Nat.add_assoc]
    | ReadLimitReached => exact absurd rfl hno
    | WriteLimitReached => exact Or.inl ⟨_, rfl⟩
    | Other => exact Or.inl ⟨_, rfl⟩
  · intro hlimited
    obtain rfl : status = .ReadLimitReached := hlimited
    exact ⟨fun e heq => (nomatch heq), rfl, rfl⟩

theorem received_payload (op : RingbufferReadOperation α) (out : List UInt8)
    (hnone : op.nopObject = none) :
    (∀ e, (op.received .payload out).2.1 ≠ .threw e)
      ∧ (op.received .payload out).2.2 = out.length
      ∧ (op.received .payload out).1.progress = op.progress + out.length := by
  rw [RingbufferReadOperation.received, RingbufferReadOperation.returned, hnone]
  refine ⟨fun e heq => (nomatch heq), rfl, ?_⟩
  rw [RingbufferReadOperation.progress, RingbufferReadOperation.progress, Nat.add_assoc]

/-- **Reading accounts for what it takes**, unless libnop stops at its limit. -/
theorem handleRead_accounts (hsz : Sized header cap) (atLength atPayload : Look)
    (op : RingbufferReadOperation α) (hlength : (atLength.head - tail).toNat ≤ cap)
    (hpayload : (atPayload.head - tail).toNat ≤ cap)
    (hmono : (atLength.head - tail).toNat ≤ (atPayload.head - tail).toNat) :
    (∀ h, handleRead holder header tail atLength atPayload op = .ok h →
      Accounts RingbufferReadOperation.progress op h)
    ↔ ¬ ReadLimited holder cap tail atLength atPayload op := by
  obtain ⟨h, k, hok, hk, htx, hobject, hmode⟩ := handleReadLength_moves hsz op hlength
  have htx' := Nat.le_trans htx hmono
  have hrun : handleRead holder header tail atLength atPayload op
      = handleReadPayload holder header tail atPayload h := by
    rw [handleRead, hok]
    rfl
  rw [hrun]
  refine payload_accounts _ hk ?_ ?_
  · intro hnone h' hres
    rcases hmode with ⟨hmode, -⟩ | ⟨hmode, len, hsome, -⟩
    · rw [handleReadPayload, hmode, if_neg (fun heq => nomatch heq)] at hres
      obtain rfl := Except.ok.inj hres
      exact ⟨0, Moves.refl h⟩
    · have hop : op.nopObject = none :=
        hnone.resolve_left (fun heq => nomatch heq.symm.trans hsome)
      rw [handleReadPayload, hobject, hmode, if_pos rfl, hop] at hres
      exact access_moves RingbufferReadOperation.progress hsz hpayload htx'
        (fun out => received_payload h.op out (hobject.trans hop)) hres
  · intro start len a hknown hop
    rcases hmode with ⟨-, hnone⟩ | ⟨hmode, len', hsome, hlen⟩
    · exact nomatch hnone.symm.trans hknown
    · obtain ⟨rfl, rfl⟩ := Prod.mk.inj (Option.some.inj (hsome.symm.trans hknown))
      obtain rfl := hlen (by rw [hop]; rfl)
      rw [handleReadPayload, hobject, hmode, if_pos rfl, hop]
      exact accessNopObject_moves hsz (h.op.parsed holder) hpayload htx'
        (parsed_finishes holder h.op _ (hobject.trans hop))

end Read

-- ── Writing ──────────────────────────────────────────────────────────────────

section Write

variable {header : RingBufferHeader NumRoles} {cap : Nat} (holder : AbstractNopHolder α)
  {tail : UInt64} {look : Look}

/-- After the length the operation is at its payload, or there was no room for a length. -/
theorem handleWriteLength_moves (hsz : Sized header cap) (op : RingbufferWriteOperation α)
    (hgap : (look.head - tail).toNat ≤ cap) :
    ∃ h k, handleWriteLength holder header tail look { op } = .ok h
      ∧ Moves RingbufferWriteOperation.progress { op } h k
      ∧ h.txSize.toNat ≤ (look.head - tail).toNat ∧ h.op.nopObject = op.nopObject
      ∧ h.op.len = op.len
      ∧ ((h.op.mode = .WRITE_LENGTH ∧ op.payload? (look.head - tail).toNat = none)
        ∨ h.op.mode = .WRITE_PAYLOAD
          ∧ op.payload? (look.head - tail).toNat = some (h.txSize.toNat, op.len)) := by
  rw [handleWriteLength, RingbufferWriteOperation.payload?]
  cases hmode : op.mode with
  | WRITE_PAYLOAD =>
      rw [if_neg (fun heq => nomatch heq)]
      exact ⟨_, 0, rfl, Moves.refl _, Nat.zero_le _, rfl, rfl, Or.inr ⟨hmode, rfl⟩⟩
  | WRITE_LENGTH =>
      rw [if_pos rfl]
      obtain ⟨hok, -, hlt⟩ | ⟨granted, txSize, hgranted, hnew, hle, hsettle⟩ :=
        access_cases (h := { op }) hsz false 4
          (fun area => op.returned holder 4 (.ok area.length) .length) hgap (Nat.zero_le _)
      · refine ⟨_, 0, hok, Moves.refl _, Nat.zero_le _, rfl, rfl, Or.inl ⟨hmode, ?_⟩⟩
        exact if_neg (Nat.not_le.mpr (Nat.lt_of_lt_of_eq hlt (Nat.zero_add 4)))
      · have hfour : granted = 4 := hgranted
        subst hfour
        have hroom : 0 + 4 ≤ (look.head - tail).toNat := hle rfl
        rw [RingbufferWriteOperation.returned, List.length_map, cells_length] at hsettle
        refine ⟨_, 4, hsettle, ⟨hnew, rfl, ?_⟩, hnew.trans_le hroom, rfl, rfl,
          Or.inr ⟨rfl, ?_⟩⟩
        · rw [RingbufferWriteOperation.progress, RingbufferWriteOperation.progress, hmode,
            if_pos rfl, if_neg (fun heq => nomatch heq)]
          exact (Nat.add_comm 4 op.bytesWritten).trans (by rw [Nat.zero_add])
        · rw [if_pos (by omega), hnew]
          rfl

theorem filled_finishes (op : RingbufferWriteOperation α) (status : ErrorStatus) :
    Finishes RingbufferWriteOperation.progress op op.len (status = .WriteLimitReached)
      (op.filled status) := by
  constructor
  · intro hno
    cases status with
    | None =>
        refine Or.inr ⟨rfl, ?_⟩
        rw [RingbufferWriteOperation.filled, RingbufferWriteOperation.progress,
          RingbufferWriteOperation.progress, Nat.add_assoc]
    | ReadLimitReached => exact Or.inl ⟨_, rfl⟩
    | WriteLimitReached => exact absurd rfl hno
    | Other => exact Or.inl ⟨_, rfl⟩
  · rintro rfl
    exact ⟨fun e heq => (nomatch heq), rfl, rfl⟩

theorem returned_payload (op : RingbufferWriteOperation α) (out : List UInt8)
    (hnone : op.nopObject = none) :
    (∀ e, (op.returned holder 0 (.ok out.length) .payload).2.1 ≠ .threw e)
      ∧ (op.returned holder 0 (.ok out.length) .payload).2.2 = out.length
      ∧ (op.returned holder 0 (.ok out.length) .payload).1.progress
        = op.progress + out.length := by
  rw [RingbufferWriteOperation.returned, hnone]
  refine ⟨fun e heq => (nomatch heq), rfl, ?_⟩
  rw [RingbufferWriteOperation.progress, RingbufferWriteOperation.progress, Nat.add_assoc]

/-- **Writing accounts for what it takes**, with the same exception. -/
theorem handleWrite_accounts (hsz : Sized header cap) (atLength atPayload : Look)
    (op : RingbufferWriteOperation α) (hlength : (atLength.head - tail).toNat ≤ cap)
    (hpayload : (atPayload.head - tail).toNat ≤ cap)
    (hmono : (atLength.head - tail).toNat ≤ (atPayload.head - tail).toNat) :
    (∀ h, handleWrite holder header tail atLength atPayload op = .ok h →
      Accounts RingbufferWriteOperation.progress op h)
    ↔ ¬ WriteLimited holder tail atLength atPayload op := by
  obtain ⟨h, k, hok, hk, htx, hobject, hlen, hmode⟩ :=
    handleWriteLength_moves holder hsz op hlength
  have htx' := Nat.le_trans htx hmono
  have hrun : handleWrite holder header tail atLength atPayload op
      = handleWritePayload holder header tail atPayload h := by
    rw [handleWrite, hok]
    rfl
  rw [hrun]
  refine payload_accounts _ hk ?_ ?_
  · intro hnone h' hres
    rcases hmode with ⟨hmode, -⟩ | ⟨hmode, hsome⟩
    · rw [handleWritePayload, hmode, if_neg (fun heq => nomatch heq)] at hres
      obtain rfl := Except.ok.inj hres
      exact ⟨0, Moves.refl h⟩
    · have hop : op.nopObject = none :=
        hnone.resolve_left (fun heq => nomatch heq.symm.trans hsome)
      rw [handleWritePayload, hobject, hmode, if_pos rfl, hop] at hres
      exact access_moves RingbufferWriteOperation.progress hsz hpayload htx'
        (fun out => returned_payload holder h.op out (hobject.trans hop)) hres
  · intro start len a hknown hop
    rcases hmode with ⟨-, hnone⟩ | ⟨hmode, hsome⟩
    · exact nomatch hnone.symm.trans hknown
    · obtain ⟨rfl, rfl⟩ := Prod.mk.inj (Option.some.inj (hsome.symm.trans hknown))
      rw [handleWritePayload, hobject, hmode, if_pos rfl, hop, ← hlen]
      exact accessNopObject_moves hsz (fun _ => h.op.filled (holder.write a h.op.len).2) hpayload
        htx' (filled_finishes h.op (holder.write a h.op.len).2)

end Write

-- ── Both ─────────────────────────────────────────────────────────────────────

/-- **Accounting.**  On a ring that the header accepts, whatever the peer has moved its marker to
    at each access and whatever the data holds: a call that returns has moved its marker by what
    it returns and by what its operation has dealt with, exactly if libnop does not stop at its
    limit within an area that it was granted. -/
theorem handle_accounts_iff {minDataByteSize : UInt64}
    (haccepted : (RingBufferHeader.make NumRoles minDataByteSize).Accepted)
    (holder : AbstractNopHolder α) (tail : UInt64) (atLength atPayload : Look)
    (hpayload : (atPayload.head - tail).toNat
      ≤ (RingBufferHeader.make NumRoles minDataByteSize).kDataPoolByteSize.toNat)
    (hmono : (atLength.head - tail).toNat ≤ (atPayload.head - tail).toNat)
    (readOp : RingbufferReadOperation α) (writeOp : RingbufferWriteOperation α) :
    ((∀ h, handleRead holder (.make NumRoles minDataByteSize) tail atLength atPayload readOp = .ok h →
        Accounts RingbufferReadOperation.progress readOp h)
      ↔ ¬ ReadLimited holder
          (RingBufferHeader.make NumRoles minDataByteSize).kDataPoolByteSize.toNat tail atLength
          atPayload readOp)
    ∧ ((∀ h,
        handleWrite holder (.make NumRoles minDataByteSize) tail atLength atPayload writeOp = .ok h →
        Accounts RingbufferWriteOperation.progress writeOp h)
      ↔ ¬ WriteLimited holder tail atLength atPayload writeOp) := by
  obtain ⟨cap, -, hsz⟩ := sized_make haccepted
  have hcap : (RingBufferHeader.make NumRoles minDataByteSize).kDataPoolByteSize.toNat = cap := by
    rw [hsz.size, toNat_ofNat_small hsz.small]
  rw [hcap] at hpayload ⊢
  have hlength := Nat.le_trans hmono hpayload
  exact ⟨handleRead_accounts holder hsz atLength atPayload readOp hlength hpayload hmono,
    handleWrite_accounts holder hsz atLength atPayload writeOp hlength hpayload hmono⟩

/-- An object of two bytes. -/
def twoByteHolder : AbstractNopHolder (UInt8 × UInt8) where
  getSize _ := 2
  write a n := if n < 2 then ([], .WriteLimitReached) else ([a.1, a.2], .None)
  read bytes a :=
    match bytes with
    | b :: c :: _ => (.None, (b, c))
    | _ => (.ReadLimitReached, a)

/-- A frame of one byte, and the ring behind it. -/
def shortFrame : Look := { head := 5, data := fun a => if a = 0 then 1 else 0 }

/-- A frame of two bytes, and the ring behind it. -/
def wholeFrame : Look := { head := 6, data := fun a => if a = 0 then 2 else 0 }

/-- A frame of two bytes is parsed. -/
theorem handle_accounts_two :
    ∃ h, handleRead twoByteHolder (.make 2 8) 0 wholeFrame wholeFrame (.ofNopObject (0, 0)) = .ok h
      ∧ Accounts RingbufferReadOperation.progress (.ofNopObject (0, 0)) h := by
  have haccepted : (RingBufferHeader.make 2 8).Accepted := ⟨by decide, by decide, by decide⟩
  have hiff := (handle_accounts_iff haccepted twoByteHolder 0 wholeFrame wholeFrame (by decide)
    (Nat.le_refl _) (.ofNopObject (0, 0)) (.ofNopObject twoByteHolder (1, 2))).1
  refine ⟨_, rfl, hiff.mpr ?_ _ rfl⟩
  rintro ⟨start, len, a, hpayload, -, -, -, hstatus⟩
  obtain ⟨rfl, rfl⟩ := Prod.mk.inj (Option.some.inj hpayload)
  exact nomatch hstatus

/-- An object of two bytes on a frame of one: the byte is taken and not counted. -/
theorem short_frame_uncounted :
    ¬ ∀ (op : RingbufferReadOperation (UInt8 × UInt8)) (h : Handling _),
      handleRead twoByteHolder (.make 2 8) 0 shortFrame shortFrame op = .ok h →
        Accounts RingbufferReadOperation.progress op h := by
  intro hall
  exact absurd (hall (.ofNopObject (0, 0)) _ rfl).marker (by decide)

end TpRing
